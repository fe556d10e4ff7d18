import TriggerScript.Host.Basic
import TriggerScript.Notify.State

/-!
# Who is told about an event

For each event type that a queue has waited for there is a list of queues, in the order in which
they came, and at most one listener on the bus. The listener is added with the first queue and
removed with the last one; the list stays, so a type whose list ran empty is not listened to again.
-/

namespace TriggerScript.Notify

structure EventTable where
  queues : List (String × List QueueId) := []
  /-- The listeners on the bus, by their numbers. -/
  listening : List (String × Nat) := []

namespace EventTable

def queuesOf (t : EventTable) (type : String) : List QueueId := (t.queues.lookup type).getD []

def add (t : EventTable) (h : Host) (type : String) (q : QueueId) : EventTable × Host :=
  match t.queues.lookup type with
  | none =>
    let (id, h) := h.listen type .notify
    ({ queues := t.queues ++ [(type, [q])], listening := t.listening ++ [(type, id)] }, h)
  | some qs =>
    if qs.contains q then (t, h)
    else ({ t with queues := assign t.queues type (qs ++ [q]) }, h)

def remove (t : EventTable) (h : Host) (type : String) (q : QueueId) :
    (EventTable × Host) × Option Fault :=
  match t.queues.lookup type with
  | none => ((t, h), none)
  | some qs =>
    if qs.contains q then
      let qs := qs.filter (· ≠ q)
      let t := { t with queues := assign t.queues type qs }
      if qs.isEmpty then
        match t.listening.lookup type with
        | some id =>
          (({ t with listening := t.listening.filter (·.1 != type) }, h.unlisten id), none)
        | none => ((t, h), some (.missingKey (Text.quoted type)))
      else ((t, h), none)
    else ((t, h), none)

end EventTable

end TriggerScript.Notify
