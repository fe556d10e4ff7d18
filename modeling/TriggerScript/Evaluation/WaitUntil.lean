import TriggerScript.Evaluation.Interp
import TriggerScript.Schedule.Next
import TriggerScript.Task.Control

/-!
# Waiting until something happens

A script can wait for a condition on states, for an event, for a time, and for an end of its
patience. It waits on a queue of its own. Whichever comes first ends the waiting, and a dictionary
tells which.
-/

namespace TriggerScript

open Notify (QueueId Watched)

structure Waiting where
  stateTrigger : Value := .none
  timeTrigger : Value := .none
  eventTrigger : Value := .none
  timeout : Value := .none

def Value.isNone : Value → Bool
  | .none => true
  | _ => false

namespace Activity

def outcome (type : String) : Activity Value := op (Op.newDict [(.text "trigger_type", .text type)])

def specsOf (v : Value) : Activity (List Schedule.Spec) := do
  let s ← read (·.store)
  let spec : Value → Schedule.Spec
    | .text t => .text t
    | v => .other (v.typeName s)
  match v with
  | .list r => return (s.listAt r).map spec
  | v => return [spec v]

/-- A reading of a time specification; its warnings go to the log. -/
def reading {α : Type} (x : Schedule.Reading α) : Activity α := do
  let (r, warnings) := x.run.run []
  each warnings fun text ↦ say "trigger" .warning text
  lift r

def secondsUntilNext (spec : Value) : Activity (Option Float) := do
  let specs ← specsOf spec
  let w ← world
  match ← reading (Schedule.next w.sun specs w.now) with
  | some t => return some (Calendar.Duration.toSeconds (t.since w.now))
  | none => return none

def unpack (message : Value) : Activity (Value × Value) := do
  let s ← read (·.store)
  let iterable := match message with
    | .iterator _ => true
    | v => (v.cursor? s).isSome
  if !iterable then
    raise (.stated .type ("cannot unpack non-iterable " ++ message.typeName s ++ " object"))
  else
    match ← op (Op.elements caller message) with
    | [a, b] => return (a, b)
    | xs =>
      if xs.length < 2 then
        raise (.stated .value ("not enough values to unpack (expected 2, got "
          ++ Number.natText xs.length ++ ")"))
      else raise (.stated .value "too many values to unpack (expected 2)")

def watchStates (w : Watched) (q : QueueId) : Activity Unit := do
  match ← modifyGet fun world ↦
    let (t, fault) := world.stateTable.add w q
    (fault, { world with stateTable := t }) with
  | some f => raise f
  | none => return ()

def unwatchStates (w : Watched) (q : QueueId) : Activity Unit := do
  match ← modifyGet fun world ↦
    let (t, fault) := world.stateTable.remove w q
    (fault, { world with stateTable := t }) with
  | some f => raise f
  | none => return ()

def eventTypeOf (v : Value) : Activity String := do
  lift v.checkKey
  op (Op.look v.plain)

def watchEvents (type : Value) (q : QueueId) : Activity Unit := do
  let type ← eventTypeOf type
  modify fun w ↦
    let (t, h) := w.eventTable.add w.host type q
    { w with eventTable := t, host := h }

def unwatchEvents (type : Value) (q : QueueId) : Activity Unit := do
  let type ← eventTypeOf type
  match ← modifyGet fun w ↦
    let ((t, h), fault) := w.eventTable.remove w.host type q
    (fault, { w with eventTable := t, host := h }) with
  | some f => raise f
  | none => return ()

def sizeOf (v : Value) : Activity Nat := do
  let s ← read (·.store)
  match v.size? s with
  | some n => return n
  | none => raise (.noLength (v.typeName s))

end Activity

namespace Interp

open Activity

structure Wait where
  context : ContextId
  queue : QueueId
  given : Waiting
  stateExpr : Option ContextId
  eventExpr : Option ContextId
  /-- The seconds on the clock when the waiting began. -/
  began : Float

def timeLeft (wait : Wait) : Activity (Option (Option Float)) := do
  match wait.given.timeout with
  | .none => return some none
  | timeout =>
    let now ← read (·.seconds)
    let sum ← op (Op.binary caller .add (.float wait.began 0) timeout)
    let left ← op (Op.binary caller .sub sum (.float now 0))
    if ← op (Op.look fun s ↦ Value.order s .ltE left (.int 0)) then return none
    else
      match left.num? with
      | some x => return some (some (← lift x.toFloat))
      | none => return some none

def holds (I : Interp) (c : Option ContextId) (values : Value) : Activity Bool := do
  match c with
  | none => return true
  | some c =>
    let v ← I.run c values
    return v.truth (← read (·.store))

def partOf (full : Bool) (info : Value) (i : Int) : Activity Value :=
  if full then op (Op.getItem info (.int i)) else return .none

def endsWait (I : Interp) (wait : Wait) (message : Value) : Activity (Option Value) := do
  let (type, info) ← unpack message
  let s ← read (·.store)
  if Value.equal s type (.text "state") then
    let full := info.truth s
    let values ← partOf full info 0
    if ← I.holds wait.stateExpr values then return some (← partOf full info 1) else return none
  else if Value.equal s type (.text "event") then
    return if ← I.holds wait.eventExpr info then some info else none
  else
    let name := (← context wait.context).name
    let shown ← op (Op.look type.plain)
    say "trigger" .error ("trigger " ++ name ++ " wait_until got unexpected queue message " ++
      shown)
    return none

/-- How waiting ends: with a value, and perhaps before the queue is taken away from what it was
registered for. -/
inductive WaitEnd where
  | clean (v : Value)
  | abrupt (v : Value)

def nextMoment (timeTrigger : Value) : Activity (Option Float) :=
  match timeTrigger with
  | .none => return none
  | spec => secondsUntilNext spec

def waitRounds (I : Interp) (wait : Wait) : Nat → Activity WaitEnd
  | 0 => outOfFuel
  | n + 1 => do
    let next ← nextMoment wait.given.timeTrigger
    match ← timeLeft wait with
    | none => return .clean (← outcome "timeout")
    | some left =>
      let patience := match next, left with
        | none, left => left
        | some x, none => some x
        | some x, some y => if x > y then some y else some x
      if patience.isNone && wait.given.stateTrigger.isNone && wait.given.eventTrigger.isNone then
        return .abrupt (← outcome "none")
      match ← receiveFor wait.queue patience with
      | none => return .clean (← outcome "time")
      | some m =>
        match ← I.endsWait wait m with
        | some v => return .clean v
        | none => I.waitRounds wait n

def roundLimit : Nat := 1000000000

def stateContext (c : ContextId) (source : Value) : Activity (Option ContextId) := do
  match source with
  | .none => return none
  | source =>
    let name := (← context c).name ++ " wait_until state_trigger"
    return some (← expressionContext (newContextBeside c name) source)

def holdsNow (I : Interp) (stateExpr : Option ContextId) : Activity Bool :=
  match stateExpr with
  | none => return false
  | some e => I.holds (some e) .none

def watchedNames (stateExpr : Option ContextId) : Activity (List (Option String)) :=
  match stateExpr with
  | none => return []
  | some e => mentioned e

def watchNames (names : List (Option String)) (q : QueueId) : Activity Unit :=
  if names.isEmpty then return () else watchStates (.names names) q

def eventList (trigger : Value) : Activity Value :=
  match trigger with
  | .text t => op (Op.newList [.text t])
  | v => return v

def eventContext (c : ContextId) (trigger : Value) (q : QueueId) :
    Activity (Option ContextId) := do
  match trigger with
  | .none => return none
  | trigger =>
    watchEvents (← op (Op.getItem trigger (.int 0))) q
    if (← sizeOf trigger) > 1 then
      let source ← op (Op.getItem trigger (.int 1))
      let name := "trigger " ++ (← context c).name ++ " wait_until event_trigger"
      return some (← expressionContext (newContextBeside c name) source)
    else return none

def forget (names : List (Option String)) (eventTrigger : Value) (q : QueueId) :
    Activity Unit := do
  each names fun
    | some name => unwatchStates (.single name) q
    | none => raise Notify.StateTable.noParts
  match eventTrigger with
  | .none => return ()
  | trigger => unwatchEvents (← op (Op.getItem trigger (.int 0))) q

def waitOnly (timeout : Value) : Activity Value := do
  match timeout with
  | .none => outcome "none"
  | timeout =>
    let s ← read (·.store)
    let _ ← lift (Value.order s .ltE timeout (.int 0))
    match timeout.num? with
    | some x => sleep (← lift x.toFloat)
    | none => pure ()
    outcome "timeout"

def waitUntil (I : Interp) (c : ContextId) (given : Waiting) : Activity Value := do
  if given.stateTrigger.isNone && given.timeTrigger.isNone && given.eventTrigger.isNone then
    waitOnly given.timeout
  else
    let queue ← modifyGet (·.addQueue "?")
    let stateExpr ← stateContext c given.stateTrigger
    if ← I.holdsNow stateExpr then outcome "state"
    else
      let names ← watchedNames stateExpr
      watchNames names queue
      let eventTrigger ← eventList given.eventTrigger
      let eventExpr ← eventContext c eventTrigger queue
      let began ← read (·.seconds)
      match ← I.waitRounds { context := c, queue, given, stateExpr, eventExpr, began }
          roundLimit with
      | .abrupt v => return v
      | .clean v =>
        forget names eventTrigger queue
        return v

end Interp

end TriggerScript
