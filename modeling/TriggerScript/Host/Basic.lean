import TriggerScript.Scope.Context
import TriggerScript.Text.Case
import TriggerScript.Value.Compare

/-!
# The host

What surrounds the scripts: entities with a state, a bus of events with listeners, and services that
can be called. Names of entities and services are matched without regard to case.
-/

namespace TriggerScript

def foldName (name : String) : String := String.ofList (Text.lower name.toList)

structure EntityState where
  text : String
  attributes : Entries := []

structure Event where
  type : String
  data : Entries

/-- What is done when an event of its type occurs. -/
inductive Listener where
  /-- Queues that wait for events of the type get a message. -/
  | notify
  /-- Queues that wait for the entity get a message. -/
  | stateChanged
  | startTriggers
  | stopTriggers
  deriving Repr, DecidableEq

inductive Service where
  | nothing
  | reload
  | function (name : String) (f : Ref) (globals : TableId)
  deriving Repr, DecidableEq

structure Notes where
  sets : List (String × Option EntityState) := []
  fired : List Event := []
  calls : List (String × Entries) := []
  /-- Faults that ended a listener or a service. -/
  failures : List Fault := []

structure Host where
  states : List (String × EntityState) := []
  /-- Services by their folded names. -/
  services : List (String × Service) := []
  /-- Listeners with the number under which they can be removed, in the order in which they were
  added. -/
  listeners : List (Nat × String × Listener) := []
  nextListener : Nat := 0
  /-- Descriptions of services; they are never removed. -/
  schemas : List (String × Value) := []
  notes : Notes := {}

namespace Host

variable (h : Host)

def state? (entity : String) : Option EntityState := h.states.lookup (foldName entity)

def putState (entity : String) (state : EntityState) : Host :=
  { h with states := assign h.states (foldName entity) state }

def removeState (entity : String) : Host :=
  { h with states := h.states.filter fun e ↦ e.1 != foldName entity }

def serviceKey (domain name : String) : String := foldName (domain ++ "." ++ name)

def service? (domain name : String) : Option Service := h.services.lookup (serviceKey domain name)

def register (domain name : String) (s : Service) : Host :=
  { h with services := assign h.services (serviceKey domain name) s }

def offer (key : String) : Host := { h with services := assign h.services (foldName key) .nothing }

def unregister (domain name : String) : Host :=
  { h with services := h.services.filter fun e ↦ e.1 != serviceKey domain name }

def listen (type : String) (l : Listener) : Nat × Host :=
  (h.nextListener,
    { h with
      listeners := h.listeners ++ [(h.nextListener, type, l)]
      nextListener := h.nextListener + 1 })

def unlisten (id : Nat) : Host := { h with listeners := h.listeners.filter fun l ↦ l.1 != id }

def listenersOf (type : String) : List Listener :=
  (h.listeners.filter fun l ↦ l.2.1 == type).map (·.2.2)

end Host

end TriggerScript
