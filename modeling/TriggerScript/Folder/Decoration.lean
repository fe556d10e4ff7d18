import TriggerScript.Trigger.Basic

/-!
# Decorators

What the decorators of a function ask for: a service, or triggers and conditions with arguments. The
arguments of decorators of one kind are put together.
-/

namespace TriggerScript

inductive TriggerKind where
  | timeTrigger | stateTrigger | eventTrigger | stateActive | timeActive
  deriving Repr, DecidableEq

namespace TriggerKind

def word : TriggerKind → String
  | timeTrigger => "time_trigger"
  | stateTrigger => "state_trigger"
  | eventTrigger => "event_trigger"
  | stateActive => "state_active"
  | timeActive => "time_active"

def ofWord? (name : String) : Option TriggerKind :=
  [timeTrigger, stateTrigger, eventTrigger, stateActive, timeActive].find? (·.word == name)

def counts? : TriggerKind → Option (List Nat)
  | stateTrigger => some [1]
  | stateActive => some [1]
  | eventTrigger => some [1, 2]
  | _ => none

def checked : List TriggerKind := [stateTrigger, stateActive, eventTrigger]

end TriggerKind

abbrev Decoration := List (TriggerKind × List Value)

namespace Decoration

def add : Decoration → TriggerKind → List Value → Decoration
  | [], k, args => [(k, args)]
  | (k', args') :: rest, k, args =>
    if k' = k then (k', args' ++ args) :: rest else (k', args') :: add rest k args

def value (d : Decoration) (k : TriggerKind) : Op Value :=
  match d.lookup k with
  | none | some [] => return .none
  | some args => Op.newList args

def mistaken? (d : Decoration) (k : TriggerKind) : Option Nat := do
  let args ← d.lookup k
  let counts ← k.counts?
  if args.isEmpty || counts.contains args.length then none else some args.length

def without (d : Decoration) (k : TriggerKind) : Decoration := d.filter (·.1 != k)

def config (d : Decoration) (f : Ref) (context : ContextId) (globals : TableId) :
    Op TriggerConfig := do
  return {
    stateTrigger := ← d.value .stateTrigger
    timeTrigger := ← d.value .timeTrigger
    eventTrigger := ← d.value .eventTrigger
    stateActive := ← d.value .stateActive
    timeActive := ← d.value .timeActive
    action := some f
    context
    globals }

end Decoration

end TriggerScript
