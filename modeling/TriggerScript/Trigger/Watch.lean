import TriggerScript.Schedule.Active
import TriggerScript.Trigger.Basic

/-!
# Watching

The task of a trigger goes in rounds. Each round waits for a message of its queue or for the next of
its times, and starts the trigger's function if its conditions hold. Conditions are looked at one
after the other and the first that fails ends the round. A trigger that waits for nothing has one
round only. A fault ends the task quietly, after the trigger's queue has been taken away.
-/

namespace TriggerScript

namespace Activity

def activeNow (spec : Value) : Activity Bool := do
  let specs ← specsOf spec
  let w ← world
  reading (Schedule.active w.sun specs w.now)

def activeIfGiven (spec : Value) : Activity Bool := do
  if spec.truth (← read (·.store)) then activeNow spec else return true

def launch (t : Trigger) (named : Value) : Activity Unit := do
  match t.action with
  | none => return ()
  | some f =>
    let _ ← start .logged (.call f t.context [] named)

def unpackIfGiven (info : Value) : Activity (Value × Value) := do
  if info.truth (← read (·.store)) then unpack info else return (.none, .none)

inductive Arrival where
  | time
  | message (type info : Value)
  | nothing

def patienceOf (t : Trigger) : Activity (Option Float) := do
  if t.timeTrigger.truth (← read (·.store)) then secondsUntilNext t.timeTrigger else return none

def await (t : Trigger) : Activity Arrival := do
  match ← patienceOf t with
  | some seconds =>
    match ← receiveWithin t.queue seconds with
    | none => return .time
    | some m =>
      let (type, info) ← unpack m
      return .message type info
  | none =>
    if t.hasTrigger then
      let (type, info) ← unpack (← receive t.queue)
      return .message type info
    else return .nothing

end Activity

namespace Interp

open Activity

variable (I : Interp) (t : Trigger)

def onTime : Activity Unit := do
  if ← I.holds t.activeExpr .none then
    if ← activeIfGiven t.timeActive then launch t (← outcome "time")

def conditionsHold (expr : Option ContextId) (values : Value) :
    Activity Bool := do
  if ← I.holds expr values then
    if ← I.holds t.activeExpr values then
      if t.timeActive.isNone then return true else activeNow t.timeActive
    else return false
  else return false

def onState (info : Value) : Activity Unit := do
  let (values, named) ← unpackIfGiven info
  if ← I.conditionsHold t t.stateExpr values then
    if t.action.isSome then
      let _ ← I.holds t.stateExpr values
      launch t named

def onEvent (info : Value) : Activity Unit := do
  if ← I.conditionsHold t t.eventExpr info then launch t info

def onMessage (type info : Value) : Activity Unit := do
  let s ← read (·.store)
  if type.isNone || Value.equal s type (.text "state") then I.onState t info
  else if Value.equal s type (.text "event") then I.onEvent t info
  else
    let shown ← op (Op.look type.plain)
    say "trigger" .error ("trigger " ++ t.name ++ " got unexpected queue message " ++ shown)

/-- One round of watching. Tells whether there is another. -/
def watchRound : Activity Bool := do
  match ← await t with
  | .time =>
    I.onTime t
    return true
  | .message type info =>
    I.onMessage t type info
    return t.hasTrigger
  | .nothing =>
    I.onState t .none
    return t.hasTrigger

def watchRounds (I : Interp) (t : Trigger) : Nat → Activity Unit
  | 0 => outOfFuel
  | n + 1 => do
    match ← (I.watchRound t).attempt with
    | .ok true => I.watchRounds t n
    | .ok false => return ()
    | .error _ => retire t

def watch (t : TriggerId) : Activity Unit := do
  match (← read fun w ↦ w.triggers[t]?) with
  | none => return ()
  | some trigger => I.watchRounds trigger roundLimit

end Interp

end TriggerScript
