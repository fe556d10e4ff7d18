import TriggerScript.Host.Basic
import TriggerScript.Notify.State

/-!
# Tasks

A task is a piece of work that runs beside others. While it waits it asks for something, and it can
be run on when its request can be answered. Nothing else decides when a task runs: a scheduler only
chooses among the tasks that can.
-/

namespace TriggerScript

abbrev TaskId := Nat

abbrev TriggerId := Nat

/-- A point of time, in microseconds since the start. -/
abbrev Instant := Nat

inductive Request where
  /-- To go on when it is its turn. -/
  | turn
  /-- To go on at an instant. -/
  | until (t : Instant)
  /-- The next message of a queue, or the end of patience at an instant. -/
  | receive (q : Notify.QueueId) (deadline : Option Instant)
  /-- The end of another task. -/
  | join (task : TaskId)
  deriving Repr, DecidableEq

inductive Reply where
  | go
  | message (m : Value)
  | late
  /-- The task is to stop. -/
  | cancelled

inductive Phase where
  | pending
  | done
  | cancelled
  deriving Repr, DecidableEq

/-- What becomes of a fault that ends a task. -/
inductive Oversight where
  /-- It is written to the log. -/
  | logged
  /-- It is noted as a failure of the host's listener or service. -/
  | noted
  /-- It is kept as the outcome. -/
  | kept
  deriving Repr, DecidableEq

inductive Job where
  /-- Evaluates the tree of a context, with values for names. -/
  | script (ctx : ContextId) (values : Value)
  | call (f : Ref) (ctx : ContextId) (args : List Value) (named : Value)
  | watch (t : TriggerId)
  | stop (t : TriggerId)
  | deliver (l : Listener) (e : Event)
  | serve (s : Service) (data : Entries)
  /-- Prepares the scripts of the folder for the first time. -/
  | setup

structure Task where
  /-- What it was started for. -/
  job : Job
  phase : Phase := .pending
  oversight : Oversight := .kept
  /-- The task was asked to stop and has not been told yet. -/
  stopping : Bool := false
  joining : Option TaskId := none
  outcome : Option (Except Fault Value) := none

structure Queue where
  name : String
  messages : List Value := []

/-- A function that is called with actions of a script in mind: it reacts to changes of entities, to
events and to times. -/
structure Trigger where
  name : String
  stateTrigger : Value := .none
  timeTrigger : Value := .none
  eventTrigger : Value := .none
  stateActive : Value := .none
  timeActive : Value := .none
  action : Option Ref := none
  context : ContextId := 0
  queue : Notify.QueueId
  activeExpr : Option ContextId := none
  stateExpr : Option ContextId := none
  eventExpr : Option ContextId := none
  /-- The names that the expression on states mentions. -/
  watched : Option (List (Option String)) := none
  hasTrigger : Bool := false
  /-- The task that waits for its events. -/
  task : Option TaskId := none

end TriggerScript
