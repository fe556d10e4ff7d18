import TriggerScript.Evaluation.WaitUntil

/-!
# Triggers

A trigger binds a function to what makes it run: an expression on states, an event, a time. Making a
trigger registers its queue; starting it begins a task that watches the queue; stopping it takes the
queue away again and ends the task.
-/

namespace TriggerScript

structure TriggerConfig where
  stateTrigger : Value := .none
  timeTrigger : Value := .none
  eventTrigger : Value := .none
  stateActive : Value := .none
  timeActive : Value := .none
  action : Option Ref := none
  context : ContextId := 0
  globals : TableId := 0

namespace Activity

def triggerExpression (trigger role : String) (globals : TableId) (source : Value) :
    Activity (Option ContextId) := do
  match source with
  | .none => return none
  | source =>
    return some (← expressionContext (newContext ("trigger " ++ trigger ++ " " ++ role) globals)
      source)

def triggerEvent (trigger : String) (globals : TableId) (event : Value) (q : Notify.QueueId) :
    Activity (Option ContextId) := do
  match event with
  | .none => return none
  | event =>
    watchEvents (← op (Op.getItem event (.int 0))) q
    if (← sizeOf event) = 2 then
      triggerExpression trigger "event_trigger" globals (← op (Op.getItem event (.int 1)))
    else return none

def triggerStates (expr : Option ContextId) (q : Notify.QueueId) :
    Activity (Option (List (Option String))) := do
  match expr with
  | none => return none
  | some c =>
    match ← mentioned c with
    | [] => return some []
    | names =>
      watchStates (.names names) q
      return some names

def newTrigger (name : String) (cfg : TriggerConfig) : Activity TriggerId := do
  let queue ← modifyGet (·.addQueue ("trig " ++ name))
  let activeExpr ← triggerExpression name "state_active" cfg.globals cfg.stateActive
  let stateExpr ← triggerExpression name "state_trigger" cfg.globals cfg.stateTrigger
  let watched ← triggerStates stateExpr queue
  let eventExpr ← triggerEvent name cfg.globals cfg.eventTrigger queue
  let hasTrigger := !(cfg.stateTrigger.isNone && cfg.timeTrigger.isNone && cfg.eventTrigger.isNone)
  let trigger : Trigger :=
    { name, queue, activeExpr, stateExpr, eventExpr, watched, hasTrigger,
      stateTrigger := cfg.stateTrigger, timeTrigger := cfg.timeTrigger,
      eventTrigger := cfg.eventTrigger, stateActive := cfg.stateActive,
      timeActive := cfg.timeActive, action := cfg.action, context := cfg.context }
  modifyGet fun w ↦ (w.triggers.size, { w with triggers := w.triggers.push trigger })

def updateTrigger (t : TriggerId) (f : Trigger → Trigger) : Activity Unit :=
  modify fun w ↦ { w with triggers := w.triggers.modify t f }

def retireStates (t : Trigger) : Activity Unit :=
  match t.watched with
  | none | some [] => return ()
  | some names => unwatchStates (.names names) t.queue

def retireEvent (t : Trigger) : Activity Unit := do
  match t.eventTrigger with
  | .none => return ()
  | event => unwatchEvents (← op (Op.getItem event (.int 0))) t.queue

def retire (t : Trigger) : Activity Unit := do
  retireStates t
  retireEvent t

def startTrigger (t : TriggerId) : Activity Unit := do
  let task ← start .logged (.watch t)
  updateTrigger t ({ · with task := some task })

def stopTrigger (t : TriggerId) : Activity Unit := do
  match (← read fun w ↦ w.triggers[t]?) with
  | none => return ()
  | some trigger =>
    match trigger.task with
    | none => return ()
    | some task =>
      retire trigger
      stopTask task
      updateTrigger t ({ · with task := none })

end Activity

end TriggerScript
