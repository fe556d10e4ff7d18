import TriggerScript.Task.Activity

/-!
# Starting, stopping and waiting

A task that is asked to stop is told so when it next runs. If it waits for the end of another task,
that one is asked instead, and the waiting task goes on when it has ended.
-/

namespace TriggerScript

namespace World

def isPending (w : World) (t : TaskId) : Bool :=
  match w.tasks[t]? with
  | some task => task.phase == .pending
  | none => false

/-- The task that is told to stop if another one is asked to. -/
def stopped? (w : World) : Nat → TaskId → Option TaskId
  | 0, _ => none
  | n + 1, t =>
    match w.tasks[t]? with
    | none => none
    | some task =>
      if task.phase == .pending then
        match task.joining with
        | some u => if w.isPending u then w.stopped? n u else some t
        | none => some t
      else none

def cancel (w : World) (t : TaskId) : World :=
  { w with tasks := match w.stopped? (w.tasks.size + 1) t with
      | some u => w.tasks.modify u ({ · with stopping := true })
      | none => w.tasks }

def instantAfter (w : World) (seconds : Float) : Instant :=
  ((Number.nearest? ((w.seconds + seconds) * 1000000)).getD 1000000000000000000).toNat

end World

namespace Activity

def yieldTurn : Activity Unit := do
  let _ ← ask .turn

def sleep (seconds : Float) : Activity Unit := do
  if seconds ≤ 0 then yieldTurn
  else
    let w ← world
    let _ ← ask (.until (w.instantAfter seconds))

def takeMessage (q : Notify.QueueId) : Activity (Option Value) :=
  modifyGet fun w ↦
    match w.queues[q]? with
    | some { messages := m :: rest, .. } =>
      (some m, { w with queues := w.queues.modify q ({ · with messages := rest }) })
    | _ => (none, w)

def receive (q : Notify.QueueId) : Activity Value := do
  match ← takeMessage q with
  | some m => return m
  | none =>
    match ← ask (.receive q none) with
    | .message m => return m
    | _ => return .none

def receiveWithin (q : Notify.QueueId) (seconds : Float) : Activity (Option Value) := do
  if seconds ≤ 0 then
    yieldTurn
    return none
  else
    let w ← world
    match ← ask (.receive q (some (w.instantAfter seconds))) with
    | .message m => return some m
    | _ => return none

def receiveFor (q : Notify.QueueId) (patience : Option Float) : Activity (Option Value) := do
  match patience with
  | none => return some (← receive q)
  | some seconds => receiveWithin q seconds

def join (t : TaskId) : Activity Unit := do
  if ← read (·.isPending t) then
    modify fun w ↦ w.updateTask w.running ({ · with joining := some t, stopping := false })
    settle (do let _ ← ask (.join t))
    modify fun w ↦ w.updateTask w.running ({ · with joining := none })

def stopTask (t : TaskId) : Activity Unit := do
  let w ← world
  if t = w.running then settle yieldTurn
  else
    modify (·.cancel t)
    join t

def start (oversight : Oversight) (job : Job) : Activity TaskId :=
  modifyGet (·.startTask oversight job)

end Activity

end TriggerScript
