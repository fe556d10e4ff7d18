import TriggerScript.Task.Activity

/-!
# The scheduler

A machine is a world together with the threads that wait in it. One step answers the request of the
first thread whose request can be answered, and lets it run until it ends or waits again; then it
stands behind all others. When no request can be answered time passes until the next instant that a
thread waits for.
-/

namespace TriggerScript

abbrev Work := Job → Activity Value

structure Thread where
  id : TaskId
  request : Request
  resume : Reply → World → Step Value

structure Machine where
  world : World
  threads : List Thread := []

namespace World

def isStopping (w : World) (t : TaskId) : Bool :=
  match w.tasks[t]? with
  | some task => task.stopping
  | none => false

def answer? (w : World) (t : TaskId) (r : Request) : Option (Reply × World) :=
  if w.isStopping t then some (.cancelled, w.updateTask t ({ · with stopping := false }))
  else
    match r with
    | .turn => some (.go, w)
    | .until i => if i ≤ w.elapsed then some (.go, w) else none
    | .receive q deadline =>
      if deadline.any (· ≤ w.elapsed) then some (.late, w)
      else
        match w.queues[q]? with
        | some { messages := m :: rest, .. } =>
          some (.message m, { w with queues := w.queues.modify q ({ · with messages := rest }) })
        | _ => none
    | .join u =>
      match w.tasks[u]? with
      | some task => if task.phase == .pending then none else some (.go, w)
      | none => some (.go, w)

def endTask (w : World) (t : TaskId) (result : Except Stop Value) : World :=
  let oversight := match w.tasks[t]? with
    | some task => task.oversight
    | none => .kept
  let close (phase : Phase) (outcome : Option (Except Fault Value)) (w : World) : World :=
    w.updateTask t fun task ↦ { task with phase, outcome, stopping := false }
  match result with
  | .ok v => close .done (some (.ok v)) w
  | .error .cancelled => close .cancelled none w
  | .error .outOfFuel => close .done (some (.error .outOfFuel)) w
  | .error (.raised f) =>
    match oversight with
    | .kept => close .done (some (.error f)) w
    | .logged => (close .done (some (.ok .none)) w).say "handler" .error ("run_coro: " ++ f.line)
    | .noted =>
      let w := close .done (some (.ok .none)) w
      { w with host :=
          { w.host with notes := { w.host.notes with failures := w.host.notes.failures ++ [f] } } }

end World

namespace Machine

variable (work : Work) (m : Machine)

def threadOf (t : TaskId) (job : Job) : Thread where
  id := t
  request := .turn
  resume reply w :=
    match reply with
    | .cancelled => .ended (.error .cancelled) w
    | _ => work job w

def adopt : Machine where
  world := { m.world with started := [] }
  threads := m.threads ++ m.world.started.map fun (t, job) ↦ threadOf work t job

def pick (w : World) : List Thread → Option (Thread × Reply × World × List Thread)
  | [] => none
  | t :: rest =>
    match w.answer? t.id t.request with
    | some (reply, w) => some (t, reply, w, rest)
    | none => (pick w rest).map fun (u, reply, w, others) ↦ (u, reply, w, t :: others)

def step? : Option Machine :=
  let m := m.adopt work
  match pick m.world m.threads with
  | none => none
  | some (t, reply, w, others) =>
    match t.resume reply { w with running := t.id } with
    | .ended result w => some ⟨w.endTask t.id result, others⟩
    | .waiting request w resume => some ⟨w, others ++ [{ id := t.id, request, resume }]⟩

def settleTo (work : Work) : Nat → Machine → Machine
  | 0, m => m
  | n + 1, m =>
    match m.step? work with
    | some m => settleTo work n m
    | none => m.adopt work

/-- More steps than are ever taken at one instant. -/
def stepLimit : Nat := 1000000000

def settle : Machine := m.settleTo work stepLimit

def instantOf? : Request → Option Instant
  | .until i => some i
  | .receive _ deadline => deadline
  | _ => none

def nextInstant? : Option Instant := (m.threads.filterMap fun t ↦ instantOf? t.request).min?

def passTo (work : Work) (limit : Instant) (enough : World → Bool) : Nat → Machine → Machine
  | 0, m => m
  | n + 1, m =>
    let m := m.settle work
    if enough m.world then m
    else
      match m.nextInstant? with
      | some i =>
        if i ≤ limit then
          passTo work limit enough n
            { m with world := { m.world with elapsed := max m.world.elapsed i } }
        else m
      | none => m

def passUntil (limit : Instant) (m : Machine) : Machine :=
  let m := m.passTo work limit (fun _ ↦ false) stepLimit
  m.settle work |> fun m ↦ { m with world := { m.world with elapsed := max m.world.elapsed limit } }

/-- The instant up to which the end of a task is waited for. -/
def patience : Instant := 1000000000000000

def passUntilDone (t : TaskId) (m : Machine) : Machine :=
  m.passTo work (m.world.elapsed + patience)
    (fun w ↦ match w.tasks[t]? with
      | some task => task.phase != .pending
      | none => true) stepLimit

end Machine

end TriggerScript
