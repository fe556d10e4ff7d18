import TriggerScript.Work

/-!
# Sessions

A session is a machine that is worked with from outside, step by step. Contexts, tables, queues,
tasks and triggers are known to it by names; contexts, tables and queues are made when they are
first named.
-/

namespace TriggerScript

open Activity
open Notify (QueueId)

namespace Machine

def perform {α : Type} (x : Activity α) (m : Machine) : Except Fault α × Machine :=
  match x m.world with
  | .ended (.ok a) w => (.ok a, { m with world := w })
  | .ended (.error (.raised f)) w => (.error f, { m with world := w })
  | .ended (.error _) w => (.error .outOfFuel, { m with world := w })
  | .waiting _ w _ => (.error .outOfFuel, { m with world := w })

end Machine

inductive Ending where
  | pending
  | cancelled
  | value (v : Value)
  | fault (f : Fault)

namespace World

def endingOf (w : World) (t : TaskId) : Ending :=
  match w.tasks[t]? with
  | none => .cancelled
  | some task =>
    match task.phase, task.outcome with
    | .pending, _ => .pending
    | .cancelled, _ => .cancelled
    | .done, some (.ok v) => .value v
    | .done, some (.error f) => .fault f
    | .done, none => .value .none

end World

structure Session where
  machine : Machine
  contexts : List (String × ContextId) := []
  tables : List (String × TableId) := []
  queues : List (String × QueueId) := []
  tasks : List (String × TaskId) := []
  triggers : List (String × TriggerId) := []

namespace Session

abbrev Act (α : Type) : Type := StateM Session α

def world : Act World := return (← get).machine.world

def perform {α : Type} (x : Activity α) : Act (Except Fault α) :=
  modifyGet fun s ↦
    let (r, m) := s.machine.perform x
    (r, { s with machine := m })

def certainly {α : Type} (fallback : α) (x : Activity α) : Act α := do
  match ← perform x with
  | .ok a => return a
  | .error _ => return fallback

def drive (f : Machine → Machine) : Act Unit := modify fun s ↦ { s with machine := f s.machine }

def settle : Act Unit := drive (·.settle work)

def pass (duration : Nat) : Act Unit := drive fun m ↦ m.passUntil work (m.world.elapsed + duration)

def start (oversight : Oversight) (job : Job) : Act TaskId :=
  certainly 0 (Activity.start oversight job)

def finish (job : Job) : Act Ending := do
  let t ← start .kept job
  drive (·.passUntilDone work t)
  return (← world).endingOf t

def load (d : Datum) : Act Value := certainly .none (op d.load)

/-! ### Things with names -/

def table (name : String) : Act TableId := do
  match (← get).tables.lookup name with
  | some t => return t
  | none =>
    let t ← certainly 0 (modifyGet (·.addTable {}))
    modify fun s ↦ { s with tables := (name, t) :: s.tables }
    return t

def context (name tableName : String) (install : Bool) : Act ContextId := do
  match (← get).contexts.lookup name with
  | some c => return c
  | none =>
    let t ← table tableName
    let make := if install then freshContext name t else newContext name t
    let c ← certainly 0 make
    modify fun s ↦ { s with contexts := (name, c) :: s.contexts }
    return c

def queue (name : String) : Act QueueId := do
  match (← get).queues.lookup name with
  | some q => return q
  | none =>
    let q ← certainly 0 (modifyGet (·.addQueue name))
    modify fun s ↦ { s with queues := (name, q) :: s.queues }
    return q

def nameTask (name : String) (t : TaskId) : Act Unit :=
  modify fun s ↦ { s with tasks := assign s.tasks name t }

def trigger? (name : String) : Act (Option TriggerId) := return (← get).triggers.lookup name

variable (c : ContextId)

def contextAt : Act Context := do
  return (← world).contexts[c]?.getD { name := "", globals := 0, current := 0, locals := 0 }

def globalsOf : Act Table := do
  let ctx ← contextAt c
  return (← world).table ctx.globals

def function? (name : String) : Act (Option (Ref × Function)) := do
  let w ← world
  match (← globalsOf c).get? (some name) with
  | some (.function r) => return (w.store.functionAt? r).map (r, ·)
  | _ => return none

/-! ### Steps -/

def parse (source : Value) (file : String) : Act Bool :=
  certainly false (do readScript c (← sourceOf source) file)

def run (values : Value) : Act Ending := finish (.script c values)

def argumentsOf (v : Value) : Act (List Value) := do
  match v with
  | .list r => return (← world).store.listAt r
  | _ => return []

def call (c : ContextId) (f : Ref) (args named : Value) : Act Ending := do
  finish (.call f c (← argumentsOf args) named)

def runAsTask (name : String) (c : ContextId) (values : Value) : Act Unit := do
  nameTask name (← start .logged (.script c values))

def callAsTask (name : String) (c : ContextId) (f : Ref) (args named : Value) : Act Unit := do
  nameTask name (← start .logged (.call f c (← argumentsOf args) named))

def cancel (name : String) : Act Bool := do
  match (← get).tasks.lookup name with
  | none => return false
  | some t =>
    let pending := (← world).isPending t
    certainly () (modify (·.cancel t))
    return pending

def setVariable (name value attributes : Value) : Act (Except Fault Unit) :=
  perform (do Activity.setVariable (← Activity.nameOf name) value attributes)

def getVariable (name : Value) : Act (Except Fault Value) :=
  perform (do
    let name ← nameOf name
    return (← read (·.variableValue? name)).getD .none)

def variableExists (name : Value) : Act (Except Fault Bool) :=
  perform (do
    let name ← nameOf name
    read (·.variableExists name))

def watchedOf (v : Value) : Activity Notify.Watched := do
  let s ← read (·.store)
  let refuse (v : Value) : Activity Notify.Watched := raise (.noAttribute (v.typeName s) "split")
  match v with
  | .text t => return .single t
  | .list r =>
    let items := s.listAt r
    let name? : Value → Option (Option String)
      | .text t => some (some t)
      | .none => some none
      | _ => none
    match items.find? fun v ↦ (name? v).isNone with
    | some v => refuse v
    | none => return .names (items.filterMap name?)
  | v => refuse v

def watch (names : Value) (q : QueueId) : Act (Except Fault Unit) :=
  perform (do watchStates (← watchedOf names) q)

def unwatch (names : Value) (q : QueueId) : Act (Except Fault Unit) :=
  perform (do unwatchStates (← watchedOf names) q)

def tellStates (values about : Value) : Act (Except Fault Unit) :=
  perform (do
    match values with
    | .dict r =>
      let entries := (← Activity.read (·.store)).dictAt r
      Activity.tellStates (entries.filterMap fun
        | (.text n, v) => some (n, v)
        | _ => none) about
    | v => raise (.noAttribute (v.typeName (← read (·.store))) "items"))

def lastValues (names : Value) : Act (Except Fault Value) :=
  perform (do
    let items ← match names with
      | .none => pure []
      | v => op (Op.elements caller v)
    each items fun v ↦ lift v.checkKey
    let t ← read (·.stateTable)
    let last := t.lastValues (items.map fun
      | .text n => some n
      | _ => none)
    op (Op.newDict (last.map fun (n, v) ↦ (.text n, v))))

def watchEvents (type : Value) (q : QueueId) : Act (Except Fault Unit) :=
  perform (Activity.watchEvents type q)

def unwatchEvents (type : Value) (q : QueueId) : Act (Except Fault Unit) :=
  perform (Activity.unwatchEvents type q)

def tellEvent (type : String) (about : Value) : Act (Except Fault Unit) :=
  perform (Activity.tellEvent type about)

def fire (type : String) (data : Value) : Act (Except Fault Unit) :=
  perform (do
    let s ← Activity.read (·.store)
    Activity.fire ⟨type, match data with
      | .dict r => s.dictAt r
      | _ => []⟩)

def drain (q : QueueId) : Act (List Value) :=
  certainly [] (modifyGet fun w ↦
    (match w.queues[q]? with
      | some queue => queue.messages
      | none => [],
      { w with queues := w.queues.modify q ({ · with messages := [] }) }))

def lookup (name : String) : Act Value := return ((← world).hostFunction? name).getD .none

def register (name : String) (value : Value) : Act Unit :=
  certainly () (modify fun w ↦ { w with functions := assign w.functions name (.registered value) })

def registerForContexts (name : String) (value : Value) : Act Unit :=
  certainly () (modify fun w ↦
    { w with contextFunctions := assign w.contextFunctions name (.answer value) })

def newTrigger (name : String) (cfg : TriggerConfig) : Act (Except Fault Unit) := do
  match ← perform (Activity.newTrigger name cfg) with
  | .error f => return .error f
  | .ok t =>
    modify fun s ↦ { s with triggers := assign s.triggers name t }
    return .ok ()

def triggerAt (name : String) : Act (Option Trigger) := do
  match ← trigger? name with
  | none => return none
  | some t => return (← world).triggers[t]?

def startTrigger (name : String) : Act Unit := do
  match ← trigger? name with
  | none => return ()
  | some t =>
    certainly () (Activity.startTrigger t)
    match (← triggerAt name).bind (·.task) with
    | some task => nameTask ("trig " ++ name) task
    | none => return ()

def stopTrigger (name : String) : Act Ending := do
  match ← trigger? name with
  | none => return .value .none
  | some t => finish (.stop t)

def put (message : Value) (queues : List QueueId) : Act Nat := do
  certainly () (each queues fun q ↦ modify (·.send q message))
  return queues.length

def watchersOf (entity : String) : Act (List QueueId) := do
  return ((← world).stateTable.watchersOf entity).map (·.1)

/-- Takes what was logged and noted since the last time. -/
def report : Act (List LogLine × Notes) := do
  let w ← world
  drive fun m ↦
    { m with world := { m.world with log := #[], host := { m.world.host with notes := {} } } }
  return (w.log.toList, w.host.notes)

end Session

end TriggerScript
