import TriggerScript.Notify.Event
import TriggerScript.Schedule.DateTime
import TriggerScript.Task.Basic

/-!
# The world

Everything that scripts, triggers and the host share. A world is plain data: what a waiting task
will do next is not in it, only what it is.
-/

namespace TriggerScript

structure LogLine where
  logger : String
  level : Level
  text : String
  deriving Repr, DecidableEq

/-- A function that exists once for each context. -/
inductive ContextFunction where
  | log (level : Level)
  | waitUntil
  /-- Gives the name of the context and a value. -/
  | answer (value : Value)

structure Folder where
  exists_ : Bool := true
  files : List (String × String) := []
  triggers : List (String × TriggerId) := []
  services : List String := []

def hostFunctions : List (String × Value) :=
  [("event.fire", .host .fire), ("task.sleep", .host .sleep), ("task.unique", .host .unique),
    ("service.call", .host .callService), ("service.has_service", .host .hasService),
    ("state.get", .host .getState), ("state.set", .host .setState)]

def contextFunctions : List (String × ContextFunction) :=
  [("log.debug", .log .debug), ("log.error", .log .error), ("log.info", .log .info),
    ("log.warning", .log .warning), ("task.wait_until", .waitUntil)]

structure World where
  store : Store := {}
  tables : Array Table := #[]
  contexts : Array Context := #[]
  shape : Syntax.Shape := {}
  host : Host := {}
  stateTable : Notify.StateTable := {}
  eventTable : Notify.EventTable := {}
  queues : Array Queue := #[]
  tasks : Array Task := #[]
  /-- Tasks that were started and not yet taken up, the oldest first. -/
  started : List (TaskId × Job) := []
  running : TaskId := 0
  /-- Tasks under the names they claimed. -/
  claims : List (Value × TaskId) := []
  functions : List (String × Value) := hostFunctions
  contextFunctions : List (String × ContextFunction) := TriggerScript.contextFunctions
  loggers : List String := []
  triggers : Array Trigger := #[]
  folder : Folder := {}
  start : Calendar.Moment
  sun : Schedule.Sun := {}
  elapsed : Instant := 0
  log : Array LogLine := #[]

namespace World

variable (w : World)

def table (t : TableId) : Table := w.tables[t]?.getD {}

def updateTable (t : TableId) (f : Table → Table) : World :=
  { w with tables := w.tables.modify t f }

def addTable (t : Table) : TableId × World := (w.tables.size, { w with tables := w.tables.push t })

def context (c : ContextId) : Context :=
  w.contexts[c]?.getD { name := "", globals := 0, current := 0, locals := 0 }

def updateContext (c : ContextId) (f : Context → Context) : World :=
  { w with contexts := w.contexts.modify c f }

def addContext (name : String) (globals : TableId) : ContextId × World :=
  let (locals, w) := w.addTable {}
  (w.contexts.size,
    { w with contexts := w.contexts.push { name, globals, current := globals, locals } })

def addFunction (f : Function) : Ref × World :=
  (w.store.functions.size,
    { w with store := { w.store with functions := w.store.functions.push f } })

def updateFunction (r : Ref) (f : Function → Function) : World :=
  { w with store := { w.store with functions := w.store.functions.modify r f } }

def now : Calendar.Moment := (w.start.add? w.elapsed).getD w.start

def seconds : Float := Number.ofRatio false w.elapsed Calendar.second

def say (logger : String) (level : Level) (text : String) : World :=
  { w with log := w.log.push ⟨logger, level, text⟩ }

def addQueue (name : String) : Notify.QueueId × World :=
  (w.queues.size, { w with queues := w.queues.push { name } })

def send (q : Notify.QueueId) (message : Value) : World :=
  { w with queues := w.queues.modify q fun queue ↦
      { queue with messages := queue.messages ++ [message] } }

def startTask (oversight : Oversight) (job : Job) : TaskId × World :=
  (w.tasks.size,
    { w with
      tasks := w.tasks.push { job, oversight }
      started := w.started ++ [(w.tasks.size, job)] })

def updateTask (t : TaskId) (f : Task → Task) : World := { w with tasks := w.tasks.modify t f }

end World

end TriggerScript
