import TriggerScript.Evaluation.Statement
import TriggerScript.Folder.Setup
import TriggerScript.Notify.Delivery
import TriggerScript.Task.Scheduler
import TriggerScript.Trigger.Watch

/-!
# The work of tasks

What is done for each kind of job.
-/

namespace TriggerScript

namespace Interp

open Activity

def handle (e : Event) : Listener → Activity Unit
  | .notify => onEventFired e
  | .stateChanged => onStateChanged e
  | .startTriggers => do
    listen "state_changed" .stateChanged
    startTriggers
  | .stopTriggers => stopTriggers

def serve (I : Interp) (data : Entries) : Service → Activity Unit
  | .nothing => return ()
  | .reload => I.reload
  | .function name f globals => do
    let c ← freshContext name globals
    let named ← op (Op.newDict data)
    let _ ← start .logged (.call f c [] named)

def callWith (I : Interp) (f : Ref) (c : ContextId) (args : List Value) (named : Value) :
    Activity Value := do
  let s ← read (·.store)
  if named.truth s then
    match named with
    | .dict r => I.callFunction c f args (s.dictAt r)
    | .list r => I.callOpening c f fun g ↦ openingTableBeside g args (s.listAt r)
    | v => raise (.noAttribute (v.typeName s) "copy")
  else I.callFunction c f args []

def perform (I : Interp) : Work
  | .script c values => I.run c values
  | .call f c args named => I.callWith f c args named
  | .watch t => do
    I.watch t
    return .none
  | .stop t => do
    stopTrigger t
    return .none
  | .deliver l e => do
    handle e l
    return .none
  | .serve s data => do
    I.serve data s
    return .none
  | .setup => return .bool (← I.setup)

end Interp

def work : Work := Interp.full.perform

end TriggerScript
