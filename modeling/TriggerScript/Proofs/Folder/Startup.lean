import TriggerScript.Proofs.Folder.Starting
import TriggerScript.Proofs.Trigger.Messages

/-!
# Functions that run at the start

A function whose triggers all come without arguments has nothing to wait for: its task looks at the
conditions once, starts the function if they hold, and ends (`Interp.finishes_watch_iff`). Any other
task waits for a message or a time (`Chronicled.calls_eq_nil`).

What decides is `Published.waits`, which is about the arguments of state, time and event triggers
**taken together**. So a time trigger without arguments does not run the function if another trigger
has some, and conditions alone do run it (`event_hides_start`).
-/

namespace TriggerScript

open Activity Published Interp
open Notify (QueueId messagesOf)
open Passage (remembered)

/-! ### A task with nothing to wait for -/

variable {E : Environment} {t : Trigger} {i : TriggerId} {w w' : World}

def World.beginning (w : World) (job : Job) : Except Stop Bool → World
  | .ok true => (w.startTask .logged job).2
  | _ => w

namespace Published.Fits

variable {f : Published} {t : Trigger} (h : f.Fits t) (hidle : f.waits = false)

include h hidle

theorem idle : t.timeTrigger = .none ∧ t.eventTrigger = .none ∧ t.stateExpr = none ∧
    t.watched = none := by
  simp only [waits, List.any_cons, List.any_nil, Bool.or_false, Bool.or_eq_false_iff,
    Bool.not_eq_false'] at hidle
  obtain ⟨hstate, htime, hevent⟩ := hidle
  have hnone {v : Value} (hv : v.isNone = true) : v = .none := by
    cases v with
    | none => rfl
    | _ => cases hv
  have hexpr : t.stateExpr = none := Option.isNone_iff_eq_none.1 (h.stateExpr.trans hstate)
  exact ⟨hnone (h.timeTrigger.trans htime), hnone (h.eventTrigger.trans hevent), hexpr,
    h.watched hexpr⟩

end Published.Fits

namespace Occurrence

def called? : Occurrence → Option Job
  | called job _ => some job
  | _ => none

end Occurrence

def calls (H : List Occurrence) : List Job := H.filterMap (·.called?)

namespace TwoAtStart

def start : World :=
  .withFiles [("a.py", "@time_trigger\n@event_trigger('ring')\ndef f(**kw):\n    pass\n" ++
    "@state_active('True')\ndef g():\n    pass\n")]

-- irreducible, for otherwise applying a fact about it leads to running the whole program
@[irreducible]
def ready : World := (full.setup start).world

def roll : List Published := full.rollOf start.folder.files {} start

def started : Machine := Machine.doing ⟨ready, []⟩ (.deliver .startTriggers hasStarted) 9

def runs (m : Machine) (f : Published) : Nat :=
  m.world.tasks.toList.countP fun task ↦ match task.job with
    | .call r _ _ _ => r == f.ref
    | _ => false

theorem evaluated :
    (full.setup start).result? = some true ∧
      (triggerOf? roll "f").map (fun f ↦ (f.name, f.waits)) = some ("f", true) ∧
      (triggerOf? roll "g").map (fun g ↦ (g.name, g.waits)) = some ("g", false) ∧
      (∀ t ∈ ready.triggers.toList, (ready.queues[t.queue]?).map (·.messages.isEmpty) = some true) ∧
      started.step? work = none ∧
      roll.map (fun f ↦ f.accepts .timeTrigger && (f.arguments .timeTrigger).isEmpty) =
        [true, false] ∧
      roll.map (runs started) = [0, 1] := by
  decide +kernel

theorem course : full.Course start roll [] ready := by
  have hsetup : full.setup start = .ended (.ok true) (full.setup start).world :=
    Step.eq_ended_of_result? evaluated.1
  unfold ready
  exact .setUp (.of_ended hsetup)

end TwoAtStart

end TriggerScript
