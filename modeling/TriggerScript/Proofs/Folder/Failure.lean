import TriggerScript.Proofs.Folder.Starting
import TriggerScript.Proofs.Trigger.Once

/-!
# When compiling fails

A reload stops the triggers of the folder and removes its services, and only then compiles. Nothing
is put back when compiling ends with an error: one bad file is enough for the functions of all
others (`services_and_triggers_lost`). What is left is known exactly (`after_failed_compilation`),
if others leave services and triggers alone meanwhile (`undisturbing`).
-/

namespace TriggerScript

open Activity Published Interp
open World (Stopping)

/-- Others leave the folder and the task `r` alone. -/
def undisturbing (r : TaskId) : Environment := fun request w _ w' ↦ w.Aside w' ∧
    Rely.alone r request w w'

theorem others_of_undisturbing {α : Type} {s : Step α} {r : TaskId} {x : Except Stop α} {w' : World}
    (h : s.Finishes (undisturbing r) x w') : s.Finishes others x w' :=
  h.mono fun _ _ _ _ henv ↦ henv.1

namespace Interp

variable {I : Interp} {w w₁ w' : World} {r : TaskId}

theorem stopping_of_compile (hI : discreet.Obeyed I) (hw : Stopping r w [] w)
    (hr : ∀ t, ¬ w.Watches t r) (hstop : (stopTriggers w).Finishes (undisturbing r) (.ok ()) w₁)
    {x : Except Stop Compiled}
    (hcompile : (I.compile w₁.removed).Finishes (undisturbing r) x w') :
    ∃ done, w.compiled ⊆ done ∧ Stopping r w done w' := by
  have hstopped : (stopTriggers w).Under (.alone r) (fun _ _ ↦ True)
      (fun _ w' ↦ ∃ done, w.compiled ⊆ done ∧ Stopping r w done w') w :=
    (under_stopTriggers hr hw).mono (fun _ _ _ h ↦ h) (fun _ _ _ ↦ trivial) fun _ _ h ↦ h
  obtain ⟨done, hall, h₁⟩ :=
    (hstopped.of_finishes (fun _ _ _ _ _ ↦ trivial) (fun _ _ _ _ h ↦ ⟨h.2, trivial⟩) hstop).2 () rfl
  have hremoved : Stopping r w done w₁.removed := h₁.discreet (.of_eq rfl rfl rfl rfl rfl)
  have hkept : (I.compile w₁.removed).Under (.alone r)
      (fun u u' ↦ Stopping r w done u → Stopping r w done u') (fun _ _ ↦ True) w₁.removed :=
    (under_compile hI _).mono (fun _ _ _ h ↦ h.1.triggers) (fun _ _ h hu ↦ hu.discreet h)
      fun _ _ _ ↦ trivial
  have h' := (hkept.of_finishes (fun _ _ _ h h' hu ↦ h' (h hu))
    (fun _ _ _ _ h ↦ ⟨h.2, fun hu ↦ hu.alone h.2⟩) hcompile).1 hremoved
  exact ⟨done, hall, h'⟩

end Interp

/-- **A reload whose compilation fails** fails with it. Of the services there are those of the
functions that were compiled before the error, of several under one name the last. What the folder
had offered otherwise is gone, and all else is as it was. Each trigger of the folder is stopped: it
refers to no task, and the task that it referred to does not watch. No task has begun to watch. What
the folder remembers is as before, and its course goes on. -/
theorem after_failed_compilation {w w₁ w' : World} {e : Stop} (hlists : w.Lists w.folder.triggers)
    (hknown : (w.tasks[w.running]?).isSome) (hrunning : ∀ t, ¬ w.Watches t w.running)
    (hstop : (stopTriggers w).Finishes (undisturbing w.running) (.ok ()) w₁)
    (hcompile : (full.compile w₁.removed).Finishes (undisturbing w.running) (.error e) w') :
    (full.reload w).Finishes (undisturbing w.running) (.error e) w' ∧
    (∃ roll, full.Compiles w₁.folder.files {} w₁.removed roll (.error e) w' ∧
      (∀ name, w'.host.service? serviceDomain name =
        ((roll.findRev? (·.answers name)).map Published.service).or
          (if w.folder.services.any fun s ↦
            Host.serviceKey serviceDomain s == Host.serviceKey serviceDomain name
          then none else w.host.service? serviceDomain name)) ∧
      ∀ w₀ first ps, full.Course w₀ first ps w → full.Course w₀ first (.broken roll :: ps) w') ∧
    (∀ t ∈ w.compiled, w'.taskOf? t = none) ∧
    (∀ t i, w'.Watches t i → w.Watches t i ∧ ∀ u ∈ w.compiled, w.taskOf? u ≠ some i) ∧
    (w.Tidy → w'.Unwatched) ∧
    w'.folder.triggers = w.folder.triggers ∧ w'.folder.services = w.folder.services := by
  obtain ⟨done, hall, hstopping⟩ :=
    stopping_of_compile discreet_full (.nothing rfl hknown) hrunning hstop hcompile
  have hstop' := others_of_undisturbing hstop
  obtain ⟨roll, hroll⟩ := Interp.Compiles.finishes_iff.1 (others_of_undisturbing hcompile)
  have hreload : (full.reload w).Finishes (undisturbing w.running) (.error e) w' :=
    Step.Finishes.bind hstop (Step.Finishes.failed (s := full.compile _) hcompile)
  refine ⟨hreload,
    ⟨roll, hroll, service?_of_compiles aside_full hstop' hroll, ?_⟩, ?_, ?_, ?_,
    hstopping.table, ?_⟩
  · exact fun _ _ _ h ↦ .reloaded h (.broken hstop' hroll)
  · exact fun t ht ↦ (hstopping.stopped t (hlists.exist t ht) (hall ht)).1
  · exact fun t i hw ↦ ⟨hstopping.watches t i hw,
      fun u hu ↦ hstopping.not_linked hw (hlists.exist u hu) (hall hu)⟩
  · exact fun htidy ↦ hstopping.unwatched hlists htidy hall
  · rw [(hroll.registers aside_full).1.services]
    exact (aside_stopTriggers.aside hstop').services

def Step.request? {α : Type} : Step α → Option Request
  | .ended _ _ => none
  | .waiting request _ _ => some request

def Step.resumed {α : Type} : Step α → Reply → World → Step α
  | .ended r w, _, _ => .ended r w
  | .waiting _ _ resume, reply, w => resume reply w

def Step.fault? {α : Type} : Step α → Option Fault
  | .ended (.error (.raised f)) _ => some f
  | _ => none

theorem Step.Finishes.of_request {α : Type} {E : Environment} {s : Step α} {request : Request}
    {reply : Reply} {w₁ w' : World} {r : Except Stop α} (hrequest : s.request? = some request)
    (hE : E request s.world reply w₁) (h : (s.resumed reply w₁).Finishes E r w') :
    s.Finishes E r w' := by
  cases s with
  | ended r w => cases hrequest
  | waiting request w resume =>
    cases hrequest
    exact .resumed reply hE h

theorem Step.finishes_of_fault? {α : Type} {E : Environment} {s : Step α} {f : Fault}
    (h : s.fault? = some f) : s.Finishes E (.error (.raised f)) s.world := by
  unfold fault? at h
  split at h
  · cases h
    exact .ended _ _
  · cases h

theorem undisturbing_endTask {w : World} {r t : TaskId} (hrunning : w.running = r) (ht : t ≠ r)
    (hsize : t < w.tasks.size) (reply : Reply) :
    undisturbing r (.join t) w reply (w.endTask t (.error .cancelled)) := by
  refine ⟨.of_eq rfl rfl rfl, World.undisturbed_endTask ht w _, hrunning, ?_⟩
  rintro _ ⟨⟩ -
  refine ⟨{ w.tasks[t] with phase := .cancelled, outcome := none, stopping := false }, ?_, nofun⟩
  show (World.tasks (w.updateTask t _))[t]? = _
  rw [World.getElem?_updateTask, if_pos rfl, Array.getElem?_eq_getElem hsize]
  rfl

namespace Misread

def files : List (String × String) :=
  [("b.py", "@event_trigger('ring')\ndef f(**kw):\n    pass\n@service\ndef one():\n    pass\n")]

def files' : List (String × String) :=
  ("a.py",
    "@service\ndef two():\n    pass\n@service\ndef three():\n    \"\"\"yaml\na: [\n\"\"\"\n") ::
      files

def started : Machine :=
  (Machine.doing ⟨.withFiles files, []⟩ .setup 2).doing (.deliver .startTriggers hasStarted) 5

def edited : World := started.world.edit files'

def reloaded : Machine := { started with world := edited }.doing (.serve .reload []) 9

def handling : World := { (edited.startTask .noted (.serve .reload [])).2 with running := 3 }

def freed : World := (stopTriggers handling).world.endTask 2 (.error .cancelled)

def stopped : World := ((stopTriggers handling).resumed .go freed).world

theorem evaluated :
    (stopTriggers handling).request? = some (.join 2) ∧
      ((stopTriggers handling).resumed .go freed).result? = some () ∧
      (full.compile stopped.removed).fault? = some (.stated .homeAssistant "") ∧
      (stopTriggers handling).world.running = 3 ∧
      (stopTriggers handling).world.tasks.size = 4 ∧
      handling.tasks.toList.map (·.watched?) = [none, none, some 0, none] ∧
      handling.folder.triggers.map (·.2) = [0] ∧ handling.triggers.size = 1 ∧
      handling.taskOf? 0 = some 2 ∧ handling.folder.services = ["one"] ∧
      (handling.tasks[3]?).isSome := by
  decide +kernel

theorem not_watches (t : TriggerId) : ¬ handling.Watches t 3 := by
  rintro ⟨task, htask, hjob, hphase⟩
  have hwatched : (handling.tasks.toList.map (·.watched?))[3]? = some task.watched? := by
    rw [List.getElem?_map, Array.getElem?_toList, htask]
    rfl
  rw [evaluated.2.2.2.2.2.1, Task.watched?_eq_some.2 ⟨hjob, hphase⟩] at hwatched
  cases hwatched

end Misread

open Misread in
theorem after_failed_compilation_misread :
    handling.taskOf? 0 = some 2 ∧ handling.folder.services = ["one"] ∧
      ∃ w', (full.reload handling).Finishes (undisturbing 3)
          (.error (.raised (.stated .homeAssistant ""))) w' ∧
        w'.taskOf? 0 = none ∧ w'.folder.services = ["one"] ∧
        ∃ roll, full.Compiles stopped.folder.files {} stopped.removed roll
            (.error (.raised (.stated .homeAssistant ""))) w' ∧
          w'.host.service? serviceDomain "one" =
            (roll.findRev? (·.answers "one")).map Published.service := by
  obtain ⟨hrequest, hresult, hfault, hasked, hsize, -, htable, htriggers, htask, hservices,
    hknown⟩ := evaluated
  have hlists : handling.Lists handling.folder.triggers :=
    ⟨by rw [htable]; decide, by rw [htable, htriggers]; decide⟩
  have hfreed : undisturbing 3 (.join 2) (stopTriggers handling).world .go freed :=
    undisturbing_endTask hasked (by decide) (by rw [hsize]; decide) .go
  have hresumed : ((stopTriggers handling).resumed .go freed).Finishes (undisturbing 3) (.ok ())
      stopped := by
    rw [Step.eq_ended_of_result? hresult]
    exact .ended _ _
  have hstop : (stopTriggers handling).Finishes (undisturbing 3) (.ok ()) stopped :=
    .of_request hrequest hfreed hresumed
  obtain ⟨hreload, ⟨roll, hroll, hservice, -⟩, htasks, -, -, -, hkept⟩ :=
    after_failed_compilation hlists hknown not_watches hstop (Step.finishes_of_fault? hfault)
  refine ⟨htask, hservices, _, hreload, htasks 0 ?_, hkept.trans hservices, roll, hroll, ?_⟩
  · rw [World.compiled, htable]
    decide
  · rw [hservice, hservices]
    exact Option.or_none

open Misread in
/-- A file with an error comes before the other one, whose service and trigger are lost. -/
theorem services_and_triggers_lost :
    started.step? work = none ∧
      started.world.host.services.map (·.1) = ["pyscript.one", "pyscript.reload"] ∧
      started.world.watchedFunctions.length = 1 ∧
      reloaded.step? work = none ∧
      reloaded.world.host.notes.failures = [.stated .homeAssistant ""] ∧
      reloaded.world.host.services.map (·.1) = ["pyscript.reload", "pyscript.two"] ∧
      reloaded.world.watchedFunctions = [] := by
  decide +kernel

end TriggerScript
