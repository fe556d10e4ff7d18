import TriggerScript.Proofs.Folder.Course

/-!
# The services of a folder

A service of a function is performed by a call of that very function, with its own globals
(`Interp.serve_function`). Under each name but that of the reload there is the last function that
the last whole compilation offers under it (`services_of_last_compilation`). A reload that does not
get as far as compiling leaves the services of an earlier version (`services_of_earlier_version`).

The name `reload` is reserved as it is written, but services go by names without regard to case. So
a function `Reload` takes the service that compiles with it (`reload_bound_iff`,
`reload_taken_over`).
-/

namespace TriggerScript

open Activity Published Interp
open Passage (remembered touched)

/-! ### Performing the service of a function -/

theorem Interp.serve_function (I : Interp) (data : Entries) (f : Published) (w : World) :
    ∃ c named w', I.serve data f.service w = .ended (.ok ()) w' ∧
      w'.started = w.started ++ [(w.tasks.size, .call f.ref c [] (.dict named))] ∧
      (w'.context c).globals = f.globals ∧ w'.store.dictAt named = data := by
  obtain ⟨c, w₁, hfresh, htasks, hstarted, -⟩ := succeeds_freshContext f.name f.globals w
  obtain ⟨rfl, -, hcontexts, -⟩ := freshContext_ended hfresh
  refine ⟨w.contexts.size, w₁.store.objects.size, _, bind_of_ended hfresh, ?_, ?_, ?_⟩
  · show w₁.started ++ [(w₁.tasks.size, _)] = _
    rw [hstarted, htasks]
  · show ((w₁.contexts[w.contexts.size]?).getD _).globals = _
    rw [hcontexts, Array.getElem?_push_size]
    rfl
  · simp [World.startTask, Store.dictAt, Store.get?, Store.push]

/-! ### The services of the last compilation -/

/-- **The services after any course of a folder** in which no compilation ended with an error. Under
each name but that of the reload there is the last function that the last whole compilation offered
under it, in whatever case, and this function performs the service. Each further reload compiles the
folder as it is then, unless a trigger could not be stopped. All other jobs, and changes of the
files, leave the course as long as it is. -/
theorem services_of_last_compilation {w₀ w : World} {first : List Published} {ps : List Passage}
    (h : full.Course w₀ first ps w)
    (hfresh : ∀ name, w₀.host.service? serviceDomain name = none)
    (hwhole : ∀ roll, .broken roll ∉ ps) :
    (∀ name, Host.serviceKey serviceDomain name ≠ Host.serviceKey serviceDomain reloadName →
      w.host.service? serviceDomain name =
        ((remembered first ps).findRev? (·.answers name)).map Published.service) ∧
    (∀ (data : Entries) (f : Published) (u : World), ∃ c named u',
      full.serve data f.service u = .ended (.ok ()) u' ∧
        u'.started = u.started ++ [(u.tasks.size, .call f.ref c [] (.dict named))] ∧
        (u'.context c).globals = f.globals ∧ u'.store.dictAt named = data) ∧
    (∀ r w', (full.reload w).Finishes others r w' →
      ∃ p, full.Passes w p r w' ∧ full.Course w₀ first (p :: ps) w') ∧
    (∀ job v w', job ≠ .setup → (∀ data, job ≠ .serve .reload data) →
      (full.perform job w).Finishes others v w' → full.Course w₀ first ps w') ∧
    (∀ files, full.Course w₀ first ps (w.edit files)) ∧
    ∀ u, (full.setup w₀).Finishes others (.ok true) u → ∃ roll, full.Course w₀ roll [] u :=
  ⟨fun _ hname ↦ h.service?_eq aside_full hfresh hwhole hname, full.serve_function,
    fun _ _ ↦ h.of_finishes, fun _ _ _ hsetup hreload ↦ h.of_perform aside_full hsetup hreload,
    fun files ↦ .meanwhile h (w.aside_edit files), fun _ ↦ Interp.Course.of_finishes_setup⟩

namespace Edited

def files : List (String × String) := [("a.py", "@service\ndef one():\n    pass\n")]

def files' : List (String × String) :=
  [("a.py", "@service\ndef two():\n    pass\n"),
    ("b.py", "@service\ndef reload():\n    pass\n@service\ndef Two():\n    pass\n")]

def start : World := .withFiles files

def ready : World := (full.setup start).world

def edited : World := ready.edit files'

def reloaded : World := (full.reload edited).world

def first : List Published := full.rollOf start.folder.files {} start

def second : List Published := full.reloadRoll edited

theorem evaluated :
    ((full.setup start).result? = some true ∧ (full.reload edited).result? =
      some ()) ∧ (first.map (·.name) = ["one"] ∧ second.map (·.name) = ["two", "reload", "Two"]) ∧
      (second.findRev? (·.answers "one") = none ∧
        (second.findRev? (·.answers "two")).map (·.service) = second.getLast?.map (·.service)) ∧
      ∀ f ∈ touched first [.compiled second], f.offered →
        Host.serviceKey serviceDomain f.name ≠ Host.serviceKey serviceDomain reloadName := by
  decide +kernel

theorem course : full.Course start first [.compiled second] reloaded := by
  have hsetup : full.setup start = .ended (.ok true) ready := Step.eq_ended_of_result? evaluated.1.1
  have hreload : full.reload edited = .ended (.ok ()) reloaded :=
    Step.eq_ended_of_result? evaluated.1.2
  have hset : full.Course start first [] ready := .setUp (.of_ended hsetup)
  have hedit : full.Course start first [] edited := .meanwhile hset (ready.aside_edit files')
  exact .reloaded hedit (.of_ended hreload)

end Edited

open Edited in
/-- Of two functions whose names differ in case only the second one has the service. -/
theorem services_of_last_compilation_edited :
    full.Course start first [.compiled second] reloaded ∧
      first.map (·.name) = ["one"] ∧ second.map (·.name) = ["two", "reload", "Two"] ∧
      reloaded.host.service? serviceDomain "one" = none ∧
      reloaded.host.service? serviceDomain "two" = second.getLast?.map (·.service) := by
  obtain ⟨-, ⟨hfirst, hsecond⟩, ⟨hone, htwo⟩, -⟩ := evaluated
  obtain ⟨hservice, -⟩ := services_of_last_compilation course (fun _ ↦ rfl) (by simp)
  refine ⟨course, hfirst, hsecond, ?_, ?_⟩
  · rw [hservice "one" (by decide), remembered, hone]
    rfl
  · rw [hservice "two" (by decide), remembered, htwo]

namespace Ringing

def files : List (String × String) :=
  [("a.py", "@event_trigger('ring')\ndef f(**kw):\n    pass\n@service\ndef one():\n    pass\n")]

def files' : List (String × String) := [("a.py", "@service\ndef two():\n    pass\n")]

def started : Machine :=
  (Machine.doing ⟨.withFiles files, []⟩ .setup 2).doing
    (.deliver .startTriggers ⟨"homeassistant_started", []⟩) 5

def reloaded : Machine := started.doing (.serve .reload []) 9

def reloadedAgain : Machine :=
  { reloaded with world := reloaded.world.edit files' }.doing (.serve .reload []) 9

end Ringing

open Ringing in
/-- The first reload renews the trigger, which the second cannot take off its event any more.
Nothing is compiled, and the service is there that no file has. -/
theorem services_of_earlier_version :
    reloaded.step? work = none ∧ reloaded.world.host.notes.failures = [] ∧
      reloadedAgain.step? work = none ∧ reloadedAgain.world.host.notes.failures =
        [.missingKey "'ring'"] ∧
      reloadedAgain.world.folder.files = files' ∧
      reloadedAgain.world.host.services.map (·.1) = ["pyscript.reload", "pyscript.one"] := by
  decide +kernel

/-! ### The service that compiles -/

/-- **The service that compiles** is bound exactly as long as no function was removed or registered
whose name differs from its own in case only. -/
theorem reload_bound_iff {w₀ w : World} {first : List Published} {ps : List Passage}
    (h : full.Course w₀ first ps w) :
    (w.host.service? serviceDomain reloadName = some .reload ↔
      ∀ f ∈ touched first ps, f.offered →
        Host.serviceKey serviceDomain f.name ≠ Host.serviceKey serviceDomain reloadName) ∧
    (∀ r w', (full.reload w).Finishes others r w' →
      ∃ p, full.Passes w p r w' ∧ full.Course w₀ first (p :: ps) w') ∧
    (∀ job v w', job ≠ .setup → (∀ data, job ≠ .serve .reload data) →
      (full.perform job w).Finishes others v w' → full.Course w₀ first ps w') ∧
    (∀ files, full.Course w₀ first ps (w.edit files)) ∧
    ∀ u, (full.setup w₀).Finishes others (.ok true) u → ∃ roll, full.Course w₀ roll [] u := by
  refine ⟨(h.reload_iff aside_full).trans ?_, fun _ _ ↦ h.of_finishes,
    fun _ _ _ hsetup hreload ↦ h.of_perform aside_full hsetup hreload,
    fun files ↦ .meanwhile h (w.aside_edit files), fun _ ↦ Interp.Course.of_finishes_setup⟩
  simp only [answers, Bool.and_eq_false_imp, beq_eq_false_iff_ne]

open Edited in
/-- A function that has the reserved name itself is refused. -/
theorem reload_bound_iff_edited :
    full.Course start first [.compiled second] reloaded ∧
      second.map (·.name) = ["two", "reload", "Two"] ∧
      reloaded.host.service? serviceDomain reloadName = some .reload := by
  obtain ⟨-, ⟨-, hsecond⟩, -, hothers⟩ := evaluated
  exact ⟨course, hsecond, (reload_bound_iff course).1.2 hothers⟩

namespace Shadowing

def start : World := .withFiles [("a.py", "@service\ndef Reload():\n    pass\n")]

def ready : World := (full.setup start).world

def reloaded : World := (full.reload ready).world

end Shadowing

open Shadowing in
/-- The first reload removes the service that compiles, and registers the function in its place. -/
theorem reload_taken_over :
    (full.setup start).result? = some true ∧
      ready.host.service? serviceDomain reloadName = some .reload ∧
      (full.reload ready).result? = some () ∧
      (full.reloadRoll ready).map (·.name) = ["Reload"] ∧
      reloaded.host.service? serviceDomain reloadName =
        ((full.reloadRoll ready).head?).map Published.service := by
  decide +kernel

end TriggerScript
