import TriggerScript.Proofs.Folder.Compiling
import TriggerScript.Proofs.Trigger.Memory

/-!
# The course of a folder

A folder is set up once and then compiled anew any number of times, while others go about their work
and files change. What is registered is a function of the rolls: the folder remembers the last
compilation that came to its end (`Passage.remembered`, `World.Holds`), and the service that
compiles is registered by the setup only. It is lost where a function is registered or removed under
a name that differs from its own in case only.
-/

namespace TriggerScript

open Activity Published

/-- How a reload went: a trigger could not be stopped and nothing was compiled, or compiling failed,
or it came to its end. -/
inductive Passage where
  | stuck
  | broken (roll : List Published)
  | compiled (roll : List Published)

namespace Passage

/-- What was compiled last. -/
def remembered (first : List Published) : List Passage → List Published
  | [] => first
  | .compiled roll :: _ => roll
  | _ :: earlier => remembered first earlier

/-- All that reloads have replaced or compiled. -/
def touched (first : List Published) : List Passage → List Published
  | [] => []
  | .stuck :: earlier => touched first earlier
  | .broken roll :: earlier => touched first earlier ++ remembered first earlier ++ roll
  | .compiled roll :: earlier => touched first earlier ++ remembered first earlier ++ roll

end Passage

open Passage (remembered touched)

namespace World

/-- The world after the services were taken back. -/
def removed (w : World) : World :=
  { w with host := w.folder.services.foldl (fun h s ↦ h.unregister serviceDomain s) w.host }

def keeping (w : World) (c : Compiled) : World :=
  { w with folder := { w.folder with triggers := c.triggers, services := c.services } }

def ready (w : World) (c : Compiled) : World :=
  let h := w.host.register serviceDomain reloadName .reload
  { w.keeping c with
    host := ((h.listen "homeassistant_started" .startTriggers).2.listen "homeassistant_stop"
      .stopTriggers).2 }

def Remembers (w : World) (roll : List Published) : Prop :=
  w.Holds roll { triggers := w.folder.triggers, services := w.folder.services }

end World

namespace Interp

variable {I : Interp} {w w' : World} {r : Except Stop Unit}

def SetsUp (I : Interp) (w : World) (roll : List Published) (w' : World) : Prop :=
  w.folder.exists_ = true ∧ ∃ c w₁, I.Compiles w.folder.files {} w roll (.ok c) w₁ ∧ w' = w₁.ready c

/-- A reload from one world to another, with its passage and result. -/
inductive Passes (I : Interp) : World → Passage → Except Stop Unit → World → Prop
  | stuck {w w' : World} {e : Stop} (hstop : (stopTriggers w).Finishes others (.error e) w') :
      Passes I w .stuck (.error e) w'
  | broken {w w₁ w' : World} {roll : List Published} {e : Stop}
      (hstop : (stopTriggers w).Finishes others (.ok ()) w₁)
      (hcompile : I.Compiles w₁.folder.files {} w₁.removed roll (.error e) w') :
      Passes I w (.broken roll) (.error e) w'
  | compiled {w w₁ w₂ : World} {roll : List Published} {c : Compiled}
      (hstop : (stopTriggers w).Finishes others (.ok ()) w₁)
      (hcompile : I.Compiles w₁.folder.files {} w₁.removed roll (.ok c) w₂) :
      Passes I w (.compiled roll) (.ok ()) ((w₂.keeping c).startAll (c.triggers.map (·.2)))

theorem finishes_setup_iff :
    (I.setup w).Finishes others (.ok true) w' ↔ ∃ roll, I.SetsUp w roll w' := by
  have hsetup : I.setup w = (if w.folder.exists_ then _ else _ : Activity Bool) w := rfl
  rw [hsetup]
  constructor
  · intro h
    split at h
    · rename_i hexists
      obtain ⟨c, w₁, hcompile, h⟩ := h.of_bind_ok (s := I.compile w)
      obtain ⟨roll, hroll⟩ := Compiles.finishes_iff.1 hcompile
      cases h
      exact ⟨roll, hexists, c, w₁, hroll, rfl⟩
    · cases h
  · rintro ⟨roll, hexists, c, w₁, hroll, rfl⟩
    rw [if_pos hexists]
    exact Step.Finishes.bind (s := I.compile w) (Compiles.finishes_iff.2 ⟨roll, hroll⟩) (.ended _ _)

theorem keepCompiled_start (c : Compiled) (w : World) :
    (do keepCompiled c; each c.triggers fun t ↦ startTrigger t.2 : Activity Unit) w =
      .ended (.ok ()) ((w.keeping c).startAll (c.triggers.map (·.2))) :=
  each_startTrigger c.triggers (w.keeping c)

theorem finishes_reload_iff : (I.reload w).Finishes others r w' ↔ ∃ p, I.Passes w p r w' := by
  constructor
  · intro h
    rcases h.of_bind (s := stopTriggers w) with ⟨_, w₁, hstop, h⟩ | ⟨e, hstop, rfl⟩
    · rcases h.of_bind (s := I.compile w₁.removed) with
        ⟨c, w₂, hcompile, h⟩ | ⟨e, hcompile, rfl⟩
      · obtain ⟨roll, hroll⟩ := Compiles.finishes_iff.1 hcompile
        rw [keepCompiled_start] at h
        cases h
        exact ⟨_, .compiled hstop hroll⟩
      · obtain ⟨roll, hroll⟩ := Compiles.finishes_iff.1 hcompile
        exact ⟨_, .broken hstop hroll⟩
    · exact ⟨_, .stuck hstop⟩
  · rintro ⟨p, hp⟩
    cases hp with
    | stuck hstop => exact hstop.failed
    | broken hstop hcompile =>
      exact hstop.bind (Step.Finishes.failed (s := I.compile _)
        (Compiles.finishes_iff.2 ⟨_, hcompile⟩))
    | compiled hstop hcompile =>
      refine hstop.bind (Step.Finishes.bind (s := I.compile _)
        (Compiles.finishes_iff.2 ⟨_, hcompile⟩) ?_)
      rw [keepCompiled_start]
      exact .ended _ _

/-- The setup with the roll `first`, and the passages since then, the latest first. -/
inductive Course (I : Interp) (w₀ : World) (first : List Published) : List Passage → World → Prop
  | setUp {w : World} (h : I.SetsUp w₀ first w) : Course I w₀ first [] w
  | meanwhile {ps : List Passage} {w w' : World} (h : Course I w₀ first ps w)
      (haside : w.Aside w') : Course I w₀ first ps w'
  | reloaded {ps : List Passage} {p : Passage} {r : Except Stop Unit} {w w' : World}
      (h : Course I w₀ first ps w) (hp : I.Passes w p r w') : Course I w₀ first (p :: ps) w'

namespace Course

variable {w₀ : World} {first : List Published} {ps : List Passage}

theorem of_finishes_setup (h : (I.setup w₀).Finishes others (.ok true) w) :
    ∃ first, I.Course w₀ first [] w := by
  obtain ⟨first, hfirst⟩ := finishes_setup_iff.1 h
  exact ⟨first, .setUp hfirst⟩

theorem of_finishes (h : I.Course w₀ first ps w) (hrun : (I.reload w).Finishes others r w') :
    ∃ p, I.Passes w p r w' ∧ I.Course w₀ first (p :: ps) w' := by
  obtain ⟨p, hp⟩ := finishes_reload_iff.1 hrun
  exact ⟨p, hp, .reloaded h hp⟩

theorem of_perform (h : I.Course w₀ first ps w) (hI : aside.Obeyed I) {job : Job}
    (hsetup : job ≠ .setup) (hreload : ∀ data, job ≠ .serve .reload data) {v : Except Stop Value}
    (hrun : (I.perform job w).Finishes others v w') : I.Course w₀ first ps w' :=
  .meanwhile h ((aside_perform hI hsetup hreload).aside hrun)

end Course

end Interp

/-! ### The services -/

theorem Host.service?_unregister (h : Host) (domain name name' : String) :
    (h.unregister domain name).service? domain name' =
      if serviceKey domain name' = serviceKey domain name then none
        else h.service? domain name' := by
  unfold Host.service? Host.unregister
  split
  · rename_i hkey
    rw [hkey]
    exact lookup_eq_none_of_not_mem (by simp)
  · rename_i hkey
    exact lookup_filter_of_ne _ hkey

namespace World

variable {w w' : World} {roll : List Published} {c : Compiled} {name : String}

theorem service?_removed (w : World) (name : String) :
    w.removed.host.service? serviceDomain name =
      if w.folder.services.any fun s ↦
        Host.serviceKey serviceDomain s == Host.serviceKey serviceDomain name
      then none else w.host.service? serviceDomain name := by
  have hfold (names : List String) (h : Host) :
      (names.foldl (fun h s ↦ h.unregister serviceDomain s) h).service? serviceDomain name =
        if names.any fun s ↦ Host.serviceKey serviceDomain s == Host.serviceKey serviceDomain name
        then none else h.service? serviceDomain name := by
    induction names generalizing h with
    | nil => rfl
    | cons s rest ih =>
      rw [List.foldl_cons, ih, Host.service?_unregister]
      grind
  exact hfold w.folder.services w.host

theorem service?_ready (w : World) (c : Compiled) (name : String) :
    (w.ready c).host.service? serviceDomain name =
      if Host.serviceKey serviceDomain name = Host.serviceKey serviceDomain reloadName
      then some .reload else w.host.service? serviceDomain name :=
  w.host.service?_register serviceDomain reloadName .reload name

theorem Remembers.any_services (h : w.Remembers roll) (name : String) :
    (w.folder.services.any fun s ↦
      Host.serviceKey serviceDomain s == Host.serviceKey serviceDomain name) =
      roll.any (·.answers name) := by
  rw [Bool.eq_iff_iff]
  simp only [List.any_eq_true, answers, Bool.and_eq_true, beq_iff_eq, h.services]
  constructor
  · rintro ⟨_, ⟨f, hf, hoffered, rfl⟩, hkey⟩
    exact ⟨f, hf, hoffered, hkey⟩
  · rintro ⟨f, hf, hoffered, hkey⟩
    exact ⟨f.name, ⟨f, hf, hoffered, rfl⟩, hkey⟩

theorem Remembers.later {roll' : List Published} (h : w.Remembers roll)
    (hreg : w.Registers roll' w') : w'.Remembers roll := by
  rw [Remembers, hreg.table, hreg.services]
  exact Holds.later h hreg

theorem Remembers.removed (h : w.Remembers roll) : w.removed.Remembers roll :=
  Holds.of_triggers h rfl

end World

namespace Interp

variable {I : Interp} (hI : aside.Obeyed I) {w₀ w w' : World} {first : List Published}
  {ps : List Passage} {p : Passage} {r : Except Stop Unit}

include hI

theorem Course.remembers (h : I.Course w₀ first ps w) : w.Remembers (remembered first ps) := by
  induction h with
  | setUp h =>
    obtain ⟨-, c, w₁, hcompile, rfl⟩ := h
    have hholds := (hcompile.registers hI).2 c rfl [] (.nothing w₀)
    exact hholds.of_triggers rfl
  | meanwhile _ haside ih => exact ih.later haside
  | reloaded _ hp ih =>
    cases hp with
    | stuck hstop => exact ih.later (aside_stopTriggers.aside hstop)
    | broken hstop hcompile =>
      exact (ih.later (aside_stopTriggers.aside hstop)).removed.later (hcompile.registers hI).1
    | @compiled w₁ w₂ roll c hstop hcompile =>
      have hholds := (hcompile.registers hI).2 c rfl [] (.nothing _)
      have hkept : (w₂.keeping c).Remembers roll := hholds.of_triggers rfl
      exact hkept.later (World.Aside.startAll _ _)

variable {kept roll : List Published} {name : String}

theorem service?_of_compiles {w₁ w₂ : World} {r : Except Stop Compiled}
    (hstop : (stopTriggers w).Finishes others (.ok ()) w₁)
    (hcompile : I.Compiles w₁.folder.files {} w₁.removed roll r w₂) (name : String) :
    w₂.host.service? serviceDomain name = (serviceOf? roll name).or
      (if w.folder.services.any fun s ↦
        Host.serviceKey serviceDomain s == Host.serviceKey serviceDomain name
      then none else w.host.service? serviceDomain name) := by
  have haside := aside_stopTriggers.aside hstop
  rw [(hcompile.registers hI).1.service, World.service?_removed, haside.service, haside.services]
  rfl

theorem service?_of_passes (hp : I.Passes w p r w') (hroll : p = .broken roll ∨ p = .compiled roll)
    (hw : w.Remembers kept) (name : String) :
      w'.host.service? serviceDomain name = (serviceOf? roll name).or
      (if kept.any (·.answers name) then none else w.host.service? serviceDomain name) := by
  rw [← hw.any_services]
  cases hp with
  | stuck _ => rcases hroll with h | h <;> cases h
  | broken hstop hcompile =>
    rcases hroll with h | h <;> cases h
    exact service?_of_compiles hI hstop hcompile name
  | @compiled w₁ w₂ _ c hstop hcompile =>
    rcases hroll with h | h <;> cases h
    have hstart := (World.Aside.startAll (w₂.keeping c) (c.triggers.map (·.2))).service name
    have hkeep : w₂.host.service? serviceDomain name = _ :=
      service?_of_compiles hI hstop hcompile name
    exact hstart.trans hkeep

omit hI in
theorem Passes.aside_of_stuck (hp : I.Passes w .stuck r w') : w.Aside w' := by
  cases hp with
  | stuck hstop => exact aside_stopTriggers.aside hstop

theorem Course.service?_eq (h : I.Course w₀ first ps w)
    (hfresh : ∀ name, w₀.host.service? serviceDomain name = none)
    (hwhole : ∀ roll, .broken roll ∉ ps)
    (hname : Host.serviceKey serviceDomain name ≠ Host.serviceKey serviceDomain reloadName) :
    w.host.service? serviceDomain name = serviceOf? (remembered first ps) name := by
  induction h with
  | setUp h =>
    obtain ⟨-, c, w₁, hcompile, rfl⟩ := h
    rw [World.service?_ready, if_neg hname, (hcompile.registers hI).1.service, hfresh,
      Option.or_none]
    rfl
  | meanwhile _ haside ih =>
    rw [haside.service]
    exact ih hwhole
  | @reloaded ps p r w w' h hp ih =>
    have ih := ih fun roll hmem ↦ hwhole roll (List.mem_cons_of_mem _ hmem)
    cases p with
    | stuck =>
      rw [hp.aside_of_stuck.service]
      exact ih
    | broken roll => exact absurd List.mem_cons_self (hwhole roll)
    | compiled roll =>
      rw [service?_of_passes hI hp (.inr rfl) (h.remembers hI), ih, ← isSome_serviceOf?]
      cases serviceOf? (remembered first ps) name <;> exact Option.or_none

omit hI in
theorem or_eq_reload_iff {s : Option Service} :
    (serviceOf? roll name).or (if kept.any (·.answers name) then none else s) = some .reload ↔
      s = some .reload ∧ (∀ f ∈ kept, f.answers name = false) ∧ ∀ f ∈ roll,
        f.answers name = false := by
  have hnone {fs : List Published} :
      (∀ f ∈ fs, f.answers name = false) ↔ fs.any (·.answers name) = false := by simp
  rw [hnone, hnone, ← isSome_serviceOf? roll]
  cases hroll : serviceOf? roll name with
  | some t =>
    obtain ⟨f, -, -, rfl⟩ := mem_of_serviceOf? hroll
    simp [Published.service]
  | none => cases kept.any (·.answers name) <;> simp

theorem Course.reload_iff (h : I.Course w₀ first ps w) :
    w.host.service? serviceDomain reloadName = some .reload ↔
      ∀ f ∈ touched first ps, f.answers reloadName = false := by
  induction h with
  | setUp h =>
    obtain ⟨-, c, w₁, -, rfl⟩ := h
    rw [World.service?_ready, if_pos rfl]
    simp [touched]
  | meanwhile _ haside ih =>
    rw [haside.service]
    exact ih
  | @reloaded ps p r w w' h hp ih =>
    have hpassed {roll : List Published} (hroll : p = .broken roll ∨ p = .compiled roll) :
        w'.host.service? serviceDomain reloadName = some .reload ↔
          ∀ f ∈ touched first ps ++ remembered first ps ++ roll, f.answers reloadName = false := by
      rw [service?_of_passes hI hp hroll (h.remembers hI), List.append_assoc,
        List.forall_mem_append, ← ih, List.forall_mem_append]
      exact or_eq_reload_iff
    cases p with
    | stuck =>
      rw [hp.aside_of_stuck.service]
      exact ih
    | broken roll => exact hpassed (.inl rfl)
    | compiled roll => exact hpassed (.inr rfl)

end Interp

/-! ### Courses without a pause -/

namespace World

def withFiles (files : List (String × String)) : World := { start := default, folder := { files } }

def edit (w : World) (files : List (String × String)) : World :=
  { w with folder := { w.folder with files } }

theorem aside_edit (w : World) (files : List (String × String)) : w.Aside (w.edit files) where
  service _ := rfl
  services := rfl
  table := rfl
  trigger _ trigger ht := ⟨trigger.task, ht⟩

end World

def Machine.doing (m : Machine) (job : Job) (n : Nat) : Machine :=
  { m with world := (m.world.startTask .noted job).2 }.settleTo work n

namespace Interp

variable {I : Interp} {w w' : World}

def rollOf (I : Interp) : List (String × String) → Compiled → World → List Published
  | [], _, _ => []
  | (file, source) :: rest, c, w =>
    match scriptName? file with
    | none => I.rollOf rest c w
    | some name =>
      let loaded := I.load file name source w
      let fs := loaded.result?.getD []
      let compiled := compileFunctions fs c loaded.world
      fs ++ I.rollOf rest (compiled.result?.getD {}) compiled.world

def reloadRoll (I : Interp) (w : World) : List Published :=
  let stopped := (stopTriggers w).world
  I.rollOf stopped.folder.files {} stopped.removed

theorem Compiles.of_ended {files : List (String × String)} {c c' : Compiled}
    (h : I.compileFiles files c w = .ended (.ok c') w') :
    I.Compiles files c w (I.rollOf files c w) (.ok c') w' := by
  induction files generalizing c w with
  | nil =>
    cases h
    exact .done _ _
  | cons p rest ih =>
    obtain ⟨file, source⟩ := p
    rw [compileFiles] at h
    rw [rollOf]
    cases hname : scriptName? file with
    | none =>
      rw [hname] at h
      exact .skipped hname (ih h)
    | some name =>
      rw [hname] at h
      obtain ⟨c₁, w₂, hscript, hrest⟩ := bind_eq_ended_ok h
      rw [compileScript_eq] at hscript
      obtain ⟨fs, w₁, hload, hfs⟩ := bind_eq_ended_ok hscript
      have hloads : (I.load file name source w).Finishes others (.ok fs) w₁ := by
        rw [hload]
        exact .ended _ _
      have henrolls : Enrolls fs c w₁ fs (.ok c₁) w₂ := by
        have hfinishes : (compileFunctions fs c w₁).Finishes others (.ok c₁) w₂ := by
          rw [hfs]
          exact .ended _ _
        obtain ⟨roll, hroll⟩ := Enrolls.finishes_iff.1 hfinishes
        rwa [hroll.roll_eq] at hroll
      have hscript := Compiles.script hname hloads henrolls (ih hrest)
      simpa only [hload, hfs, Step.result?, Step.world, Option.getD_some] using hscript

theorem SetsUp.of_ended (h : I.setup w = .ended (.ok true) w') :
    I.SetsUp w (I.rollOf w.folder.files {} w) w' := by
  have hsetup : I.setup w = (if w.folder.exists_ then _ else _ : Activity Bool) w := rfl
  rw [hsetup] at h
  split at h
  · rename_i hexists
    obtain ⟨c, w₁, hcompile, h⟩ := bind_eq_ended_ok (x := I.compile) h
    cases h
    exact ⟨hexists, c, w₁, .of_ended hcompile, rfl⟩
  · cases h

theorem Passes.of_ended (h : I.reload w = .ended (.ok ()) w') :
    I.Passes w (.compiled (I.reloadRoll w)) (.ok ()) w' := by
  obtain ⟨_, w₁, hstop, h⟩ := bind_eq_ended_ok (x := stopTriggers) h
  obtain ⟨c, w₂, hcompile, h⟩ := bind_eq_ended_ok (x := I.compile) (w := w₁.removed) h
  rw [keepCompiled_start] at h
  cases h
  have hstopped : (stopTriggers w).Finishes others (.ok ()) w₁ := by
    rw [hstop]
    exact .ended _ _
  have hpass := Passes.compiled hstopped (.of_ended hcompile)
  simpa only [reloadRoll, hstop, Step.world] using hpass

end Interp

end TriggerScript
