import Mathlib.Data.List.Induction
import TriggerScript.Evaluation.HostCall
import TriggerScript.Proofs.Task.Machine
import TriggerScript.Proofs.Value.Association

/-!
# A unique name stays with the task that claimed it first

The name is filed under the task that claimed it first, and under that task for ever
(`Orderly.claims`). So the second task to be given a name waits until the first one has ended, and
all that come later find a task that has ended. The last one is the only one left exactly if those
between the first and the last have ended by themselves (`exclusive_iff_between_ended`).
-/

namespace TriggerScript

open Activity World

/-! ### Calls -/

def World.turnTo (w : World) (t : TaskId) : World := { w with running := t }

def World.reclaim (w : World) (name : String) (holder : TaskId) : World :=
  { w with claims :=
      (w.claims.filter fun e ↦ !Value.alike w.store e.1 (.text name)) ++ [(.text name, holder)] }

def World.Files (w : World) (names : List (String × TaskId)) : Prop :=
  w.claims = names.map fun p ↦ (.text p.1, p.2)

variable {names : List (String × TaskId)} {w : World}

theorem World.Files.reclaim (h : w.Files names) (name : String) (holder : TaskId) :
    (w.reclaim name holder).Files (names.filter (·.1 != name) ++ [(name, holder)]) := by
  have hfilter : (names.map fun p ↦ (Value.text p.1, p.2)).filter
      (fun e ↦ !Value.alike w.store e.1 (.text name)) =
      (names.filter (·.1 != name)).map fun p ↦ (.text p.1, p.2) := by
    rw [List.filter_map]
    rfl
  show (w.claims.filter fun e ↦ !Value.alike w.store e.1 (.text name)) ++ [(.text name, holder)] = _
  rw [show w.claims = _ from h, hfilter, List.map_append]
  rfl

section Claim

variable {w : World} {name : String}

theorem look_bind_apply (name : String) (k : World → Activity Unit) (w : World) :
    (do lift (Value.text name).checkKey; k (← world)) w = k w w := rfl

theorem claim_of_find?_none (yields : Bool)
    (hfind : w.claims.find? (fun e ↦ Value.alike w.store e.1 (.text name)) = none) :
    claim (.text name) yields w =
      .ended (.ok ()) { w with claims := w.claims ++ [(.text name, w.running)] } := by
  rw [claim, look_bind_apply, hfind]
  rfl

theorem claim_of_find?_some {key : Value} {u : TaskId}
    (hfind : w.claims.find? (fun e ↦ Value.alike w.store e.1 (.text name)) = some (key, u))
    (hother : u ≠ w.running) :
    claim (.text name) false w =
      (join u (w.cancel u)).bind fun _ w ↦ .ended (.ok ()) (w.reclaim name u) := by
  rw [claim, look_bind_apply, hfind, ← stopTask_of_ne hother]
  rfl

end Claim

theorem claim_cases (hfiles : w.Files names) (name : String)
    (hother : ∀ u, names.lookup name = some u → u ≠ w.running) :
    names.lookup name = none ∧ claim (.text name) false w =
        .ended (.ok ()) { w with claims := w.claims ++ [(.text name, w.running)] } ∨
      ∃ u, names.lookup name = some u ∧
        (w.isPending u = false ∧
            claim (.text name) false w = .ended (.ok ()) (w.reclaim name u) ∨
          w.isPending u = true ∧ ∃ resume, claim (.text name) false w =
              .waiting (.join u)
                ((w.cancel u).updateTask w.running
                  ({ · with joining := some u, stopping := false }))
                resume ∧
            ∀ reply w', resume reply w' =
              .ended (.ok ())
                ((w'.updateTask w'.running ({ · with joining := none })).reclaim name u)) := by
  have hfind := find?_text w.store names name
  rw [← show w.claims = _ from hfiles] at hfind
  cases hlookup : names.lookup name with
  | none =>
    rw [hlookup, Option.map_eq_none_iff] at hfind
    exact .inl ⟨rfl, claim_of_find?_none false hfind⟩
  | some u =>
    rw [hlookup, Option.map_eq_some_iff] at hfind
    obtain ⟨⟨key, u⟩, hfind, rfl⟩ := hfind
    rw [claim_of_find?_some hfind (hother u hlookup)]
    refine .inr ⟨u, rfl, ?_⟩
    cases hpending : w.isPending u with
    | false =>
      rw [cancel_of_not_isPending hpending, join_of_not_isPending hpending]
      exact .inl ⟨rfl, rfl⟩
    | true =>
      obtain ⟨resume, hjoin, hresume⟩ := join_of_isPending
        ((w.isPending_cancel u u).trans hpending)
      rw [hjoin]
      refine .inr ⟨rfl, _, rfl, fun reply w' ↦ ?_⟩
      rw [hresume]
      rfl

/-! ### Interleavings -/

/-- A task that waits inside a call of `Activity.claim`. -/
structure Claimant where
  task : TaskId
  name : String
  request : Request
  resume : Reply → World → Step Unit

/-- A world with the tasks that wait inside a call, and the record of calls made and returned. -/
structure Claimants where
  world : World
  inside : List Claimant := []
  made : List (String × TaskId) := []
  returned : List (String × TaskId) := []

namespace Claimants

/-- What may happen between the slices of the calls, to tasks and to everything else. -/
inductive Happening where
  | call (t : TaskId) (name : String)
  | resume (t : TaskId)
  | start (oversight : Oversight) (job : Job)
  | cancel (t : TaskId)
  | attend (t : TaskId) (joining : Option TaskId) (stopping : Bool)
  | finish (t : TaskId) (result : Except Stop Value)
  | other (f : World → World) (hf : ∀ w, (f w).tasks = w.tasks ∧ (f w).claims = w.claims)

def isInside (σ : Claimants) (t : TaskId) : Bool := σ.inside.any (·.task == t)

/-- The tasks that got the name, in order. -/
def given (σ : Claimants) (name : String) : List TaskId :=
  (σ.returned.filter (·.1 == name)).map (·.2)

/-- The task may claim the name now. -/
def mayCall (σ : Claimants) (t : TaskId) (name : String) : Bool :=
  σ.world.isPending t && !σ.isInside t && !σ.made.contains (name, t)

def goOn (σ : Claimants) (t : TaskId) (name : String) : Step Unit → Claimants
  | .ended (.ok _) w => { σ with world := w, returned := σ.returned ++ [(name, t)] }
  | .ended (.error _) w => { σ with world := w }
  | .waiting request w resume =>
    { σ with world := w, inside := σ.inside ++ [⟨t, name, request, resume⟩] }

def call (σ : Claimants) (t : TaskId) (name : String) : Claimants :=
  goOn { σ with made := σ.made ++ [(name, t)] } t name
    (claim (.text name) false (σ.world.turnTo t))

def after (σ : Claimants) : Happening → Claimants
  | .call t name => if σ.mayCall t name then σ.call t name else σ
  | .resume t =>
    match σ.inside.find? (·.task == t) with
    | none => σ
    | some c =>
      match σ.world.answer? t c.request with
      | none => σ
      | some (reply, w) =>
        goOn { σ with inside := σ.inside.filter (·.task != t) } t c.name
          (c.resume reply (w.turnTo t))
  | .start oversight job => { σ with world := (σ.world.startTask oversight job).2 }
  | .cancel t => { σ with world := σ.world.cancel t }
  | .attend t joining stopping =>
    if σ.isInside t then σ
    else { σ with world := σ.world.updateTask t ({ · with joining, stopping }) }
  | .finish t result =>
    if σ.isInside t then σ else { σ with world := σ.world.endTask t result }
  | .other f _ => { σ with world := f σ.world }

def run (σ : Claimants) (happenings : List Happening) : Claimants := happenings.foldl after σ

/-- Of the tasks that got the name, only the last may still run. -/
def Exclusive (σ : Claimants) (name : String) : Prop :=
  ∀ earlier last, σ.given name = earlier ++ [last] → ∀ t ∈ earlier, σ.world.isPending t = false

variable {σ : Claimants} {t : TaskId} {name : String}

theorem isInside_iff : σ.isInside t = true ↔ ∃ c ∈ σ.inside, c.task = t := by
  simp [isInside]

theorem given_concat (w : World) (inside : List Claimant) (made returned : List (String × TaskId))
    (name : String) (t : TaskId) (n : String) :
    given ⟨w, inside, made, returned ++ [(name, t)]⟩ n =
      given ⟨w, inside, made, returned⟩ n ++ if name = n then [t] else [] := by
  by_cases heq : name = n <;> simp [given, List.filter_append, heq]

/-! ### What stays in order -/

def WaitsFor (c : Claimant) (u : TaskId) : Prop :=
  c.request = .join u ∧ ∀ reply w, c.resume reply w =
    .ended (.ok ()) ((w.updateTask w.running ({ · with joining := none })).reclaim c.name u)

/-- What holds of claimants at every moment. -/
structure Orderly (σ : Claimants) : Prop where
  claims : ∃ names, σ.world.Files names ∧ ∀ n, names.lookup n = (σ.given n).head?
  returned : ∀ p ∈ σ.returned, p ∈ σ.made ∧ (σ.world.tasks[p.2]?).isSome
  inside : ∀ c ∈ σ.inside, ∃ u, (σ.given c.name).head? = some u ∧ WaitsFor c u ∧
    σ.world.Joined c.task u ∧ (c.name, c.task) ∈ σ.made
  ended : ∀ n first rest, σ.given n = first :: rest → rest ≠ [] → σ.world.Ended first

namespace Orderly

variable {c : Claimant} {names : List (String × TaskId)} {u : TaskId} {w : World}

theorem start (hw : w.claims = []) : Orderly ⟨w, [], [], []⟩ where
  claims := ⟨[], hw, fun n ↦ rfl⟩
  returned p hp := by cases hp
  inside c hc := by cases hc
  ended n first rest h := by cases h

theorem of_spares (h : Orderly σ) (hclaims : w.claims = σ.world.claims)
    (hspares : World.Spares (fun t ↦ σ.isInside t = true) σ.world w) :
    Orderly { σ with world := w } where
  claims := by
    obtain ⟨names, hfiles, hlookup⟩ := h.claims
    exact ⟨names, hclaims.trans hfiles, hlookup⟩
  returned p hp := ⟨(h.returned p hp).1, hspares.known _ (h.returned p hp).2⟩
  inside c hc := by
    obtain ⟨u, hu, hwaits, hjoined, hmade⟩ := h.inside c hc
    exact ⟨u, hu, hwaits, hspares.joined _ _ (isInside_iff.2 ⟨c, hc, rfl⟩) hjoined, hmade⟩
  ended n first rest hgiven hrest := hspares.ended _ (h.ended n first rest hgiven hrest)

theorem give (h : Orderly σ) {inside : List Claimant} {made : List (String × TaskId)}
    (hinside : inside ⊆ σ.inside)
    (hspares : World.Spares (fun u ↦ ∃ c ∈ inside, c.task = u) σ.world w)
    (hmade : σ.made ⊆ made) (hthis : (name, t) ∈ made) (hknown : (w.tasks[t]?).isSome)
    (hfiles : w.Files names)
    (hlookup : ∀ n, names.lookup n = (σ.given n ++ if name = n then [t] else []).head?)
    (hended : ∀ u, (σ.given name).head? = some u → w.Ended u) :
    Orderly ⟨w, inside, made, σ.returned ++ [(name, t)]⟩ := by
  have hgiven (n : String) : given ⟨w, inside, made, σ.returned ++ [(name, t)]⟩ n =
      σ.given n ++ if name = n then [t] else [] := given_concat ..
  refine ⟨⟨names, hfiles, fun n ↦ by rw [hlookup, hgiven]⟩, fun p hp ↦ ?_, fun c hc ↦ ?_, ?_⟩
  · rcases List.mem_append.1 hp with hp | hp
    · exact ⟨hmade (h.returned p hp).1, hspares.known _ (h.returned p hp).2⟩
    · cases List.mem_singleton.1 hp
      exact ⟨hthis, hknown⟩
  · obtain ⟨u, hu, hwaits, hjoined, hcall⟩ := h.inside c (hinside hc)
    refine ⟨u, ?_, hwaits, hspares.joined _ _ ⟨c, hc, rfl⟩ hjoined, hmade hcall⟩
    rw [hgiven, List.head?_append, hu]
    rfl
  · intro n first rest hfirst hrest
    rw [hgiven] at hfirst
    cases hold : σ.given n with
    | nil => grind
    | cons first' rest' =>
      rw [hold, List.cons_append] at hfirst
      cases hfirst
      by_cases heq : name = n
      · subst heq
        exact hended first (by rw [hold]; rfl)
      · refine hspares.ended _ (h.ended n first rest' hold fun hnil ↦ hrest ?_)
        rw [hnil, if_neg heq]
        rfl

theorem of_given (h : Orderly σ) (hu : (σ.given name).head? = some u) :
    (name, u) ∈ σ.made ∧ ∃ task, σ.world.tasks[u]? = some task := by
  obtain ⟨p, hp, rfl⟩ := List.mem_map.1 (List.mem_of_head? hu)
  obtain ⟨hmem, hname⟩ := List.mem_filter.1 hp
  obtain ⟨hmade, hknown⟩ := h.returned p hmem
  rw [← beq_iff_eq.1 hname]
  exact ⟨hmade, Option.isSome_iff_exists.1 hknown⟩

theorem enter (h : Orderly σ) (hu : (σ.given c.name).head? = some u) (hwaits : WaitsFor c u)
    (hjoined : σ.world.Joined c.task u) :
    Orderly { σ with inside := σ.inside ++ [c], made := σ.made ++ [(c.name, c.task)] } where
  claims := h.claims
  returned p hp := ⟨List.mem_append_left _ (h.returned p hp).1, (h.returned p hp).2⟩
  inside c' hc' := by
    rcases List.mem_append.1 hc' with hc' | hc'
    · obtain ⟨v, hv, hwaits', hjoined', hmade⟩ := h.inside c' hc'
      exact ⟨v, hv, hwaits', hjoined', List.mem_append_left _ hmade⟩
    · cases List.mem_singleton.1 hc'
      exact ⟨u, hu, hwaits, hjoined, by simp⟩
  ended := h.ended

theorem lookup_reclaim (hlookup : ∀ n, names.lookup n = (σ.given n).head?)
    (hu : (σ.given name).head? = some u) (t : TaskId) (n : String) :
    (names.filter (·.1 != name) ++ [(name, u)]).lookup n =
      (σ.given n ++ if name = n then [t] else []).head? := by
  rw [List.lookup_append, List.head?_append]
  by_cases heq : n = name
  · grind
  · have hbeq : (n == name) = false := by simpa using heq
    rw [lookup_filter_of_ne _ heq, hlookup, if_neg (Ne.symm heq)]
    simp [List.lookup_cons, hbeq]

theorem call_new (h : Orderly σ) (hpending : σ.world.isPending t = true)
    (hfiles : σ.world.Files names) (hlookup : ∀ n, names.lookup n = (σ.given n).head?)
    (hnone : names.lookup name = none) :
    Orderly ⟨{ σ.world.turnTo t with claims := σ.world.claims ++ [(.text name, t)] }, σ.inside,
      σ.made ++ [(name, t)], σ.returned ++ [(name, t)]⟩ := by
  have hgiven : (σ.given name).head? = none := (hlookup name).symm.trans hnone
  have hfiles' : World.Files { σ.world.turnTo t with claims := σ.world.claims ++ [(.text name, t)] }
      (names ++ [(name, t)]) := by
    show σ.world.claims ++ _ = _
    rw [show σ.world.claims = _ from hfiles, List.map_append]
    rfl
  obtain ⟨task, htask, -⟩ := isPending_iff.1 hpending
  refine h.give (List.Subset.refl _) (.of_tasks_eq rfl) (List.subset_append_left _ _) (by simp)
    (Option.isSome_iff_exists.2 ⟨task, htask⟩) hfiles' (fun n ↦ ?_) (by simp [hgiven])
  rw [List.lookup_append, hlookup, List.head?_append]
  by_cases heq : n = name
  · simp [heq]
  · grind

theorem call_busy (h : Orderly σ) (hpending : σ.world.isPending t = true)
    (houtside : σ.isInside t = false) (hu : (σ.given name).head? = some u)
    {resume : Reply → World → Step Unit}
    (hresume : ∀ reply w, resume reply w =
      .ended (.ok ()) ((w.updateTask w.running ({ · with joining := none })).reclaim name u)) :
    Orderly ⟨((σ.world.turnTo t).cancel u).updateTask t
      ({ · with joining := some u, stopping := false }),
      σ.inside ++ [⟨t, name, .join u, resume⟩], σ.made ++ [(name, t)], σ.returned⟩ := by
  have hturn : World.Spares (fun v ↦ σ.isInside v = true) σ.world (σ.world.turnTo t) :=
  .of_tasks_eq rfl
  have hasked := hturn.trans (.cancel (σ.world.turnTo t) u)
  have hspares : World.Spares (fun v ↦ σ.isInside v = true) σ.world
      (((σ.world.turnTo t).cancel u).updateTask t
        ({ · with joining := some u, stopping := false })) := by
    refine hasked.trans (.updateTask (by simp [houtside]) ?_ _)
    exact fun _ hphase ↦ hphase
  obtain ⟨task, htask, -⟩ := isPending_iff.1 hpending
  obtain ⟨task', htask'⟩ := Option.isSome_iff_exists.1
    (hasked.known t (Option.isSome_iff_exists.2 ⟨task, htask⟩))
  refine (h.of_spares (by rfl) hspares).enter (c := ⟨t, name, .join u, resume⟩) hu ⟨rfl, hresume⟩
    ⟨?_, ?_⟩
  · refine ⟨{ task' with joining := some u, stopping := false }, ?_, rfl, nofun⟩
    rw [getElem?_updateTask, if_pos rfl, htask']
    rfl
  · exact hspares.known u (Option.isSome_iff_exists.2 (h.of_given hu).2)

theorem call (h : Orderly σ) (hmay : σ.mayCall t name = true) :
    Orderly (σ.call t name) ∧ ∀ u, (σ.given name).head? = some u → σ.world.isPending u = false →
      (σ.call t name).world.tasks = σ.world.tasks ∧
        (σ.call t name).returned = σ.returned ++ [(name, t)] := by
  obtain ⟨names, hfiles, hlookup⟩ := h.claims
  simp only [mayCall, Bool.and_eq_true, Bool.not_eq_true'] at hmay
  obtain ⟨⟨hpending, houtside⟩, hnew⟩ := hmay
  have hother : ∀ u, names.lookup name = some u → u ≠ t := by
    rintro u hu rfl
    have hmade := (h.of_given ((hlookup name).symm.trans hu)).1
    simp [hmade] at hnew
  rcases claim_cases (w := σ.world.turnTo t) hfiles name hother with
    ⟨hnone, hclaim⟩ | ⟨u, hu, ⟨hover, hclaim⟩ | ⟨hbusy, resume, hclaim, hresume⟩⟩
  · rw [Claimants.call, hclaim]
    refine ⟨h.call_new hpending hfiles hlookup hnone, fun u hu ↦ ?_⟩
    rw [← hlookup, hnone] at hu
    cases hu
  · have hgiven : (σ.given name).head? = some u := (hlookup name).symm.trans hu
    obtain ⟨task, htask, -⟩ := isPending_iff.1 hpending
    obtain ⟨utask, hutask⟩ := (h.of_given hgiven).2
    rw [Claimants.call, hclaim]
    refine ⟨h.give (List.Subset.refl _) (.of_tasks_eq rfl) (List.subset_append_left _ _) (by simp)
      (Option.isSome_iff_exists.2 ⟨task, htask⟩)
        (World.Files.reclaim (w := σ.world.turnTo t) hfiles name u)
      (lookup_reclaim hlookup hgiven t) (fun v hv ↦ ?_), fun _ _ _ ↦ ⟨rfl, rfl⟩⟩
    cases hgiven.symm.trans hv
    exact ended_of_not_isPending hutask hover
  · have hgiven : (σ.given name).head? = some u := (hlookup name).symm.trans hu
    rw [Claimants.call, hclaim]
    refine ⟨h.call_busy hpending houtside hgiven hresume, fun v hv hover ↦ ?_⟩
    cases hgiven.symm.trans hv
    rw [show σ.world.isPending u = true from hbusy] at hover
    cases hover

theorem ended_of_answer {reply : Reply} (hwaits : WaitsFor c u) (hjoined : σ.world.Joined c.task u)
    (hanswer : σ.world.answer? c.task c.request = some (reply, w)) :
    σ.world.Ended u ∧ w.claims = σ.world.claims ∧ ∀ P : TaskId → Prop, ¬ P c.task →
      World.Spares P σ.world w := by
  rw [hwaits.1] at hanswer
  refine ⟨hjoined.ended_of_answer? hanswer, ?_, fun P _ ↦ spares_answer? hanswer⟩
  rcases answer?_cases hanswer with ⟨-, rfl⟩ | ⟨⟨queues, rfl⟩, -⟩ <;> rfl

theorem spares_leave {P : TaskId → Prop} (ht : ¬ P t) (w : World) (name : String) (u : TaskId) :
    World.Spares P w
      (((w.turnTo t).updateTask t ({ · with joining := none })).reclaim name u) := by
  have hturn : World.Spares P w (w.turnTo t) := .of_tasks_eq rfl
  have hleave : World.Spares P w ((w.turnTo t).updateTask t ({ · with joining := none })) := by
    refine hturn.trans (.updateTask ht ?_ _)
    exact fun _ hphase ↦ hphase
  exact hleave.trans (.of_tasks_eq rfl)

theorem resume (h : Orderly σ) (t : TaskId) : Orderly (σ.after (.resume t)) := by
  rw [after]
  split
  · exact h
  · rename_i c hfind
    have hc : c ∈ σ.inside := List.mem_of_find?_eq_some hfind
    obtain rfl : c.task = t := by simpa using List.find?_some hfind
    obtain ⟨u, hu, hwaits, hjoined, hmade⟩ := h.inside c hc
    split
    · exact h
    · rename_i reply w hanswer
      obtain ⟨hended, hclaims, hspares⟩ := ended_of_answer hwaits hjoined hanswer
      obtain ⟨names, hfiles, hlookup⟩ := h.claims
      rw [hwaits.2 reply (w.turnTo c.task)]
      -- the others inside a call are spared, since the task itself has left it
      have hothers : ¬ ∃ c' ∈ σ.inside.filter (·.task != c.task), c'.task = c.task := by
        rintro ⟨c', hc', heq⟩
        simpa [heq] using (List.mem_filter.1 hc').2
      have hspares' := (hspares (fun v ↦ ∃ c' ∈ σ.inside.filter (·.task != c.task), c'.task = v)
        hothers).trans (spares_leave hothers w c.name u)
      obtain ⟨⟨task, htask, -, -⟩, -⟩ := hjoined
      have hfiles' : World.Files ((w.turnTo c.task).updateTask c.task ({ · with joining := none }))
          names :=
        hclaims.trans hfiles
      refine h.give List.filter_sublist.subset hspares' (List.Subset.refl _) hmade
        (hspares'.known _ (Option.isSome_iff_exists.2 ⟨task, htask⟩)) (hfiles'.reclaim c.name u)
        (lookup_reclaim hlookup hu c.task) fun v hv ↦ ?_
      cases hu.symm.trans hv
      exact hspares'.ended _ hended

theorem step (h : Orderly σ) (e : Happening) : Orderly (σ.after e) := by
  cases e with
  | call t name =>
    rw [after]
    split
    · exact (h.call ‹_›).1
    · exact h
  | resume t => exact h.resume t
  | start oversight job => exact h.of_spares rfl (.startTask σ.world oversight job)
  | cancel t => exact h.of_spares rfl (.cancel σ.world t)
  | attend t joining stopping =>
    rw [after]
    split
    · exact h
    · refine h.of_spares rfl (.updateTask ‹_› ?_ σ.world)
      exact fun _ hphase ↦ hphase
  | finish t result =>
    rw [after]
    split
    · exact h
    · refine h.of_spares ?_ (.endTask ‹_› σ.world result)
      obtain ⟨phase, outcome, log, host, -, heq⟩ := σ.world.endTask_eq t result
      rw [heq]
      rfl
  | other f hf => exact h.of_spares (hf σ.world).2 (.of_tasks_eq (hf σ.world).1)

end Orderly

theorem orderly_run {w : World} (hw : w.claims = []) (happenings : List Happening) :
    Orderly (run ⟨w, [], [], []⟩ happenings) := by
  induction happenings using List.reverseRecOn with
  | nil => exact .start hw
  | append_singleton happenings e ih =>
    rw [run, List.foldl_concat]
    exact ih.step e

/-! ### Who is left with a name -/

namespace Orderly

variable {σ : Claimants} {name : String} {first : TaskId} {rest : List TaskId}

theorem first_ended (h : Orderly σ) (hgiven : σ.given name = first :: rest) (hrest : rest ≠ []) :
    σ.world.isPending first = false :=
  (h.ended name first rest hgiven hrest).not_isPending

theorem exclusive_iff (h : Orderly σ) (hgiven : σ.given name = first :: rest) :
    σ.Exclusive name ↔ ∀ t ∈ rest.dropLast, σ.world.isPending t = false := by
  constructor
  · intro hexclusive t ht
    have hne : rest ≠ [] := by
      rintro rfl
      cases ht
    refine hexclusive (first :: rest.dropLast) (rest.getLast hne) ?_ t (List.mem_cons_of_mem _ ht)
    rw [hgiven, List.cons_append, List.dropLast_append_getLast]
  · intro hbetween earlier last hlast t ht
    rw [hgiven] at hlast
    cases earlier with
    | nil => cases ht
    | cons first' middle =>
      obtain ⟨rfl, rfl⟩ := List.cons.inj hlast
      rcases List.mem_cons.1 ht with rfl | ht
      · exact h.first_ended hgiven (by simp)
      · exact hbetween t (by simpa using ht)

theorem after_call (h : Orderly σ) (hgiven : σ.given name = first :: rest) {t : TaskId}
    (hmay : σ.mayCall t name = true) (hover : σ.world.isPending first = false) :
    (σ.after (.call t name)).given name = first :: (rest ++ [t]) ∧
      (σ.after (.call t name)).world.tasks = σ.world.tasks := by
  have hhead : (σ.given name).head? = some first := by rw [hgiven]; rfl
  obtain ⟨-, hdone⟩ := h.call hmay
  obtain ⟨htasks, hreturned⟩ := hdone first hhead hover
  rw [after, if_pos hmay]
  refine ⟨?_, htasks⟩
  rw [given, hreturned, List.filter_append, List.map_append]
  show σ.given name ++ _ = _
  rw [hgiven]
  simp

end Orderly

/-- **A unique name stays with the task that claimed it first.** Of the tasks that were given a
name, the first has ended if there was a second one. The last one is the only one left exactly if
those between the first and the last have ended. And when the first has ended, a further call
returns at once and does nothing to any task: it does not stop those that were given the name in
between. -/
theorem exclusive_iff_between_ended (w : World) (hw : w.claims = []) (happenings : List Happening)
    (name : String) (first : TaskId) (rest : List TaskId)
    (hgiven : (run ⟨w, [], [], []⟩ happenings).given name = first :: rest) :
    (rest ≠ [] → (run ⟨w, [], [], []⟩ happenings).world.isPending first = false) ∧
    ((run ⟨w, [], [], []⟩ happenings).Exclusive name ↔
      ∀ t ∈ rest.dropLast, (run ⟨w, [], [], []⟩ happenings).world.isPending t = false) ∧
    ∀ t, (run ⟨w, [], [], []⟩ happenings).mayCall t name = true →
      (run ⟨w, [], [], []⟩ happenings).world.isPending first = false →
      (run ⟨w, [], [], []⟩ (happenings ++ [.call t name])).given name = first :: (rest ++ [t]) ∧
        (run ⟨w, [], [], []⟩ (happenings ++ [.call t name])).world.tasks =
          (run ⟨w, [], [], []⟩ happenings).world.tasks := by
  have h : Orderly (run ⟨w, [], [], []⟩ happenings) := orderly_run hw happenings
  refine ⟨h.first_ended hgiven, h.exclusive_iff hgiven, fun t hmay hover ↦ ?_⟩
  have hcall : run ⟨w, [], [], []⟩ (happenings ++ [.call t name]) =
      (run ⟨w, [], [], []⟩ happenings).after (.call t name) := by
    rw [run, List.foldl_concat]
    rfl
  rw [hcall]
  exact h.after_call hgiven hmay hover

def threeTasks : World where
  start := default
  tasks := #[{ job := .setup }, { job := .setup }, { job := .setup }]

def threeCalls : List Happening :=
  [.call 0 "n", .call 1 "n", .finish 0 (.error .cancelled), .resume 1, .call 2 "n"]

/-- After the three calls the third task has not got the name for itself, since the second one has
not ended. -/
theorem exclusive_iff_between_ended_threeCalls :
    threeTasks.claims = [] ∧ (run ⟨threeTasks, [], [], []⟩ threeCalls).given "n" = [0, 1, 2] ∧
      ((run ⟨threeTasks, [], [], []⟩ threeCalls).Exclusive "n" ↔
        ∀ t ∈ [1], (run ⟨threeTasks, [], [], []⟩ threeCalls).world.isPending t = false) := by
  have hgiven : (run ⟨threeTasks, [], [], []⟩ threeCalls).given "n" = [0, 1, 2] := by decide
  exact ⟨rfl, hgiven,
    (exclusive_iff_between_ended threeTasks rfl threeCalls "n" 0 [1, 2] hgiven).2.1⟩

/-- Two tasks that were given one name, and neither has ended. -/
theorem second_left_with_name :
    (run ⟨threeTasks, [], [], []⟩ threeCalls).given "n" = [0, 1, 2] ∧
      (run ⟨threeTasks, [], [], []⟩ threeCalls).world.isPending 1 = true ∧
      (run ⟨threeTasks, [], [], []⟩ threeCalls).world.isPending 2 = true ∧
      ¬ (run ⟨threeTasks, [], [], []⟩ threeCalls).Exclusive "n" := by
  have hgiven : (run ⟨threeTasks, [], [], []⟩ threeCalls).given "n" = [0, 1, 2] := by decide
  have hsecond : (run ⟨threeTasks, [], [], []⟩ threeCalls).world.isPending 1 = true := by decide
  refine ⟨hgiven, hsecond, by decide, fun h ↦ ?_⟩
  rw [h [0, 1] 2 hgiven 1 (by simp)] at hsecond
  cases hsecond

end Claimants

end TriggerScript
