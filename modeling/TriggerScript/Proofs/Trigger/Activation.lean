import TriggerScript.Proofs.Evaluation.Locals
import TriggerScript.Work

/-!
# Activations that share a context

A trigger starts its function anew for every message, each time as a task, and all these activations
run in one context. An activation that waits leaves its table on the stack, and another one may
begin on top of it.

All activations are resumed in their own table if and only if they are resumed **in order**, each
only after all that began later have returned; and then they also find the values that they bound
(`own_table_iff_in_order`). Two invariants carry this: the scopes form a chain (`Chain`), and what
an activation bound is not changed by others unless a function declared the name nonlocal (`Held`).
-/

namespace TriggerScript

open Activity

/-! ### How an activation runs -/

def Undisturbed (d : ContextId) (w w' : World) : Prop := Sheltered (fun _ ↦ False) d [] w w'

namespace Undisturbed

variable {d : ContextId} {w w₁ w' : World}

theorem kept (h : Undisturbed d w w') : Kept d [] w w' := Sheltered.kept h

theorem refl {S : Scope} (hS : w.scope? d = some S) : Undisturbed d w w := Sheltered.refl hS

theorem trans (h₁ : Undisturbed d w w₁) (h₂ : Undisturbed d w₁ w') : Undisturbed d w w' :=
  Sheltered.trans h₁ h₂

theorem sheltered (h : Undisturbed d w w') (own : TableId → Prop) : Sheltered own d [] w w' :=
  h.mono fun _ _ ↦ False.elim

end Undisturbed

namespace Step

variable {d : ContextId} {α β : Type} {w w₀ w₁ : World}

variable {s : Step α}

theorem Inside.after (h : s.Inside d w₁) (h₀ : Kept d [] w₀ w₁) : s.Inside d w₀ := by
  have deeper {w : World} (h : ∃ left ≠ [], Kept d left w₁ w) : ∃ left ≠ [], Kept d left w₀ w := by
    obtain ⟨left, hne, hkept⟩ := h
    exact ⟨left ++ [], by simpa using hne, h₀.trans hkept⟩
  induction s with
  | ended r w =>
    cases r with
    | ok a => exact (Settled.of_kept h₀).trans h
    | error e => exact ⟨h.1, deeper h.2⟩
  | waiting request w resume ih =>
    exact ⟨deeper h.1, fun reply w' hw' ↦ ih reply w' (h.2 reply w' hw')⟩

def AtOnce (d : ContextId) (w₀ : World) (s : Step α) : Prop :=
  ∃ r w, s = .ended r w ∧ Undisturbed d w₀ w

theorem AtOnce.bind {k : α → World → Step β} (h : s.AtOnce d w₀)
    (hk : ∀ a w S, w.scope? d = some S → (k a w).AtOnce d w) : (s.bind k).AtOnce d w₀ := by
  obtain ⟨r, w, rfl, hcalm⟩ := h
  cases r with
  | error e => exact ⟨_, w, rfl, hcalm⟩
  | ok a =>
    obtain ⟨S, hS⟩ := hcalm.kept.scope_end
    obtain ⟨r, w', hend, hcalm'⟩ := hk a w S hS
    exact ⟨r, w', hend, hcalm.trans hcalm'⟩

def Activated (d : ContextId) (w₀ : World) (s : Step α) : Prop :=
  s.AtOnce d w₀ ∨ s.Inside d w₀ ∧ s.Shelters (w₀.tables.size ≤ ·) d w₀

end Step

namespace Activity

variable {d : ContextId} {α β : Type}

def AtOnce (d : ContextId) (x : Activity α) : Prop := ∀ w S, w.scope? d = some S → (x w).AtOnce d w

theorem AtOnce.bind {x : Activity α} {f : α → Activity β} (hx : AtOnce d x)
    (hf : ∀ a, AtOnce d (f a)) : AtOnce d (x >>= f) :=
  fun w S hS ↦ (hx w S hS).bind fun a w S hS ↦ hf a w S hS

theorem atOnce_lift (x : Except Fault α) : AtOnce d (lift x) := by
  intro w S hS
  cases x with
  | ok a => exact ⟨_, w, rfl, .refl hS⟩
  | error f => exact ⟨_, w, rfl, .refl hS⟩

theorem atOnce_op (x : Op α) : AtOnce d (op x) := by
  intro w S hS
  obtain ⟨r, s, hend⟩ := op_apply x w
  have hkept := (Act.store (E := .whole) (p := ⟨d, false⟩) w s).kept hS
  exact ⟨r, _, hend, .of_contexts_eq hkept rfl (fun _ h ↦ h) fun _ _ _ _ ↦ .inr rfl⟩

end Activity

namespace Interp

variable {d : ContextId} {w : World} {S : Scope}

theorem atOnce_openingTable (f : Function) (args : List Value) (named : Named) :
    AtOnce d (openingTable f args named) := by
  refine (atOnce_lift _).bind fun b ↦ ?_
  split
  · exact (atOnce_op _).bind fun _ ↦ atOnce_lift _
  · exact atOnce_lift _

theorem atOnce_openingTableBeside (f : Function) (args items : List Value) :
    AtOnce d (openingTableBeside f args items) := by
  refine (atOnce_lift _).bind fun b ↦ ?_
  split
  · exact (atOnce_op _).bind fun _ ↦ atOnce_lift _
  · exact atOnce_lift _

theorem activated_callOpening {I : Interp} (r : Ref) {opening : Function → Activity Table}
    (hkeeps : ∀ stmts, Keeps d (I.body d stmts)) (hshelters : ∀ stmts, Shelters d (I.body d stmts))
    (hopening : ∀ f, AtOnce d (opening f))
    (hS : w.scope? d = some S) : (I.callOpening d r opening w).Activated d w := by
  rw [callOpening, read_bind_apply]
  cases w.store.functionAt? r with
  | none => exact .inl ⟨_, w, rfl, .refl hS⟩
  | some f =>
    show ((opening f w).bind fun t ↦ I.callBody d r t f.body).Activated d w
    obtain ⟨outcome, w₁, hend, hcalm⟩ := hopening f w S hS
    rw [hend]
    cases outcome with
    | error e => exact .inl ⟨_, w₁, rfl, hcalm⟩
    | ok t =>
      obtain ⟨S₁, hS₁⟩ := hcalm.kept.scope_end
      have hcall := shelters_callBody r t (hshelters f.body) hS₁ fun t ht ↦
        Nat.le_trans hcalm.kept.tables ht
      exact .inr ⟨(inside_callBody (hkeeps f.body) hS₁).after hcalm.kept,
        hcall.after (hcalm.sheltered _)⟩

theorem activated_work (f : Ref) (args : List Value) (named : Value) (hS : w.scope? d = some S) :
    (work (.call f d args named) w).Activated d w := by
  have hkeeps (stmts : List Syntax.Stmt) : Keeps d (full.body d stmts) :=
    ((keeping d).obeyed_upTo depth).body d stmts
  have hshelters (stmts : List Syntax.Stmt) : Shelters d (full.body d stmts) :=
    ((sheltering d).obeyed_upTo depth).body d stmts
  have hcall (named : Named) : (full.callFunction d f args named w).Activated d w :=
    activated_callOpening f hkeeps hshelters (fun g ↦ atOnce_openingTable g args named) hS
  show (full.callWith f d args named w).Activated d w
  rw [callWith, read_bind_apply]
  split
  · split
    · exact hcall _
    · exact activated_callOpening f hkeeps hshelters (fun g ↦ atOnce_openingTableBeside g args _) hS
    · exact .inl ⟨_, w, rfl, .refl hS⟩
  · exact hcall []

end Interp

/-! ### Interleavings -/

def World.currentTable? (w : World) (c : ContextId) : Option TableId := (w.scope? c).map (·.current)

variable {c : ContextId} {w w' : World}

theorem World.currentTable?_congr (h : w.scope? c = w'.scope? c) :
    w.currentTable? c = w'.currentTable? c :=
  congrArg (Option.map _) h

theorem Kept.currentTable? {left : List TableId} (h : Kept c left w w') (hne : left ≠ []) :
    ∃ t, w'.currentTable? c = some t ∧ w.tables.size ≤ t ∧ t < w'.tables.size := by
  obtain ⟨S, S', -, hS', hstack, -⟩ := h.scope
  obtain ⟨t, rest, rfl⟩ := List.exists_cons_of_ne_nil hne
  have hcurrent : S'.current = t := (List.cons.inj hstack).1
  exact ⟨t, by rw [World.currentTable?, hS', ← hcurrent]; rfl, h.fresh t (List.mem_cons_self ..)⟩

/-- Where an activation began, where it stopped last, and how it goes on unless it has ended. -/
structure Activation where
  began : World
  stopped : World
  resume : Option (Reply → World → Step Value)

/-- What the activation bound is there when it goes on. -/
structure Activation.FindsOwn (a : Activation) (c : ContextId) (now : World) : Prop where
  bindings : ∀ S t, a.stopped.scope? c = some S → t ∈ S.stack → a.began.tables.size ≤ t →
    ∀ key, ¬ now.Declares key → (now.table t).get? key = (a.stopped.table t).get? key
  loads : ∀ S name v, a.stopped.scope? c = some S →
    (a.stopped.table S.current).get? (some name) = some v → ¬ now.Declares (some name) →
      ¬ now.isGlobal (now.context c) name → now.nameValue (now.context c) name = .ok v

/-- A world with the activations that have not returned, the latest first. -/
structure Activations where
  world : World
  unreturned : List Activation := []

/-- An activation begins or goes on, or something else happens. -/
inductive Happening where
  | begins (args : List Value) (named : Value)
  | resumes (i : Nat) (reply : Reply)
  | other (w : World)

namespace Activations

variable (f : Ref) (c : ContextId)

def stop (began : World) : Step Value → World × List Activation
  | .waiting _ w resume => (w, [⟨began, w, some resume⟩])
  | .ended _ w => (w, if w.scope? c = began.scope? c then [] else [⟨began, w, none⟩])

def after (σ : Activations) : Happening → Activations
  | .begins args named =>
    let (w, a) := stop c σ.world (work (.call f c args named) σ.world)
    ⟨w, a ++ σ.unreturned⟩
  | .resumes i reply =>
    match σ.unreturned[i]? with
    | some ⟨began, _, some resume⟩ =>
      let (w, a) := stop c began (resume reply σ.world)
      ⟨w, σ.unreturned.take i ++ a ++ σ.unreturned.drop (i + 1)⟩
    | _ => σ
  | .other w => { σ with world := w }

/-- `P` holds before each happening. -/
def Throughout (P : Activations → Happening → Prop) : Activations → List Happening → Prop
  | _, [] => True
  | σ, h :: rest => P σ h ∧ Throughout P (σ.after f c h) rest

def AtResume (P : Activations → Nat → Activation → Prop) (σ : Activations) : Happening → Prop
  | .resumes i _ => ∀ a, σ.unreturned[i]? = some a → a.resume.isSome → P σ i a
  | _ => True

/-- What else happens keeps the scope of the context. -/
def Apart (σ : Activations) : Happening → Prop
  | .other w => Kept c [] σ.world w
  | _ => True

/-- What else happens keeps the tables of activations, too. -/
def Calm (σ : Activations) : Happening → Prop
  | .other w => Undisturbed c σ.world w
  | _ => True

/-- Only the latest activation goes on. -/
def InOrder : Activations → Happening → Prop := AtResume fun _ i _ ↦ i = 0

/-- An activation goes on in its own table. -/
def OwnTable : Activations → Happening → Prop :=
  AtResume fun σ _ a ↦ σ.world.currentTable? c = a.stopped.currentTable? c

def OwnScope : Activations → Happening → Prop :=
  AtResume fun σ _ a ↦ σ.world.scope? c = a.stopped.scope? c

def OwnValues : Activations → Happening → Prop := AtResume fun σ _ a ↦ a.FindsOwn c σ.world

def Chain : World → List Activation → Prop
  | now, [] => ∃ S, now.scope? c = some S
  | now, a :: rest =>
    Kept c [] a.stopped now ∧ (∃ left ≠ [], Kept c left a.began a.stopped) ∧
      (∀ resume, a.resume = some resume → ∀ reply w, Kept c [] a.stopped w →
        (resume reply w).Inside c a.began) ∧
      Chain a.began rest

def Held : World → List Activation → Prop
  | now, [] => now.Formed ∧ ∃ S, now.scope? c = some S
  | now, a :: rest =>
    Undisturbed c a.stopped now ∧
      (∃ left ≠ [], Sheltered (a.began.tables.size ≤ ·) c left a.began a.stopped) ∧
      (∀ resume, a.resume = some resume → ∀ reply w, Undisturbed c a.stopped w →
        (resume reply w).Inside c a.began ∧
          (resume reply w).Shelters (a.began.tables.size ≤ ·) c a.began) ∧
      Held a.began rest

variable {f c} {now w : World} {as rest : List Activation} {σ : Activations}

theorem Chain.scope (h : Chain c now as) : ∃ S, now.scope? c = some S := by
  cases as with
  | nil => exact h
  | cons a rest => exact h.1.scope_end

theorem Chain.later (h : Chain c now as) (hw : Kept c [] now w) : Chain c w as := by
  cases as with
  | nil => exact hw.scope_end
  | cons a rest => exact ⟨h.1.trans hw, h.2⟩

variable {a : Activation} {h : Happening} {happenings : List Happening} {i : Nat} {reply : Reply}
  {s : Step Value} {began : World}

theorem Chain.stop (h : Chain c began rest)
    (hs : (∃ r w, s = .ended r w ∧ Kept c [] began w) ∨ s.Inside c began) :
    Chain c (Activations.stop c began s).1 ((Activations.stop c began s).2 ++ rest) := by
  have ended {left : List TableId} {r : Except Stop Value} {w : World}
      (hkept : Kept c left began w) :
      Chain c (Activations.stop c began (.ended r w)).1
        ((Activations.stop c began (.ended r w)).2 ++ rest) := by
    obtain ⟨S, hS⟩ := hkept.scope_end
    by_cases hscope : w.scope? c = began.scope? c
    · obtain rfl := hkept.scope_eq_iff.1 hscope
      simp only [Activations.stop, hscope, if_true]
      exact h.later hkept
    · simp only [Activations.stop, hscope, if_false]
      exact ⟨.refl hS, ⟨left, fun hnil ↦ hscope (hkept.scope_eq_iff.2 hnil), hkept⟩, nofun, h⟩
  rcases hs with ⟨r, w, rfl, hkept⟩ | hinside
  · exact ended hkept
  · cases s with
    | ended r w =>
      cases r with
      | ok v =>
        obtain ⟨left, hkept, -⟩ := hinside
        exact ended hkept
      | error e =>
        obtain ⟨-, left, -, hkept⟩ := hinside
        exact ended hkept
    | waiting request w resume =>
      obtain ⟨⟨left, hne, hkept⟩, hresume⟩ := hinside
      obtain ⟨S, hS⟩ := hkept.scope_end
      refine ⟨.refl hS, ⟨left, hne, hkept⟩, ?_, h⟩
      rintro _ ⟨⟩
      exact hresume

theorem after_resumes {resume : Reply → World → Step Value} (ha : σ.unreturned[i]? = some a)
    (hresume : a.resume = some resume) :
    σ.after f c (.resumes i reply) =
      ⟨(stop c a.began (resume reply σ.world)).1,
        σ.unreturned.take i ++ (stop c a.began (resume reply σ.world)).2 ++
          σ.unreturned.drop (i + 1)⟩ := by
  obtain ⟨began, stopped, _⟩ := a
  subst hresume
  simp only [after, ha]

theorem after_resumes_of_ended (h : ∀ a, σ.unreturned[i]? = some a → a.resume = none) :
    σ.after f c (.resumes i reply) = σ := by
  rcases ha : σ.unreturned[i]? with _ | ⟨began, stopped, _ | resume⟩
  · simp only [after, ha]
  · simp only [after, ha]
  · nomatch h _ ha

theorem after_cases (horder : InOrder σ h) :
    (∃ args named, σ.after f c h =
      ⟨(stop c σ.world (work (.call f c args named) σ.world)).1,
        (stop c σ.world (work (.call f c args named) σ.world)).2 ++ σ.unreturned⟩) ∨
    (∃ w, h = .other w ∧ σ.after f c h = ⟨w, σ.unreturned⟩) ∨
    (∃ a rest resume reply, σ.unreturned = a :: rest ∧ a.resume = some resume ∧
      σ.after f c h = ⟨(stop c a.began (resume reply σ.world)).1,
        (stop c a.began (resume reply σ.world)).2 ++ rest⟩) ∨
    σ.after f c h = σ := by
  cases h with
  | begins args named => exact .inl ⟨args, named, rfl⟩
  | other w => exact .inr (.inl ⟨w, rfl, rfl⟩)
  | resumes i reply =>
    by_cases hwaits : ∃ a, σ.unreturned[i]? = some a ∧ a.resume.isSome
    · obtain ⟨a, ha, hsome⟩ := hwaits
      obtain rfl : i = 0 := horder a ha hsome
      obtain ⟨resume, hresume⟩ := Option.isSome_iff_exists.1 hsome
      obtain ⟨rest, hrest⟩ : ∃ rest, σ.unreturned = a :: rest := by
        cases hσ : σ.unreturned with
        | nil => simp [hσ] at ha
        | cons b rest => exact ⟨rest, by simpa [hσ] using ha⟩
      refine .inr (.inr (.inl ⟨a, rest, resume, reply, hrest, hresume, ?_⟩))
      rw [after_resumes ha hresume, hrest]
      rfl
    · refine .inr (.inr (.inr (after_resumes_of_ended fun a ha ↦ ?_)))
      exact Option.not_isSome_iff_eq_none.1 fun hsome ↦ hwaits ⟨a, ha, hsome⟩

theorem Chain.after (hchain : Chain c σ.world σ.unreturned) (hapart : Apart c σ h)
    (horder : InOrder σ h) : Chain c (σ.after f c h).world (σ.after f c h).unreturned := by
  obtain ⟨args, named, heq⟩ | ⟨w, rfl, heq⟩ | ⟨a, rest, resume, reply, hrest, hresume, heq⟩ | heq :=
    after_cases (f := f) (c := c) horder
  · obtain ⟨S, hS⟩ := hchain.scope
    rw [heq]
    exact hchain.stop ((Interp.activated_work f args named hS).imp
      (fun ⟨r, w, hend, hcalm⟩ ↦ ⟨r, w, hend, hcalm.kept⟩) And.left)
  · rw [heq]
    exact hchain.later hapart
  · rw [hrest] at hchain
    obtain ⟨hnow, -, hinside, hbegan⟩ := hchain
    rw [heq]
    exact hbegan.stop (.inr (hinside resume hresume reply σ.world hnow))
  · rw [heq]
    exact hchain

theorem Chain.currentTable?_lt (h : Chain c now as) (ha : as[i]? = some a) :
    ∃ t, a.stopped.currentTable? c = some t ∧ t < now.tables.size := by
  induction as generalizing now i with
  | nil => simp at ha
  | cons b rest ih =>
    obtain ⟨hnow, ⟨left, hne, hkept⟩, -, hrest⟩ := h
    cases i with
    | zero =>
      obtain rfl : b = a := by simpa using ha
      obtain ⟨t, ht, -, hlt⟩ := hkept.currentTable? hne
      exact ⟨t, ht, Nat.lt_of_lt_of_le hlt hnow.tables⟩
    | succ i =>
      obtain ⟨t, ht, hlt⟩ := ih hrest (by simpa using ha)
      exact ⟨t, ht, Nat.lt_of_lt_of_le hlt (Nat.le_trans hkept.tables hnow.tables)⟩

theorem Chain.resumed (h : Chain c now as) (ha : as[i]? = some a) :
    (i = 0 → now.scope? c = a.stopped.scope? c) ∧
      (now.currentTable? c = a.stopped.currentTable? c → i = 0) := by
  cases as with
  | nil => simp at ha
  | cons b rest =>
    obtain ⟨hnow, ⟨left, hne, hkept⟩, -, hrest⟩ := h
    constructor
    · rintro rfl
      obtain rfl : b = a := by simpa using ha
      exact hnow.scope_eq_iff.2 rfl
    · intro htable
      cases i with
      | zero => rfl
      | succ i =>
        -- the current table belongs to the latest activation, which is younger than the other's
        obtain ⟨t, ht, hge, -⟩ := hkept.currentTable? hne
        obtain ⟨u, hu, hlt⟩ := hrest.currentTable?_lt (by simpa using ha)
        have hsame : now.currentTable? c = some t :=
          (World.currentTable?_congr (hnow.scope_eq_iff.2 rfl)).trans ht
        have : t = u := Option.some.inj (hsame.symm.trans (htable.trans hu))
        exact absurd hlt (by rw [← this]; exact Nat.not_lt.2 hge)

theorem Chain.ownTable_iff (hchain : Chain c σ.world σ.unreturned) : OwnTable c σ h ↔
    InOrder σ h := by
  cases h with
  | begins args named => exact Iff.rfl
  | other w => exact Iff.rfl
  | resumes i reply =>
    exact forall₃_congr fun a ha _ ↦
      ⟨(hchain.resumed ha).2, fun hi ↦ World.currentTable?_congr ((hchain.resumed ha).1 hi)⟩

theorem Chain.ownScope_iff (hchain : Chain c σ.world σ.unreturned) : OwnScope c σ h ↔
    InOrder σ h := by
  cases h with
  | begins args named => exact Iff.rfl
  | other w => exact Iff.rfl
  | resumes i reply =>
    exact forall₃_congr fun a ha _ ↦
      ⟨fun hscope ↦ (hchain.resumed ha).2 (World.currentTable?_congr hscope), (hchain.resumed ha).1⟩

theorem Chain.throughout_iff {P : Activations → Happening → Prop}
    (hP : ∀ {σ : Activations} {h : Happening}, Chain c σ.world σ.unreturned → (P σ h ↔ InOrder σ h))
    (hchain : Chain c σ.world σ.unreturned) (hapart : Throughout f c (Apart c) σ happenings) :
    Throughout f c P σ happenings ↔ Throughout f c InOrder σ happenings := by
  induction happenings generalizing σ with
  | nil => exact Iff.rfl
  | cons h rest ih =>
    have hnext (horder : InOrder σ h) := ih (hchain.after (f := f) hapart.1 horder) hapart.2
    constructor
    · rintro ⟨hp, hrest⟩
      have horder := (hP hchain).1 hp
      exact ⟨horder, (hnext horder).1 hrest⟩
    · rintro ⟨horder, hrest⟩
      exact ⟨(hP hchain).2 horder, (hnext horder).2 hrest⟩

/-! ### What activations bound -/

theorem Held.scope (h : Held c now as) : ∃ S, now.scope? c = some S := by
  cases as with
  | nil => exact h.2
  | cons a rest => exact h.1.kept.scope_end

theorem Held.formed (h : Held c now as) : now.Formed := by
  induction as generalizing now with
  | nil => exact h.1
  | cons a rest ih =>
    obtain ⟨hnow, ⟨left, -, hleft⟩, -, hrest⟩ := h
    exact Sheltered.formed hnow (hleft.formed (ih hrest))

theorem Held.later (h : Held c now as) (hw : Undisturbed c now w) : Held c w as := by
  cases as with
  | nil => exact ⟨Sheltered.formed hw h.1, hw.kept.scope_end⟩
  | cons a rest => exact ⟨h.1.trans hw, h.2⟩

theorem Held.stop (h : Held c began rest) (hs : s.Activated c began) :
    Held c (Activations.stop c began s).1 ((Activations.stop c began s).2 ++ rest) := by
  have ended {left : List TableId} {r : Except Stop Value} {w : World}
      (hleft : Sheltered (began.tables.size ≤ ·) c left began w) :
      Held c (Activations.stop c began (.ended r w)).1
        ((Activations.stop c began (.ended r w)).2 ++ rest) := by
    obtain ⟨S, hS⟩ := hleft.kept.scope_end
    by_cases hscope : w.scope? c = began.scope? c
    · obtain rfl := hleft.kept.scope_eq_iff.1 hscope
      simp only [Activations.stop, hscope, if_true]
      exact h.later hleft.undisturbed
    · simp only [Activations.stop, hscope, if_false]
      exact ⟨.refl hS, ⟨left, fun hnil ↦ hscope (hleft.kept.scope_eq_iff.2 hnil), hleft⟩, nofun, h⟩
  rcases hs with ⟨r, w, rfl, hcalm⟩ | ⟨hinside, hshelters⟩
  · exact ended (hcalm.sheltered _)
  · cases s with
    | ended r w =>
      obtain ⟨left, hleft⟩ := hshelters
      exact ended hleft
    | waiting request w resume =>
      obtain ⟨⟨left, hleft⟩, hshelters⟩ := hshelters
      obtain ⟨⟨left', hne, hkept⟩, hinside⟩ := hinside
      obtain rfl := hkept.left_unique hleft.kept
      obtain ⟨S, hS⟩ := hkept.scope_end
      refine ⟨.refl hS, ⟨left', hne, hleft⟩, ?_, h⟩
      rintro _ ⟨⟩ reply w₁ hw₁
      exact ⟨hinside reply w₁ hw₁.kept, hshelters reply w₁ (hw₁.sheltered _)⟩

theorem Held.after (hheld : Held c σ.world σ.unreturned) (hcalm : Calm c σ h)
    (horder : InOrder σ h) : Held c (σ.after f c h).world (σ.after f c h).unreturned := by
  obtain ⟨args, named, heq⟩ | ⟨w, rfl, heq⟩ | ⟨a, rest, resume, reply, hrest, hresume, heq⟩ | heq :=
    after_cases (f := f) (c := c) horder
  · obtain ⟨S, hS⟩ := hheld.scope
    rw [heq]
    exact hheld.stop (Interp.activated_work f args named hS)
  · rw [heq]
    exact hheld.later hcalm
  · rw [hrest] at hheld
    obtain ⟨hnow, -, hcalled, hbegan⟩ := hheld
    rw [heq]
    exact hbegan.stop (.inr (hcalled resume hresume reply σ.world hnow))
  · rw [heq]
    exact hheld

theorem Held.findsOwn (h : Held c now (a :: rest)) : a.FindsOwn c now := by
  obtain ⟨hnow, ⟨left, hne, hleft⟩, -, hrest⟩ := h
  have hformed := hrest.formed
  obtain ⟨S₀, S, hS₀, hS, hstack, -⟩ := hleft.kept.scope
  have hprivate {t : TableId} (ht : t ∈ S.stack) (hnew : a.began.tables.size ≤ t) :
      a.stopped.Private c t := by
    rw [hstack] at ht
    rcases List.mem_append.1 ht with hmem | hmem
    · exact hleft.opened hformed t hmem
    · rw [← World.scope_context hS₀] at hmem
      exact absurd ((hformed c).2.2 t hmem) (Nat.not_lt.2 hnew)
  have hbound {t : TableId} (ht : t ∈ S.stack) (hnew : a.began.tables.size ≤ t) {key : Key}
      (hkey : ¬ now.Declares key) : (now.table t).get? key = (a.stopped.table t).get? key :=
    (Sheltered.spares hnow t (hprivate ht hnew) id key).resolve_left hkey
  constructor
  · grind
  · intro T name v hT hv hname hglobal
    obtain rfl : S = T := Option.some.inj (hS.symm.trans hT)
    have hcurrent : a.began.tables.size ≤ S.current := by
      obtain ⟨t, ht, hnew, -⟩ := hleft.kept.currentTable? hne
      have : some S.current = some t := by
        rw [← ht, World.currentTable?, hS]
        rfl
      rwa [Option.some.inj this]
    have hscope : (now.context c).current = S.current := by
      have := World.scope_context ((hnow.kept.scope_eq_iff.2 rfl).trans hS)
      rw [← this]
      rfl
    have hvalue := (hbound (List.mem_cons_self ..) hcurrent hname).trans hv
    have hnonlocal : ¬ now.isNonlocal (now.context c) name := fun h ↦
      hname (World.declares_of_isNonlocal h)
    simp only [World.nameValue, hglobal, hnonlocal, World.bound?, hscope, hvalue, Option.some_or]
    rfl

theorem Held.throughout (hheld : Held c σ.world σ.unreturned)
    (hcalm : Throughout f c (Calm c) σ happenings) (horder : Throughout f c InOrder σ happenings) :
    Throughout f c (OwnValues c) σ happenings := by
  induction happenings generalizing σ with
  | nil => trivial
  | cons h rest ih =>
    refine ⟨?_, ih (hheld.after hcalm.1 horder.1) hcalm.2 horder.2⟩
    cases h with
    | begins args named => trivial
    | other w => trivial
    | resumes i reply =>
      intro a ha hsome
      obtain rfl : i = 0 := horder.1 a ha hsome
      cases hσ : σ.unreturned with
      | nil => simp [hσ] at ha
      | cons b later =>
        obtain rfl : b = a := by simpa [hσ] using ha
        rw [hσ] at hheld
        exact hheld.findsOwn

/-- **Activations are resumed in their own tables if and only if they are resumed in order**: each
only after all that began later have returned. Then each finds its whole scope and, if others leave
its tables alone, the values that it bound. Out of order, an activation looks names up in a table
that was opened after it had stopped. An activation that was cancelled, or that an error left, never
returns, so those before it cannot be resumed in order any more. -/
theorem own_table_iff_in_order (f : Ref) (c : ContextId) {w : World} {S : Scope}
    (hS : w.scope? c = some S) {happenings : List Happening}
    (hapart : Throughout f c (Apart c) ⟨w, []⟩ happenings) :
    (Throughout f c (OwnTable c) ⟨w, []⟩ happenings ↔ Throughout f c InOrder ⟨w, []⟩ happenings) ∧
      (Throughout f c (OwnScope c) ⟨w, []⟩ happenings ↔ Throughout f c InOrder ⟨w, []⟩ happenings) ∧
      (w.Formed → Throughout f c (Calm c) ⟨w, []⟩ happenings →
        Throughout f c InOrder ⟨w, []⟩ happenings →
          Throughout f c (OwnValues c) ⟨w, []⟩ happenings) := by
  have hchain : Chain c (Activations.mk w []).world (Activations.mk w []).unreturned := ⟨S, hS⟩
  refine ⟨hchain.throughout_iff Chain.ownTable_iff hapart,
    hchain.throughout_iff Chain.ownScope_iff hapart, fun hformed hcalm horder ↦ ?_⟩
  have hheld : Held c (Activations.mk w []).world (Activations.mk w []).unreturned :=
    ⟨hformed, S, hS⟩
  exact hheld.throughout hcalm horder

def givingBack : World where
  start := default
  store.functions := #[
    { name := "f", params := .params [] [.param "x" none] none [] [] none [], doc := none
      body := [
        .expr ⟨2, 4⟩
          (.call ⟨2, 4⟩ (.name ⟨2, 4⟩ "claim" .load) [.constant ⟨2, 10⟩ (.text "n") none] []),
        .ret ⟨3, 4⟩ (some (.name ⟨3, 11⟩ "x" .load))] }]
  tables := #[⟨[(some "claim", .host .unique)]⟩]
  contexts := #[{ name := "f", globals := 0, current := 0, locals := 0 }]
  claims := [(.text "n", 0)]

def givingBackTwice : Activations :=
  (Activations.after 0 0 ⟨givingBack, []⟩ (.begins [.int 1] .none)).after 0 0
    (.begins [.int 2] .none)

theorem formed_givingBack : givingBack.Formed := by
  intro c
  cases c with
  | zero => exact ⟨by decide, by decide, by decide⟩
  | succ c =>
    simp [World.context, Context.Within, Context.scope, Scope.stack, givingBack]

def secondFirst : List Happening :=
  [.begins [.int 1] .none, .begins [.int 2] .none, .resumes 0 .go, .resumes 0 .go]

/-- Both wait, and as they are resumed in order they find their own tables and values. -/
theorem own_table_iff_in_order_givingBack :
    givingBackTwice.unreturned.length = 2 ∧
      Throughout 0 0 (OwnTable 0) ⟨givingBack, []⟩ secondFirst ∧
      Throughout 0 0 (OwnValues 0) ⟨givingBack, []⟩ secondFirst := by
  have hapart : Throughout 0 0 (Apart 0) ⟨givingBack, []⟩ secondFirst :=
    ⟨trivial, trivial, trivial, trivial, trivial⟩
  have hcalm : Throughout 0 0 (Calm 0) ⟨givingBack, []⟩ secondFirst :=
    ⟨trivial, trivial, trivial, trivial, trivial⟩
  have horder : Throughout 0 0 InOrder ⟨givingBack, []⟩ secondFirst :=
    ⟨trivial, trivial, fun _ _ _ ↦ rfl, fun _ _ _ ↦ rfl, trivial⟩
  obtain ⟨htable, -, hvalues⟩ := own_table_iff_in_order 0 0 rfl hapart
  exact ⟨rfl, htable.2 horder, hvalues formed_givingBack hcalm horder⟩

def givenBack? : Step Value → Option Int
  | .ended (.ok (.int n)) _ => some n
  | _ => none

/-- **Out of order an activation reads what another one was called with**: the first, called with 1,
gives 2 back. -/
theorem first_gives_back_second :
    (givingBackTwice.unreturned[1]?.bind (·.resume)).map
      (fun resume ↦ givenBack? (resume .go givingBackTwice.world)) = some (some 2) := by
  decide +kernel

end Activations

end TriggerScript
