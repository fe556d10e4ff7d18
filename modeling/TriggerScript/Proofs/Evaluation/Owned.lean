import TriggerScript.Proofs.Evaluation.Locals

/-!
# What belongs to an activity

An activity reads and runs scripts in contexts of its own and waits on queues of its own, and so is
what it makes on the way. What it owns grows slice by slice, each time by what is new since the
slice began. `Step.Minds E w₀` says that an activity keeps to what it owns. Minding one's own is a
family of regimes (`minding`), so all of evaluation does.
-/

namespace TriggerScript

open Syntax (Position Stmt)

/-- There are at least as many contexts and queues as before. -/
structure World.Widens (w w' : World) : Prop where
  contexts : w.contexts.size ≤ w'.contexts.size
  queues : w.queues.size ≤ w'.queues.size

namespace World.Widens

variable {w w₁ w' : World}

theorem refl (w : World) : w.Widens w := ⟨Nat.le_refl _, Nat.le_refl _⟩

theorem trans (h₁ : w.Widens w₁) (h₂ : w₁.Widens w') : w.Widens w' :=
  ⟨Nat.le_trans h₁.contexts h₂.contexts, Nat.le_trans h₁.queues h₂.queues⟩

theorem of_eq (hcontexts : w'.contexts = w.contexts) (hqueues : w'.queues = w.queues) :
    w.Widens w' :=
  ⟨Nat.le_of_eq (by rw [hcontexts]), Nat.le_of_eq (by rw [hqueues])⟩

end World.Widens

theorem Act.widens {E : Owned} {p : Site} {w w' : World} (h : Act E p w w') : w.Widens w' := by
  induction h with
  | trans _ _ ih₁ ih₂ => exact ih₁.trans ih₂
  | context w c name =>
    exact ⟨by simp [World.addContext, World.addTable], Nat.le_refl _⟩
  | install w _ t =>
    exact ⟨by simp [World.addTable, World.updateContext], Nat.le_refl _⟩
  | remember w hc f hf => exact ⟨by simp [World.updateContext], Nat.le_refl _⟩
  | addQueue w name => exact ⟨Nat.le_refl _, by simp [World.addQueue]⟩
  | take w _ rest => exact ⟨Nat.le_refl _, by simp⟩
  | _ => exact .of_eq rfl rfl

/-! ### How it grows -/

namespace Owned

variable {E E' : Owned} {w w₁ w' : World}

def aloof : Owned := ⟨fun _ ↦ True, fun _ ↦ False⟩

def beyond (E : Owned) (w : World) : Owned where
  contexts c := E.contexts c ∨ w.contexts.size ≤ c
  queues q := E.queues q ∨ w.queues.size ≤ q

def between (E : Owned) (w w' : World) : Owned where
  contexts c := E.contexts c ∨ w.contexts.size ≤ c ∧ c < w'.contexts.size
  queues q := E.queues q ∨ w.queues.size ≤ q ∧ q < w'.queues.size

theorem le_beyond (E : Owned) (w : World) : E ≤ E.beyond w := ⟨fun _ ↦ .inl, fun _ ↦ .inl⟩

theorem le_between (E : Owned) (w w' : World) : E ≤ E.between w w' := ⟨fun _ ↦ .inl, fun _ ↦ .inl⟩

theorem beyond_mono (h : E ≤ E') (w : World) : E.beyond w ≤ E'.beyond w :=
  ⟨fun c ↦ Or.imp_left (h.1 c), fun q ↦ Or.imp_left (h.2 q)⟩

theorem between_mono (h : E ≤ E') (w w' : World) : E.between w w' ≤ E'.between w w' :=
  ⟨fun c ↦ Or.imp_left (h.1 c), fun q ↦ Or.imp_left (h.2 q)⟩

theorem between_beyond_le (h : w.Widens w₁) : (E.between w w₁).beyond w₁ ≤ E.beyond w := by
  constructor
  · rintro c ((hc | ⟨hc, -⟩) | hc)
    · exact .inl hc
    · exact .inr hc
    · exact .inr (Nat.le_trans h.contexts hc)
  · rintro q ((hq | ⟨hq, -⟩) | hq)
    · exact .inl hq
    · exact .inr hq
    · exact .inr (Nat.le_trans h.queues hq)

theorem between_between_le (h : w.Widens w₁) (h' : w₁.Widens w') :
    (E.between w w₁).between w₁ w' ≤ E.between w w' := by
  constructor
  · rintro c ((hc | ⟨hlow, hhigh⟩) | ⟨hlow, hhigh⟩)
    · exact .inl hc
    · exact .inr ⟨hlow, Nat.lt_of_lt_of_le hhigh h'.contexts⟩
    · exact .inr ⟨Nat.le_trans h.contexts hlow, hhigh⟩
  · rintro q ((hq | ⟨hlow, hhigh⟩) | ⟨hlow, hhigh⟩)
    · exact .inl hq
    · exact .inr ⟨hlow, Nat.lt_of_lt_of_le hhigh h'.queues⟩
    · exact .inr ⟨Nat.le_trans h.queues hlow, hhigh⟩

end Owned

/-! ### Changes of the world -/

/-- How the world may change at the hands of one who owns `E`. -/
inductive Evolves (E : Owned) : World → World → Prop
  | refl (w : World) : Evolves E w w
  | act {p : Site} (hp : E.contexts p.context) {w w' : World} (h : Act E p w w') : Evolves E w w'
  | enter {c : ContextId} (hc : E.contexts c) (f : Ref) (T : Table) (w : World) :
    Evolves E w (Interp.entered c f T w)
  | leave {c : ContextId} (hc : E.contexts c) {t : TableId} {rest : List TableId} {w : World}
    (caller : Option Ref) (h : (w.context c).suspended = t :: rest) :
    Evolves E w (Interp.returned c t rest caller w)
  | trans {w w₁ w' : World} (h₁ : Evolves E w w₁) (h₂ : Evolves E w₁ w') : Evolves E w w'

namespace Evolves

variable {E E' : Owned} {w w' : World}

theorem mono (h : Evolves E w w') (hE : E ≤ E') : Evolves E' w w' := by
  induction h with
  | refl w => exact .refl w
  | act hp h => exact .act (hE.1 _ hp) (h.mono hE)
  | enter hc f T w => exact .enter (hE.1 _ hc) f T w
  | leave hc caller h => exact .leave (hE.1 _ hc) caller h
  | trans _ _ ih₁ ih₂ => exact ih₁.trans ih₂

theorem widens (h : Evolves E w w') : w.Widens w' := by
  induction h with
  | refl w => exact .refl w
  | act _ h => exact h.widens
  | enter _ f T w =>
    exact ⟨by simp [Interp.entered, World.addTable, World.updateContext], Nat.le_refl _⟩
  | leave _ caller h => exact ⟨by simp [Interp.returned, World.updateContext], Nat.le_refl _⟩
  | trans _ _ ih₁ ih₂ => exact ih₁.trans ih₂

end Evolves

/-! ### Activities that mind their own -/

namespace Step

variable {α β : Type} {E E' : Owned} {w₀ w₁ : World} {s : Step α}

def Minds : Owned → World → Step α → Prop
  | E, w₀, ended _ w => Evolves (E.beyond w₀) w₀ w
  | E, w₀, waiting request w resume =>
    Evolves (E.beyond w₀) w₀ w ∧ request.Within (E.between w₀ w).queues ∧
      ∀ reply w₁, w.Widens w₁ → (resume reply w₁).Minds (E.between w₀ w) w₁

namespace Minds

theorem mono (h : s.Minds E w₀) (hE : E ≤ E') : s.Minds E' w₀ := by
  induction s generalizing E E' w₀ with
  | ended r w => exact Evolves.mono h (Owned.beyond_mono hE w₀)
  | waiting request w resume ih =>
    obtain ⟨hevolves, hwithin, hresume⟩ := h
    have hmore := Owned.between_mono hE w₀ w
    exact ⟨hevolves.mono (Owned.beyond_mono hE w₀), hwithin.mono hmore.2,
      fun reply w₁ hw₁ ↦ ih reply w₁ (hresume reply w₁ hw₁) hmore⟩

theorem after (h : s.Minds E' w₁) (h₀ : Evolves (E.beyond w₀) w₀ w₁) (hE : E' ≤ E.between w₀ w₁) :
    s.Minds E w₀ := by
  have hbeyond : E'.beyond w₁ ≤ E.beyond w₀ :=
    Owned.le_trans (Owned.beyond_mono hE w₁) (Owned.between_beyond_le h₀.widens)
  cases s with
  | ended r w => exact h₀.trans (Evolves.mono h hbeyond)
  | waiting request w resume =>
    obtain ⟨hevolves, hwithin, hresume⟩ := h
    have hmore : E'.between w₁ w ≤ E.between w₀ w :=
      Owned.le_trans (Owned.between_mono hE w₁ w)
        (Owned.between_between_le h₀.widens hevolves.widens)
    exact ⟨h₀.trans (hevolves.mono hbeyond), hwithin.mono hmore.2,
      fun reply w₂ hw₂ ↦ (hresume reply w₂ hw₂).mono hmore⟩

theorem bind {k : α → World → Step β} (h : s.Minds E w₀) (hk : ∀ a w, (k a w).Minds E w) :
    (s.bind k).Minds E w₀ := by
  induction s generalizing E w₀ with
  | ended r w =>
    cases r with
    | ok a => exact (hk a w).after h (E.le_between w₀ w)
    | error e => exact h
  | waiting request w resume ih =>
    obtain ⟨hevolves, hwithin, hresume⟩ := h
    -- the second part begins with owning more than it needs
    exact ⟨hevolves, hwithin, fun reply w₁ hw₁ ↦
      ih reply w₁ (hresume reply w₁ hw₁) fun a w' ↦ (hk a w').mono (E.le_between w₀ w)⟩

theorem attempt (h : s.Minds E w₀) : s.attempt.Minds E w₀ := by
  induction s generalizing E w₀ with
  | ended r w =>
    rcases r with (f | _ | _) | a <;> exact h
  | waiting request w resume ih =>
    obtain ⟨hevolves, hwithin, hresume⟩ := h
    exact ⟨hevolves, hwithin, fun reply w₁ hw₁ ↦ ih reply w₁ (hresume reply w₁ hw₁)⟩

end Minds

end Step

namespace Activity

variable {α β : Type} {E E' : Owned} {p : Site} {c : ContextId}

def Minds (E : Owned) (x : Activity α) : Prop := ∀ w, (x w).Minds E w

theorem Minds.bind {x : Activity α} {f : α → Activity β} (hx : Minds E x)
    (hf : ∀ a, Minds E (f a)) : Minds E (x >>= f) :=
  fun w ↦ (hx w).bind hf

theorem Proper.minds {x : Activity α} (hx : Proper E p x) (hp : E.contexts p.context) :
    Minds E x := by
  intro w
  obtain ⟨r, w', hend, hact⟩ := hx w
  rw [hend]
  exact .act ((E.le_beyond w).1 _ hp) (hact.mono (E.le_beyond w))

theorem Pauses.minds {x : Activity α} (hx : Pauses E.queues x) : Minds E x := by
  intro w
  obtain ⟨request, resume, hwait, hwithin, hresume⟩ := hx w
  rw [hwait]
  refine ⟨.refl w, hwithin.mono (E.le_between w w).2, fun reply w₁ _ ↦ ?_⟩
  obtain ⟨r, hend⟩ := hresume reply w₁
  rw [hend]
  exact .refl w₁

theorem minds_read (f : World → α) : Minds E (read f) := fun w ↦ .refl w

theorem Minds.guarded {x : Activity α} (hx : Minds E x) (hc : E.contexts c) (pos : Option Position)
    (fallback : α) : Minds E (guarded c pos fallback x) := by
  have hattempt : Minds E x.attempt := fun w ↦ (hx w).attempt
  exact hattempt.bind fun r ↦ (proper_standIn (p := ⟨c, false⟩) hc pos fallback r).minds hc

theorem minds_newContextBeside (e : ContextId) (name : String) {f : ContextId → Activity β}
    (hp : E.contexts p.context) (hf : ∀ d, Minds (E.withContext d) (f d)) :
    Minds E (newContextBeside e name >>= f) := by
  intro w
  refine (hf w.contexts.size _).after (.act (p := p) ((E.le_beyond w).1 _ hp) (.context w e name))
    (Owned.withContext_le (E.le_between ..) (.inr ⟨Nat.le_refl _, ?_⟩))
  simp [World.addContext, World.addTable]

theorem minds_addQueue (name : String) {f : Notify.QueueId → Activity β} (hp : E.contexts p.context)
    (hf : ∀ q, Minds (E.withQueue q) (f q)) : Minds E (modifyGet (·.addQueue name) >>= f) := by
  intro w
  refine (hf w.queues.size _).after (.act (p := p) ((E.le_beyond w).1 _ hp) (.addQueue w name))
    (Owned.withQueue_le (E.le_between ..) (.inr ⟨Nat.le_refl _, ?_⟩))
  simp [World.addQueue]

end Activity

theorem Interp.minds_callBody {E : Owned} {I : Interp} {c : ContextId} (hc : E.contexts c) (r : Ref)
    (t : Table) {stmts : List Stmt} (hbody : Activity.Minds E (I.body c stmts)) :
    Activity.Minds E (I.callBody c r t stmts) := by
  intro w
  have hclosing (caller : Option Ref) (v : Value) : Activity.Minds E (closing c caller v) := by
    refine Activity.Minds.bind (fun w ↦ ?_) fun _ ↦ Activity.minds_read fun _ ↦ v
    rw [leave_apply]
    split
    · exact .refl w
    · exact .leave ((E.le_beyond w).1 _ hc) caller ‹_›
  rw [callBody_apply]
  have hinside : (I.body c stmts (entered c r t w)).Minds E w :=
    (hbody _).after (.enter ((E.le_beyond w).1 _ hc) r t w) (E.le_between _ _)
  exact hinside.bind (hclosing _)

def minding : RegimeFamily where
  regime E :=
    { own := E
      Obeys p _ x := E.contexts p.context → Activity.Minds E x
      prompt hx hp := hx.minds hp
      pausing hx _ := hx.minds
      bind hx hf hp := (hx hp).bind fun a ↦ hf a hp
      guarded _ pos fallback _ _ hx hc := (hx hc).guarded hc pos fallback
      callBody _ _ r t _ hbody hc := Interp.minds_callBody hc r t (hbody hc)
      runTree _ _ hc hscript _ :=
        Interp.runTree_of_sequence (P := Activity.Minds E) Activity.minds_read Activity.Minds.bind
          (fun pos fallback _ _ hx ↦ hx.guarded hc pos fallback) fun stmts ↦ hscript stmts hc }
  owns := Owned.le_refl
  fresh c name _ hf hp := Activity.minds_newContextBeside c name hp fun e ↦ hf e (.inl hp)
  freshQueue name _ hf hp := Activity.minds_addQueue name hp fun q ↦ hf q hp

end TriggerScript
