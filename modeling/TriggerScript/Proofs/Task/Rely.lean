import TriggerScript.Proofs.Evaluation.Layers

/-!
# Rely and guarantee

A task runs in slices, and between its slices others change the world. `Step.Under R G Q w₀` says of
an activity, wherever it stands in a slice that began at `w₀`: if others keep to `R` while it waits,
each of its slices keeps to `G`, and a result comes with `Q`. In a sequence (`Under.bind`) the last
slice of the first part and the first slice of the second are one slice, so their guarantees have to
compose.
-/

namespace TriggerScript

open Activity
open Syntax (Position Stmt)

abbrev Rely := Request → World → World → Prop

def Rely.free : Rely := fun _ _ _ ↦ True

namespace Step

variable {α β : Type} {R R' : Rely} {G G' : World → World → Prop} {Q : α → World → Prop}
  {w₀ w₁ : World} {s : Step α}

def Under (R : Rely) (G : World → World → Prop) (Q : α → World → Prop) : World → Step α → Prop
  | w₀, ended r w => G w₀ w ∧ ∀ a, r = .ok a → Q a w
  | w₀, waiting request w resume =>
    G w₀ w ∧ ∀ reply w₁, R request w w₁ → (resume reply w₁).Under R G Q w₁

def world : Step α → World
  | ended _ w => w
  | waiting _ w _ => w

namespace Under

theorem guarantee (h : s.Under R G Q w₀) : G w₀ s.world := by
  cases s <;> exact h.1

variable {Q' : α → World → Prop}

theorem mono (h : s.Under R G Q w₀) (hR : ∀ r w w', R' r w w' → R r w w')
    (hG : ∀ w w', G w w' → G' w w') (hQ : ∀ a w, Q a w → Q' a w) : s.Under R' G' Q' w₀ := by
  induction s generalizing w₀ with
  | ended r w => exact ⟨hG _ _ h.1, fun a ha ↦ hQ a w (h.2 a ha)⟩
  | waiting request w resume ih =>
    exact ⟨hG _ _ h.1, fun reply w₁ hw₁ ↦ ih reply w₁ (h.2 reply w₁ (hR _ _ _ hw₁))⟩

theorem after (h : s.Under R G Q w₁) (hG : ∀ w, G w₁ w → G' w₀ w) (hle : ∀ w w', G w w' → G' w w') :
    s.Under R G' Q w₀ := by
  cases s with
  | ended r w => exact ⟨hG _ h.1, h.2⟩
  | waiting request w resume =>
    exact ⟨hG _ h.1, fun reply w₁ hw₁ ↦ (h.2 reply w₁ hw₁).mono (fun _ _ _ h ↦ h) hle fun _ _ h ↦ h⟩

theorem bind {k : α → World → Step β} {Q' : β → World → Prop} (h : s.Under R G Q w₀)
    (hle : ∀ w w', G w w' → G' w w') (htrans : ∀ w w₁ w', G w w₁ → G' w₁ w' → G' w w')
    (hk : ∀ a w, Q a w → (k a w).Under R G' Q' w) : (s.bind k).Under R G' Q' w₀ := by
  induction s generalizing w₀ with
  | ended r w =>
    cases r with
    | ok a => exact (hk a w (h.2 a rfl)).after (fun w' ↦ htrans _ _ _ h.1) fun _ _ h ↦ h
    | error e => exact ⟨hle _ _ h.1, nofun⟩
  | waiting request w resume ih =>
    exact ⟨hle _ _ h.1, fun reply w₁ hw₁ ↦ ih reply w₁ (h.2 reply w₁ hw₁)⟩

theorem map (h : s.Under R G Q w₀) (f : α → β) :
    (s.bind fun a w ↦ .ended (.ok (f a)) w).Under R G (fun _ _ ↦ True) w₀ := by
  induction s generalizing w₀ with
  | ended r w => cases r <;> exact ⟨h.1, fun _ _ ↦ trivial⟩
  | waiting request w resume ih => exact ⟨h.1, fun reply w₁ hw₁ ↦ ih reply w₁ (h.2 reply w₁ hw₁)⟩

theorem attempt (h : s.Under R G Q w₀) :
    s.attempt.Under R G (fun r w ↦ ∀ a, r = .ok a → Q a w) w₀ := by
  induction s generalizing w₀ with
  | ended r w =>
    match r, h with
    | .ok a, h =>
      refine ⟨h.1, ?_⟩
      rintro _ ⟨⟩ _ ⟨⟩
      exact h.2 a rfl
    | .error (.raised f), h =>
      refine ⟨h.1, ?_⟩
      rintro _ ⟨⟩ _ ⟨⟩
    | .error .cancelled, h => exact ⟨h.1, nofun⟩
    | .error .outOfFuel, h => exact ⟨h.1, nofun⟩
  | waiting request w resume ih =>
    exact ⟨h.1, fun reply w₁ hw₁ ↦ ih reply w₁ (h.2 reply w₁ hw₁)⟩

theorem and (h : s.Under R G Q w₀) (h' : s.Under R G' Q' w₀) :
    s.Under R (fun w w' ↦ G w w' ∧ G' w w') (fun a w ↦ Q a w ∧ Q' a w) w₀ := by
  induction s generalizing w₀ with
  | ended r w => exact ⟨⟨h.1, h'.1⟩, fun a ha ↦ ⟨h.2 a ha, h'.2 a ha⟩⟩
  | waiting request w resume ih =>
    exact ⟨⟨h.1, h'.1⟩, fun reply w₁ hw₁ ↦ ih reply w₁ (h.2 reply w₁ hw₁) (h'.2 reply w₁ hw₁)⟩

theorem holding {K : World → Prop} (h : s.Under R G Q w₀) (hR : ∀ r w w', R r w w' → K w → K w')
    (hG : ∀ w w', G w w' → K w → K w') (h₀ : K w₀) :
    s.Under R (fun w w' ↦ G w w' ∧ K w') (fun a w ↦ Q a w ∧ K w) w₀ := by
  induction s generalizing w₀ with
  | ended r w =>
    have hw := hG _ _ h.1 h₀
    exact ⟨⟨h.1, hw⟩, fun a ha ↦ ⟨h.2 a ha, hw⟩⟩
  | waiting request w resume ih =>
    have hw := hG _ _ h.1 h₀
    exact ⟨⟨h.1, hw⟩, fun reply w₁ hw₁ ↦ ih reply w₁ (h.2 reply w₁ hw₁) (hR _ _ _ hw₁ hw)⟩

end Under

end Step

namespace Activity

variable {α β : Type} {G : World → World → Prop}

def Grants (G : World → World → Prop) (x : Activity α) : Prop :=
  ∀ w, (x w).Under .free G (fun _ _ ↦ True) w

variable {x : Activity α}

theorem Grants.bind {f : α → Activity β} (hx : x.Grants G)
    (htrans : ∀ w w₁ w', G w w₁ → G w₁ w' → G w w') (hf : ∀ a, (f a).Grants G) :
    (x >>= f).Grants G :=
  fun w ↦ (hx w).bind (fun _ _ h ↦ h) htrans fun a w _ ↦ hf a w

theorem Grants.attempt (hx : x.Grants G) : x.attempt.Grants G :=
  fun w ↦ (hx w).attempt.mono (fun _ _ _ h ↦ h) (fun _ _ h ↦ h) fun _ _ _ ↦ trivial

theorem grants_of_ended (hx : ∀ w, ∃ r w', x w = .ended r w' ∧ G w w') : x.Grants G := by
  intro w
  obtain ⟨r, w', hend, hG⟩ := hx w
  rw [hend]
  exact ⟨hG, fun _ _ ↦ trivial⟩

theorem Pauses.grants {Q : Notify.QueueId → Prop} (hx : x.Pauses Q) (hrefl : ∀ w, G w w) :
    x.Grants G := by
  intro w
  obtain ⟨request, resume, hwait, -, hresume⟩ := hx w
  rw [hwait]
  refine ⟨hrefl w, fun reply w₁ _ ↦ ?_⟩
  obtain ⟨r, hend⟩ := hresume reply w₁
  rw [hend]
  exact ⟨hrefl w₁, fun _ _ ↦ trivial⟩

theorem grants_modify {f : World → World} (hf : ∀ w, G w (f w)) : (modify f).Grants G :=
  grants_of_ended fun w ↦ ⟨_, _, rfl, hf w⟩

theorem grants_read (hrefl : ∀ w, G w w) (f : World → α) : (read f).Grants G :=
  grants_of_ended fun w ↦ ⟨_, w, rfl, hrefl w⟩

theorem Grants.guarded (hx : x.Grants G) (hrefl : ∀ w, G w w)
    (htrans : ∀ w w₁ w', G w w₁ → G w₁ w' → G w w')
    (hframe : ∀ (w : World) tables contexts log, G w { w with tables, contexts, log })
    (c : ContextId)
    (pos : Option Syntax.Position) (fallback : α) : (guarded c pos fallback x).Grants G := by
  refine hx.attempt.bind htrans fun r ↦ grants_of_ended fun w ↦ ?_
  unfold standIn
  split
  · exact ⟨_, w, rfl, hrefl w⟩
  · exact ⟨_, w, rfl, hrefl w⟩
  · exact ⟨_, _, rfl, hframe w w.tables _ _⟩

end Activity

def Discipline.granting (G : World → World → Prop) (hrefl : ∀ w, G w w)
    (htrans : ∀ w w₁ w', G w w₁ → G w₁ w' → G w w') (hact : ∀ E p w w', Act E p w w' → G w w')
    (hframe : ∀ (w : World) tables contexts log, G w { w with tables, contexts, log }) :
    Discipline where
  own := .whole
  Obeys _ := Activity.Grants G
  prompt hx := grants_of_ended fun w ↦ by
    obtain ⟨r, w', hend, hw'⟩ := hx w
    exact ⟨r, w', hend, hact _ _ w w' hw'⟩
  pausing hx := hx.grants hrefl
  bind hx hf := hx.bind htrans hf
  fresh c name _ hf := by
    refine .bind (grants_of_ended fun w ↦ ?_) htrans fun e ↦ hf e trivial
    exact ⟨_, _, rfl, hframe w _ _ w.log⟩
  guarded c pos fallback _ _ hx := hx.guarded hrefl htrans hframe c pos fallback
  callBody I c r t stmts hbody := by
    refine .bind (grants_read hrefl _) htrans fun ctx ↦ ?_
    refine .bind (grants_modify fun w ↦ hframe w _ _ w.log) htrans fun _ ↦ ?_
    refine hbody.bind htrans fun v ↦ .bind ?_ htrans fun _ ↦ grants_read hrefl fun _ ↦ v
    refine .bind (grants_read hrefl _) htrans fun ctx ↦ ?_
    split
    · exact grants_of_ended fun w ↦ ⟨_, w, rfl, hrefl w⟩
    · exact grants_modify fun w ↦ hframe w w.tables _ w.log
  runTree _ _ _ hscript :=
    Interp.runTree_of_sequence (P := Activity.Grants G) (grants_read hrefl)
      (fun hx hf ↦ hx.bind htrans hf)
      (fun pos fallback _ _ hx ↦ hx.guarded hrefl htrans hframe _ pos fallback) hscript
  queues _ := trivial

end TriggerScript
