import TriggerScript.Proofs.Task.Machine

/-!
# Runs that finish

Sequences are taken apart at the end of their first part (`Finishes.of_bind`).

`scheduled` is what a scheduler does: others do whatever they do, the clock is not set back, and the
request is answered when it can be. So nobody who waits for an instant goes on before it
(`le_elapsed_of_until`), and no message comes after the end of patience (`receiveFor_none`,
`receiveFor_some`).
-/

namespace TriggerScript

/-- What others may do to the world before a request is answered. -/
abbrev Environment := Request → World → Reply → World → Prop

namespace Step

variable {α β : Type} {E : Environment} {w w' w₁ : World}

/-- The activity, from where it stands, comes to an end in a world, if what happens while it waits
is as `E` says. -/
inductive Finishes (E : Environment) {α : Type} : Step α → Except Stop α → World → Prop
  | ended (r : Except Stop α) (w : World) : Finishes E (.ended r w) r w
  | resumed {request : Request} {w w₁ w' : World} {resume : Reply → World → Step α}
      {r : Except Stop α} (reply : Reply) (h : E request w reply w₁)
      (hrest : Finishes E (resume reply w₁) r w') : Finishes E (.waiting request w resume) r w'

theorem finishes_ended {r r' : Except Stop α} : (ended r w).Finishes E r' w' ↔ r = r' ∧ w = w' := by
  constructor
  · rintro ⟨⟩
    exact ⟨rfl, rfl⟩
  · rintro ⟨rfl, rfl⟩
    exact .ended _ _

def caught : Except Stop α → Except Stop (Except Fault α)
  | .ok a => .ok (.ok a)
  | .error (.raised f) => .ok (.error f)
  | .error .cancelled => .error .cancelled
  | .error .outOfFuel => .error .outOfFuel

theorem attempt_ended (r : Except Stop α) (w : World) :
    (ended r w).attempt = ended (caught r) w := by
  rcases r with (f | _ | _) | a <;> rfl

namespace Finishes

variable {s : Step α} {k : α → World → Step β}

theorem mono {E' : Environment}
    (hE : ∀ request w reply w', E request w reply w' → E' request w reply w') {r : Except Stop α}
    (h : s.Finishes E r w') : s.Finishes E' r w' := by
  induction h with
  | ended r w => exact .ended r w
  | resumed reply hreply _ ih => exact .resumed reply (hE _ _ _ _ hreply) ih

theorem of_bind {r : Except Stop β} (h : (s.bind k).Finishes E r w') :
    (∃ a w₁, s.Finishes E (.ok a) w₁ ∧ (k a w₁).Finishes E r w') ∨
      ∃ e, s.Finishes E (.error e) w' ∧ r = .error e := by
  induction s with
  | ended r₁ w₁ =>
    cases r₁ with
    | ok a => exact .inl ⟨a, w₁, .ended _ _, h⟩
    | error e =>
      cases h
      exact .inr ⟨e, .ended _ _, rfl⟩
  | waiting request w₁ resume ih =>
    obtain _ | ⟨reply, hreply, hrest⟩ := h
    rcases ih reply _ hrest with ⟨a, w₂, hfirst, hsecond⟩ | ⟨e, hfirst, hr⟩
    · exact .inl ⟨a, w₂, .resumed reply hreply hfirst, hsecond⟩
    · exact .inr ⟨e, .resumed reply hreply hfirst, hr⟩

theorem of_bind_ok {b : β} (h : (s.bind k).Finishes E (.ok b) w') :
    ∃ a w₁, s.Finishes E (.ok a) w₁ ∧ (k a w₁).Finishes E (.ok b) w' := by
  rcases h.of_bind with hboth | ⟨e, -, he⟩
  · exact hboth
  · cases he

theorem bind {r : Except Stop β} {a : α} (h : s.Finishes E (.ok a) w)
    (hk : (k a w).Finishes E r w') : (s.bind k).Finishes E r w' := by
  generalize hr : (Except.ok a : Except Stop α) = r₁ at h
  induction h with
  | ended r₁ w =>
    subst hr
    exact hk
  | resumed reply hreply _ ih => exact .resumed reply hreply (ih hk hr)

theorem failed {e : Stop} (h : s.Finishes E (.error e) w) : (s.bind k).Finishes E (.error e) w := by
  generalize hr : (Except.error e : Except Stop α) = r₁ at h
  induction h with
  | ended r₁ w =>
    subst hr
    exact .ended _ _
  | resumed reply hreply _ ih => exact .resumed reply hreply (ih hr)

theorem attempt {r : Except Stop α} (h : s.Finishes E r w) : s.attempt.Finishes E (caught r) w := by
  induction h with
  | ended r w =>
    rw [attempt_ended]
    exact .ended _ _
  | resumed reply hreply _ ih => exact .resumed reply hreply ih

theorem of_attempt {r' : Except Stop (Except Fault α)} (h : s.attempt.Finishes E r' w') :
    ∃ r, s.Finishes E r w' ∧ r' = caught r := by
  induction s with
  | ended r w =>
    rw [attempt_ended] at h
    cases h
    exact ⟨r, .ended _ _, rfl⟩
  | waiting request w₁ resume ih =>
    obtain _ | ⟨reply, hreply, hrest⟩ := h
    obtain ⟨r, hr, hcaught⟩ := ih reply _ hrest
    exact ⟨r, .resumed reply hreply hr, hcaught⟩

end Finishes

end Step

/-! ### Activities that end at once -/

namespace Activity

variable {α β : Type} {G : World → World → Prop}

variable {x : Activity α} {w w' : World} {f : α → Activity β}

theorem bind_eq_ended_ok {b : β} (h : (x >>= f) w = .ended (.ok b) w') :
    ∃ a w₁, x w = .ended (.ok a) w₁ ∧ f a w₁ = .ended (.ok b) w' := by
  have h : (x w).bind f = .ended (.ok b) w' := h
  generalize x w = s at h
  cases s with
  | waiting request w₁ resume => cases h
  | ended r w₁ =>
    cases r with
    | ok a => exact ⟨a, w₁, rfl, h⟩
    | error e => cases h

theorem bind_of_ended {a : α} (h : x w = .ended (.ok a) w') : (x >>= f) w = f a w' := by
  show (x w).bind f = _
  rw [h]
  rfl

def Immediate (G : World → World → Prop) (x : Activity α) : Prop :=
  ∀ w, ∃ r w', x w = .ended r w' ∧ G w w'

theorem Immediate.eq_ended (hx : x.Immediate G) {E : Environment} {r : Except Stop α}
    (h : (x w).Finishes E r w') : x w = .ended r w' ∧ G w w' := by
  obtain ⟨r₁, w₁, hend, hG⟩ := hx w
  rw [hend, Step.finishes_ended] at h
  obtain ⟨rfl, rfl⟩ := h
  exact ⟨hend, hG⟩

theorem Immediate.mono {G' : World → World → Prop} (hx : x.Immediate G)
    (hG : ∀ w w', G w w' → G' w w') : x.Immediate G' := by
  intro w
  obtain ⟨r, w', hend, h⟩ := hx w
  exact ⟨r, w', hend, hG w w' h⟩

theorem Immediate.bind (hx : x.Immediate G) (htrans : ∀ w w₁ w', G w w₁ → G w₁ w' → G w w')
    (hf : ∀ a, (f a).Immediate G) : (x >>= f).Immediate G := by
  intro w
  obtain ⟨r, w₁, hend, hG⟩ := hx w
  show ∃ r w', (x w).bind f = .ended r w' ∧ G w w'
  rw [hend]
  cases r with
  | ok a =>
    obtain ⟨r, w', hend', hG'⟩ := hf a w₁
    exact ⟨r, w', hend', htrans _ _ _ hG hG'⟩
  | error e => exact ⟨.error e, w₁, rfl, hG⟩

theorem immediate_read (hrefl : ∀ w, G w w) (f : World → α) : (read f).Immediate G :=
  fun w ↦ ⟨_, w, rfl, hrefl w⟩

theorem immediate_raise (hrefl : ∀ w, G w w) (f : Fault) : (raise f : Activity α).Immediate G :=
  fun w ↦ ⟨_, w, rfl, hrefl w⟩

theorem immediate_lift (hrefl : ∀ w, G w w) (x : Except Fault α) : (lift x).Immediate G := by
  cases x with
  | ok a => exact immediate_read hrefl fun _ ↦ a
  | error f => exact immediate_raise hrefl f

theorem immediate_op (hG : ∀ (w : World) (s : Store), G w { w with store := s }) (x : Op α) :
    (op x).Immediate G := by
  intro w
  unfold op
  dsimp only
  generalize x.run.run w.store = p
  obtain ⟨r, s⟩ := p
  cases r <;> exact ⟨_, _, rfl, hG w _⟩

theorem immediate_each (hrefl : ∀ w, G w w) (htrans : ∀ w w₁ w', G w w₁ → G w₁ w' → G w w')
    (xs : List α) {f : α → Activity Unit} (hf : ∀ x, (f x).Immediate G) :
    (each xs f).Immediate G := by
  induction xs with
  | nil => exact immediate_read hrefl fun _ ↦ ()
  | cons x rest ih => exact (hf x).bind htrans fun _ ↦ ih

end Activity

/-! ### The scheduler as an environment -/

/-- Others run as the scheduler lets them. -/
def scheduled : Environment := fun request w reply w' ↦
  ∃ (t : TaskId) (w₁ w₂ : World), w.elapsed ≤ w₁.elapsed ∧ w₁.answer? t request = some (reply, w₂) ∧
    w' = { w₂ with running := t }

namespace World

variable {w w' : World} {t : TaskId} {q : Notify.QueueId} {deadline : Option Instant}

variable {reply : Reply}

theorem elapsed_answer? {r : Request} (h : w.answer? t r = some (reply, w')) :
    w'.elapsed = w.elapsed := by
  rcases answer?_cases h with ⟨-, rfl⟩ | ⟨⟨queues, rfl⟩, -⟩ <;> rfl

theorem le_of_answer?_until {i : Instant} (h : w.answer? t (.until i) = some (reply, w'))
    (hne : reply ≠ .cancelled) : i ≤ w.elapsed := by
  cases answers_of_answer? h with
  | cancelled _ => exact absurd rfl hne
  | instant hle => exact hle

theorem answer?_receive (h : w.answer? t (.receive q deadline) = some (reply, w')) :
    reply = .cancelled ∨ reply = .late ∧ deadline.any (· ≤ w.elapsed) ∨
      ∃ m, reply = .message m ∧ ¬ deadline.any (· ≤ w.elapsed) := by
  cases answers_of_answer? h with
  | cancelled _ => exact .inl rfl
  | late hlate => exact .inr (.inl ⟨rfl, hlate⟩)
  | message hearly _ => exact .inr (.inr ⟨_, rfl, hearly⟩)

def Passed (w : World) (seconds : Float) (w' : World) : Prop :=
  seconds ≤ 0 ∨ w.instantAfter seconds ≤ w'.elapsed

theorem Passed.congr {u u₁ w w' : World} {seconds : Float} (h : u₁.Passed seconds w)
    (hu : u₁.elapsed = u.elapsed) (hw : w'.elapsed = w.elapsed) : u.Passed seconds w' := by
  have hseconds : u₁.seconds = u.seconds := by rw [World.seconds, hu, World.seconds]
  have hinstant : u₁.instantAfter seconds = u.instantAfter seconds := by
    rw [World.instantAfter, hseconds, World.instantAfter]
  rcases h with h | h
  · exact .inl h
  · exact .inr (by rwa [← hinstant, hw])

end World

namespace Activity

variable {w w' : World} {q : Notify.QueueId}

variable {E : Environment} {seconds : Float} {patience : Option Float} {reply : Reply}

theorem finishes_lift {α : Type} {x : Except Fault α} {a : α}
    (h : (lift x w).Finishes E (.ok a) w') : x = .ok a ∧ w = w' := by
  cases x with
  | ok a' =>
    cases h
    exact ⟨rfl, rfl⟩
  | error f => cases h

theorem finishes_ask {request : Request} (h : (ask request w).Finishes E (.ok reply) w') :
    E request w reply w' ∧ reply ≠ .cancelled := by
  obtain _ | ⟨reply', hreply, hrest⟩ := h
  cases reply' with
  | cancelled => cases hrest
  | go =>
    cases hrest
    exact ⟨hreply, by simp⟩
  | message m =>
    cases hrest
    exact ⟨hreply, by simp⟩
  | late =>
    cases hrest
    exact ⟨hreply, by simp⟩

theorem le_elapsed_of_until {i : Instant}
    (h : (ask (.until i) w).Finishes scheduled (.ok reply) w') : i ≤ w'.elapsed := by
  obtain ⟨⟨t, w₁, w₂, -, hanswer, rfl⟩, hne⟩ := finishes_ask h
  have hle := World.le_of_answer?_until hanswer hne
  rwa [← World.elapsed_answer? hanswer] at hle

theorem passed_of_sleep (h : (sleep seconds w).Finishes scheduled (.ok ()) w') :
    w.Passed seconds w' := by
  unfold sleep at h
  split at h
  · exact .inl ‹_›
  · obtain ⟨reply, w₁, hask, hend⟩ := h.of_bind_ok (s := ask _ w)
    obtain ⟨-, rfl⟩ := Step.finishes_ended.1 hend
    exact .inr (le_elapsed_of_until hask)

theorem receiveFor_apply (hpositive : ¬ seconds ≤ 0) :
    ∃ resume, receiveFor q (some seconds) w =
        .waiting (.receive q (some (w.instantAfter seconds))) w resume ∧
      ∀ w', resume .late w' = .ended (.ok none) w' := by
  show ∃ resume, receiveWithin q seconds w = _ ∧ _
  rw [receiveWithin, if_neg hpositive]
  exact ⟨_, rfl, fun w' ↦ rfl⟩

theorem receiveWithin_none_iff {seconds : Float} {r : Option Value}
    (h : (receiveWithin q seconds w).Finishes scheduled (.ok r) w') :
    r = none ↔ w.Passed seconds w' := by
  unfold receiveWithin at h
  split at h
  · rename_i hover
    obtain ⟨_, w₁, -, hend⟩ := h.of_bind_ok (s := yieldTurn w)
    obtain ⟨hr, -⟩ := Step.finishes_ended.1 hend
    exact iff_of_true (Except.ok.inj hr).symm (.inl hover)
  · rename_i hnot
    obtain ⟨reply, w₁, hask, hend⟩ := h.of_bind_ok (s := ask _ w)
    obtain ⟨⟨t, w₂, w₃, -, hanswer, rfl⟩, hne⟩ := finishes_ask hask
    rcases World.answer?_receive hanswer with rfl | ⟨rfl, hlate⟩ | ⟨m, rfl, hearly⟩
    · exact absurd rfl hne
    · obtain ⟨hr, rfl⟩ := Step.finishes_ended.1 hend
      rw [← World.elapsed_answer? hanswer] at hlate
      exact iff_of_true (Except.ok.inj hr).symm (.inr (by simpa using hlate))
    · obtain ⟨hr, rfl⟩ := Step.finishes_ended.1 hend
      rw [← World.elapsed_answer? hanswer] at hearly
      cases hr
      refine iff_of_false (Option.some_ne_none m) ?_
      rintro (hle | hle)
      · exact hnot hle
      · exact hearly (by simpa using hle)

theorem receiveFor_none (h : (receiveFor q patience w).Finishes scheduled (.ok none) w') :
    ∃ seconds, patience = some seconds ∧ w.Passed seconds w' := by
  cases patience with
  | none =>
    obtain ⟨m, w₁, -, hend⟩ := h.of_bind_ok (s := receive q w)
    obtain ⟨hne, -⟩ := Step.finishes_ended.1 hend
    cases hne
  | some seconds => exact ⟨seconds, rfl, (receiveWithin_none_iff h).1 rfl⟩

theorem receiveFor_some {m : Value}
    (h : (receiveFor q patience w).Finishes scheduled (.ok (some m)) w') :
    ∀ seconds, patience = some seconds → ¬ w.Passed seconds w' := by
  rintro seconds rfl hpassed
  exact Option.some_ne_none m ((receiveWithin_none_iff h).2 hpassed)

end Activity

/-! ### Runs that can be computed -/

namespace Step

variable {α : Type}

def replay (t : TaskId) : List Instant → Step α → Option (Except Stop α × World)
  | _, ended r w => some (r, w)
  | [], waiting _ _ _ => none
  | i :: rest, waiting request w resume =>
    ({ w with elapsed := max w.elapsed i }.answer? t request).bind fun p ↦
      (resume p.1 { p.2 with running := t }).replay t rest

def undisturbed (t : TaskId) : Environment := fun request w reply w' ↦
  ∃ (i : Instant) (w₁ : World), { w with elapsed := max w.elapsed i }.answer? t request =
    some (reply, w₁) ∧ w' = { w₁ with running := t }

variable {t : TaskId}

theorem scheduled_of_undisturbed {request : Request} {w w' : World} {reply : Reply}
    (h : undisturbed t request w reply w') : scheduled request w reply w' := by
  obtain ⟨i, w₁, hanswer, rfl⟩ := h
  exact ⟨t, _, w₁, Nat.le_max_left w.elapsed i, hanswer, rfl⟩

theorem finishes_of_replay {instants : List Instant} {s : Step α} {r : Except Stop α} {w' : World}
    (h : s.replay t instants = some (r, w')) : s.Finishes (undisturbed t) r w' := by
  induction instants generalizing s with
  | nil =>
    cases s with
    | ended r₁ w₁ =>
      cases h
      exact .ended r w'
    | waiting request w resume => cases h
  | cons i rest ih =>
    cases s with
    | ended r₁ w₁ =>
      cases h
      exact .ended r w'
    | waiting request w resume =>
      obtain ⟨⟨reply, w₁⟩, hanswer, hrest⟩ := Option.bind_eq_some_iff.1 h
      exact .resumed reply ⟨i, w₁, hanswer, rfl⟩ (ih hrest)

end Step

end TriggerScript
