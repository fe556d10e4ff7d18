import TriggerScript.Proofs.Notify.Registered
import TriggerScript.Proofs.Task.Machine
import TriggerScript.Proofs.Task.Rely

/-!
# Histories of a queue

`Step.Recounts` is about a whole activity with a history behind it. Messages come out of the queue
in the order in which they were put in, and none is lost (`Recounts.balanced`). Evaluation adds
nothing of weight to the history of a queue of somebody else (`Minds.recounts`).
-/

namespace TriggerScript

open Notify (QueueId messagesOf)

/-- What happens to a queue and to the task that owns it. -/
inductive Occurrence where
  | put (m : Value)
  | taken (m : Value)
  | late
  | turn
  | called (job : Job) (s : Store)

namespace Occurrence

def put? : Occurrence → Option Value
  | put m => some m
  | _ => none

def taken? : Occurrence → Option Value
  | taken m => some m
  | _ => none

def weighty : Occurrence → Bool
  | put _ | turn => false
  | _ => true

end Occurrence

def puts (H : List Occurrence) : List Value := H.filterMap (·.put?)

def takes (H : List Occurrence) : List Value := H.filterMap (·.taken?)

@[simp]
theorem puts_append (H H' : List Occurrence) : puts (H ++ H') = puts H ++ puts H' :=
  List.filterMap_append

@[simp]
theorem takes_append (H H' : List Occurrence) : takes (H ++ H') = takes H ++ takes H' :=
  List.filterMap_append

@[simp]
theorem puts_map_put (ms : List Value) : puts (ms.map .put) = ms := by simp [puts, Occurrence.put?]

theorem takes_map_put (ms : List Value) : takes (ms.map .put) = [] := by
  simp [takes, Occurrence.taken?]

def Stable (C : List Occurrence → Prop) : Prop := ∀ H o, C H → o.weighty = false → C (H ++ [o])

theorem Stable.append {C : List Occurrence → Prop} (hC : Stable C) {H os : List Occurrence}
    (hH : C H) (hos : ∀ o ∈ os, o.weighty = false) : C (H ++ os) := by
  induction os generalizing H with
  | nil => rwa [List.append_nil]
  | cons o os ih =>
    rw [List.append_cons]
    exact ih (hC H o hH (hos o List.mem_cons_self)) fun o' ho' ↦ hos o' (List.mem_cons_of_mem o ho')

/-! ### One slice -/

theorem messagesOf_take {w : World} {q : QueueId} {name : String} {m : Value} {rest : List Value}
    (h : w.queues[q]? = some ⟨name, m :: rest⟩) :
    messagesOf w q =
      m :: messagesOf { w with queues := w.queues.modify q ({ · with messages := rest }) } q := by
  have hmodify : (w.queues.modify q ({ · with messages := rest }))[q]? = some ⟨name, rest⟩ := by
    rw [Array.getElem?_modify, if_pos rfl, h]
    rfl
  rw [messagesOf, h, messagesOf, hmodify]
  rfl

/-- What happens in one slice of the owner, in order. -/
inductive Recounted (q : QueueId) : List Occurrence → World → World → Prop
  | quiet {w w' : World} (hwidens : w.Widens w') (h : w.Calm q w') : Recounted q [] w w'
  | take {w : World} {name : String} {m : Value} {rest : List Value}
    (h : w.queues[q]? = some ⟨name, m :: rest⟩) :
    Recounted q [.taken m] w { w with queues := w.queues.modify q ({ · with messages := rest }) }
  | call (oversight : Oversight) (job : Job) (w : World) :
    Recounted q [.called job w.store] w (w.startTask oversight job).2
  | trans {os os' : List Occurrence} {w w₁ w' : World} (h : Recounted q os w w₁)
    (h' : Recounted q os' w₁ w') : Recounted q (os ++ os') w w'

namespace Recounted

variable {q : QueueId} {os : List Occurrence} {w w' : World}

theorem refl (w : World) : Recounted q [] w w := .quiet (.refl w) (.refl w)

theorem widens (h : Recounted q os w w') : w.Widens w' := by
  induction h with
  | quiet hwidens _ => exact hwidens
  | take _ => exact ⟨Nat.le_refl _, by simp⟩
  | call _ _ w => exact .of_eq rfl rfl
  | trans _ _ ih ih' => exact ih.trans ih'

theorem balance (h : Recounted q os w w') :
    puts os = [] ∧ messagesOf w q = takes os ++ messagesOf w' q := by
  induction h with
  | quiet _ h => exact ⟨rfl, h.messages.symm⟩
  | take h => exact ⟨rfl, messagesOf_take h⟩
  | call _ _ w => exact ⟨rfl, rfl⟩
  | trans _ _ ih ih' => simp_all

end Recounted

/-! ### Between slices -/

/-- While the owner waits, others put `ms` into the queue; then its request is answered. -/
inductive Resumption (t : TaskId) (q : QueueId) (request : Request) (w : World) (ms : List Value)
    (reply : Reply) : World → Prop
  | mk {w₁ w₂ : World} (hwidens : w.Widens w₁) (hput : messagesOf w₁ q = messagesOf w q ++ ms)
    (hanswer : w₁.answer? t request = some (reply, w₂)) :
    Resumption t q request w ms reply { w₂ with running := t }

def Request.told (q : QueueId) : Request → Reply → List Occurrence
  | .receive r _, .message m => if r = q then [.taken m] else []
  | .receive r _, .late => if r = q then [.late] else []
  | .turn, .go => [.turn]
  | _, _ => []

theorem Request.weighty_of_told {Q : QueueId → Prop} {q : QueueId} {request : Request}
    (h : request.Within Q) (hq : ¬ Q q) (reply : Reply) :
    ∀ o ∈ request.told q reply, o.weighty = false := by
  intro o ho
  cases request with
  | turn =>
    cases reply with
    | go =>
      obtain rfl := List.mem_singleton.1 ho
      rfl
    | _ => cases ho
  | receive r deadline =>
    have hr : r ≠ q := fun heq ↦ hq (heq ▸ h)
    cases reply <;> simp [told, hr] at ho
  | _ => cases ho

namespace Resumption

variable {t : TaskId} {q : QueueId} {request : Request} {w w' : World} {ms : List Value}
    {reply : Reply}

theorem widens (h : Resumption t q request w ms reply w') : w.Widens w' := by
  obtain ⟨hwidens, -, hanswer⟩ := h
  refine hwidens.trans ?_
  cases World.answers_of_answer? hanswer with
  | message _ _ => exact ⟨Nat.le_refl _, by simp⟩
  | _ => exact .of_eq rfl rfl

theorem balance (h : Resumption t q request w ms reply w') :
    puts (request.told q reply) = [] ∧
      messagesOf w q ++ ms = takes (request.told q reply) ++ messagesOf w' q := by
  obtain ⟨-, hput, hanswer⟩ := h
  rw [← hput]
  cases World.answers_of_answer? hanswer with
  | cancelled _ => cases request <;> exact ⟨rfl, rfl⟩
  | @message r _ name m rest _ hqueue =>
    by_cases hr : r = q
    · subst hr
      rw [Request.told, if_pos rfl]
      exact ⟨rfl, messagesOf_take hqueue⟩
    · simp [Request.told, hr, puts, takes, messagesOf, Array.getElem?_modify]
  | late _ =>
    rw [Request.told]
    split <;> exact ⟨rfl, rfl⟩
  | _ => exact ⟨rfl, rfl⟩

end Resumption

/-! ### Runs with their histories -/

namespace Step

variable {α β : Type} {t : TaskId} {q : QueueId} {P P' : List Occurrence → World → Prop}
  {K K' : Except Stop α → List Occurrence → World → Prop} {H : List Occurrence} {w : World}
    {s : Step α}

/-- What becomes of the queue is told by occurrences: `P` holds at each pause, `K` at the end. -/
def Recounts (t : TaskId) (q : QueueId) (P : List Occurrence → World → Prop)
    (K : Except Stop α → List Occurrence → World → Prop) : List Occurrence → World → Step α → Prop
  | H, w, ended r w' => ∃ os, Recounted q os w w' ∧ K r (H ++ os) w'
  | H, w, waiting request w' resume =>
    ∃ os, Recounted q os w w' ∧ P (H ++ os) w' ∧ ∀ ms reply w₁,
      Resumption t q request w' ms reply w₁ →
      (resume reply w₁).Recounts t q P K (H ++ os ++ ms.map .put ++ request.told q reply) w₁

namespace Recounts

theorem mono (h : s.Recounts t q P K H w) (hP : ∀ H w, P H w → P' H w)
    (hK : ∀ r H w, K r H w → K' r H w) : s.Recounts t q P' K' H w := by
  induction s generalizing H w with
  | ended r w' =>
    obtain ⟨os, hos, hend⟩ := h
    exact ⟨os, hos, hK _ _ _ hend⟩
  | waiting request w' resume ih =>
    obtain ⟨os, hos, hwait, hresume⟩ := h
    exact ⟨os, hos, hP _ _ hwait, fun ms reply w₁ hresumption ↦
      ih reply w₁ (hresume ms reply w₁ hresumption)⟩

theorem after {os : List Occurrence} {w₁ : World} (h : s.Recounts t q P K (H ++ os) w₁)
    (hos : Recounted q os w w₁) : s.Recounts t q P K H w := by
  cases s with
  | ended r w' =>
    obtain ⟨os', hos', hend⟩ := h
    exact ⟨os ++ os', hos.trans hos', by rwa [← List.append_assoc]⟩
  | waiting request w' resume =>
    obtain ⟨os', hos', hwait, hresume⟩ := h
    rw [List.append_assoc] at hwait
    refine ⟨os ++ os', hos.trans hos', hwait, fun ms reply w₁ hresumption ↦ ?_⟩
    rw [← List.append_assoc H]
    exact hresume ms reply w₁ hresumption

theorem bind {L : Except Stop β → List Occurrence → World → Prop} {k : α → World → Step β}
    (h : s.Recounts t q P K H w) (hok : ∀ a H w, K (.ok a) H w → (k a w).Recounts t q P L H w)
    (herror : ∀ e H w, K (.error e) H w → L (.error e) H w) : (s.bind k).Recounts t q P L H w := by
  induction s generalizing H w with
  | ended r w' =>
    obtain ⟨os, hos, hend⟩ := h
    cases r with
    | ok a => exact (hok a _ w' hend).after hos
    | error e => exact ⟨os, hos, herror e _ w' hend⟩
  | waiting request w' resume ih =>
    obtain ⟨os, hos, hwait, hresume⟩ := h
    exact ⟨os, hos, hwait, fun ms reply w₁ hresumption ↦
      ih reply w₁ (hresume ms reply w₁ hresumption)⟩

theorem attempt (h : s.Recounts t q P K H w) :
    s.attempt.Recounts t q P (fun r H w ↦ K (r.bind fun a ↦ a.mapError .raised) H w) H w := by
  induction s generalizing H w with
  | ended r w' =>
    rcases r with (f | _ | _) | a <;> exact h
  | waiting request w' resume ih =>
    obtain ⟨os, hos, hwait, hresume⟩ := h
    exact ⟨os, hos, hwait, fun ms reply w₁ hresumption ↦
      ih reply w₁ (hresume ms reply w₁ hresumption)⟩

theorem now (h : s.Recounts t q P (fun _ ↦ P) H w) :
    ∃ os, Recounted q os w s.world ∧ P (H ++ os) s.world := by
  cases s with
  | ended r w' => exact h
  | waiting request w' resume =>
    obtain ⟨os, hos, hwait, -⟩ := h
    exact ⟨os, hos, hwait⟩

theorem balanced (h : s.Recounts t q P K H w) (first : List Value)
    (hfirst : first ++ puts H = takes H ++ messagesOf w q) :
    s.Recounts t q (fun H w ↦ P H w ∧ first ++ puts H = takes H ++ messagesOf w q)
      (fun r H w ↦ K r H w ∧ first ++ puts H = takes H ++ messagesOf w q) H w := by
  have slice {os : List Occurrence} {H : List Occurrence} {w w' : World}
      (hfirst : first ++ puts H = takes H ++ messagesOf w q) (hos : Recounted q os w w') :
      first ++ puts (H ++ os) = takes (H ++ os) ++ messagesOf w' q := by
    obtain ⟨hputs, htakes⟩ := hos.balance
    rw [puts_append, hputs, List.append_nil, hfirst, htakes, takes_append, List.append_assoc]
  induction s generalizing H w with
  | ended r w' =>
    obtain ⟨os, hos, hend⟩ := h
    exact ⟨os, hos, hend, slice hfirst hos⟩
  | waiting request w' resume ih =>
    obtain ⟨os, hos, hwait, hresume⟩ := h
    refine ⟨os, hos, ⟨hwait, slice hfirst hos⟩, fun ms reply w₁ hresumption ↦ ?_⟩
    refine ih reply w₁ (hresume ms reply w₁ hresumption) ?_
    obtain ⟨hputs, htakes⟩ := hresumption.balance
    calc first ++ puts (H ++ os ++ ms.map .put ++ request.told q reply)
      _ = first ++ puts (H ++ os) ++ ms := by
        rw [puts_append, puts_append, hputs, puts_map_put, List.append_nil, List.append_assoc]
      _ = takes (H ++ os) ++ (messagesOf w' q ++ ms) := by rw [slice hfirst hos, List.append_assoc]
      _ = takes (H ++ os ++ ms.map .put ++ request.told q reply) ++ messagesOf w₁ q := by
        simp only [htakes, takes_append, takes_map_put, List.nil_append, List.append_assoc]

end Recounts

def Knowing (q : QueueId) (C : List Occurrence → Prop) (H : List Occurrence) (w : World) : Prop :=
  C H ∧ q < w.queues.size

theorem Minds.recounts {E : Owned} (h : s.Minds E w) (hq : ¬ E.queues q) (hlt : q < w.queues.size)
    (t : TaskId) {C : List Occurrence → Prop} (hC : Stable C) (hH : C H) :
    s.Recounts t q (Knowing q C) (fun _ ↦ Knowing q C) H w := by
  induction s generalizing E H w with
  | ended r w' =>
    have hevolves : Evolves (E.beyond w) w w' := h
    have hcalm := (hevolves.ignores (Owned.not_queues_beyond hq hlt) hlt).toCalm
    refine ⟨[], .quiet hevolves.widens hcalm, ?_, Nat.lt_of_lt_of_le hlt hevolves.widens.queues⟩
    rwa [List.append_nil]
  | waiting request w' resume ih =>
    obtain ⟨hevolves, hwithin, hresume⟩ := h
    have hcalm := (hevolves.ignores (Owned.not_queues_beyond hq hlt) hlt).toCalm
    have hlt' := Nat.lt_of_lt_of_le hlt hevolves.widens.queues
    have hq' := Owned.not_queues_between hq hlt w'
    refine ⟨[], .quiet hevolves.widens hcalm, ⟨by rwa [List.append_nil], hlt'⟩,
      fun ms reply w₁ hresumption ↦ ?_⟩
    refine ih reply w₁ (hresume reply w₁ hresumption.widens) hq'
      (Nat.lt_of_lt_of_le hlt' hresumption.widens.queues) ?_
    rw [List.append_nil]
    refine hC.append (hC.append hH fun o ho ↦ ?_) (Request.weighty_of_told hwithin hq' reply)
    obtain ⟨m, -, rfl⟩ := List.mem_map.1 ho
    rfl

end Step

/-! ### Rules for activities -/

namespace Activity

open Step (Knowing)

variable {α β : Type} {t : TaskId} {q : QueueId} {C C' P P' : List Occurrence → Prop}
  {K K' : Except Stop α → List Occurrence → Prop} {L : Except Stop β → List Occurrence → Prop}

def Recounts (t : TaskId) (q : QueueId) (C P : List Occurrence → Prop)
    (K : Except Stop α → List Occurrence → Prop) (x : Activity α) : Prop :=
  ∀ ⦃H w⦄, C H → q < w.queues.size → (x w).Recounts t q (Knowing q P) (fun r ↦ Knowing q (K r)) H w

namespace Recounts

variable {x : Activity α} {f : α → Activity β}

theorem mono (hx : x.Recounts t q C P K) (hC : ∀ H, C' H → C H) (hP : ∀ H, P H → P' H)
    (hK : ∀ r H, K r H → K' r H) : x.Recounts t q C' P' K' :=
  fun H _ hH hlt ↦ (hx (hC H hH) hlt).mono (fun H _ h ↦ ⟨hP H h.1, h.2⟩) fun r H _ h ↦
    ⟨hK r H h.1, h.2⟩

theorem bind (hx : x.Recounts t q C P K) (hf : ∀ a, (f a).Recounts t q (K (.ok a)) P L)
    (herror : ∀ e H, K (.error e) H → L (.error e) H) : (x >>= f).Recounts t q C P L :=
  fun _ _ hH hlt ↦ (hx hH hlt).bind (fun a _ _ h ↦ hf a h.1 h.2) fun e H _ h ↦ ⟨herror e H h.1, h.2⟩

theorem of_exists {ι : Type} {D : ι → List Occurrence → Prop} (hx : ∀ i, x.Recounts t q (D i) P K) :
    x.Recounts t q (fun H ↦ ∃ i, D i H) P K := by
  rintro H w ⟨i, hH⟩ hlt
  exact hx i hH hlt

theorem attempt (hx : x.Recounts t q C P K) :
    x.attempt.Recounts t q C P fun r ↦ K (r.bind fun a ↦ a.mapError .raised) :=
  fun _ _ hH hlt ↦ (hx hH hlt).attempt

theorem ite {p : Prop} [Decidable p] {y : Activity α} (hx : x.Recounts t q C P K)
    (hy : y.Recounts t q C P K) : (if p then x else y).Recounts t q C P K := by
  split
  · exact hx
  · exact hy

end Recounts

theorem recounts_of_ended {x : Activity α} (hx : ∀ H w, C H → q < w.queues.size →
    ∃ os r w', x w = .ended r w' ∧ Recounted q os w w' ∧ K r (H ++ os)) : x.Recounts t q C P K := by
  intro H w hH hlt
  obtain ⟨os, r, w', hend, hos, hK⟩ := hx H w hH hlt
  rw [hend]
  exact ⟨os, hos, hK, Nat.lt_of_lt_of_le hlt hos.widens.queues⟩

theorem recounts_pure {a : α} (hK : ∀ H, C H → K (.ok a) H) :
    (pure a : Activity α).Recounts t q C P K :=
  recounts_of_ended fun H w hH _ ↦ ⟨[], .ok a, w, rfl, .refl w, by simpa using hK H hH⟩

theorem recounts_of_aloof {x : Activity α} (hx : (minding.regime .aloof).Obeys default x)
    (hC : Stable C) (hP : ∀ H, C H → P H) : x.Recounts t q C P fun _ ↦ C := by
  intro H w hH hlt
  exact ((hx trivial w).recounts (fun h ↦ h) hlt t hC hH).mono (fun H _ h ↦ ⟨hP H h.1, h.2⟩)
    fun _ _ _ h ↦ h

theorem recounts_ask {K : Except Stop Reply → List Occurrence → Prop} (request : Request)
    (hP : ∀ H, C H → P H)
    (hreply : ∀ H w ms reply w', C H → Resumption t q request w ms reply w' → reply ≠ .cancelled →
      K (.ok reply) (H ++ ms.map .put ++ request.told q reply))
    (hcancelled : ∀ H ms, C H → K (.error .cancelled) (H ++ List.map .put ms)) :
    (ask request).Recounts t q C P K := by
  intro H w hH hlt
  refine ⟨[], .refl w, ⟨by simpa using hP H hH, hlt⟩, fun ms reply w₁ hresumption ↦ ?_⟩
  have hlt₁ := Nat.lt_of_lt_of_le hlt hresumption.widens.queues
  rw [List.append_nil]
  by_cases hne : reply = .cancelled
  · subst hne
    refine ⟨[], .refl w₁, ?_, hlt₁⟩
    have htold : request.told q .cancelled = [] := by cases request <;> rfl
    rw [htold, List.append_nil, List.append_nil]
    exact hcancelled H ms hH
  · have hK := hreply H w ms reply w₁ hH hresumption hne
    cases reply with
    | cancelled => exact absurd rfl hne
    | _ => exact ⟨[], .refl w₁, by rwa [List.append_nil], hlt₁⟩

end Activity

end TriggerScript
