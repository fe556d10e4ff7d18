import TriggerScript.Proofs.Evaluation.Owned
import TriggerScript.Proofs.Notify.Event
import TriggerScript.Proofs.Notify.State

/-!
# Queues that belong to others

A queue is registered for entities and for types of events (`World.Registered`). Who does not own
the queue does not come near it (`Evolves.ignores`), and what is made later is not the queue either
(`Owned.not_queues_between`), so this holds for the whole of a run.
-/

namespace TriggerScript

open Notify (QueueId Watched entities entityOf? messagesOf)

/-- What a queue is registered for. -/
inductive Occasion where
  | entity (name : String)
  | event (type : String)
  deriving DecidableEq

def World.Registered (w : World) (q : QueueId) : Occasion → Prop
  | .entity e => q ∈ (w.stateTable.watchersOf e).map (·.1)
  | .event type => q ∈ w.eventTable.queuesOf type

/-! ### What changes of the tables do to registrations -/

namespace Notify

variable {q r : QueueId}

theorem StateTable.mem_watchersOf_add (t : StateTable) (names : Watched) (r q : QueueId)
    (e : String) : q ∈ ((t.add names r).1.watchersOf e).map (·.1) ↔
      q = r ∧ e ∈ entities names.toList ∨ q ∈ (t.watchersOf e).map (·.1) := by
  rw [StateTable.add, watchersOf, lookup_addNames]
  split
  · rename_i he
    rw [Option.getD_some, mem_keys_assign]
    simp [he]
  · rename_i he
    simp [he, watchersOf]

theorem StateTable.mem_watchersOf_remove_of_ne (h : q ≠ r) (t : StateTable) (names : Watched)
    (e : String) :
    q ∈ ((t.remove names r).1.watchersOf e).map (·.1) ↔ q ∈ (t.watchersOf e).map (·.1) := by
  rw [StateTable.remove]
  generalize names.toList = ns
  induction ns generalizing t with
  | nil => rfl
  | cons name ns ih =>
    cases name with
    | none => rfl
    | some name =>
      rw [removeNames]
      cases entityOf? name with
      | none => exact ih t
      | some e' =>
        dsimp only
        split
        · rw [ih, lookup_assign_filter]
          split
          · rename_i heq
            subst heq
            simp [h]
          · rfl
        · rfl

theorem StateTable.mem_watchersOf_remove_single (t : StateTable) (name : String) (q : QueueId)
    (e : String) : q ∈ ((t.remove (.single name) q).1.watchersOf e).map (·.1) ↔
      q ∈ (t.watchersOf e).map (·.1) ∧ entityOf? name ≠ some e := by
  show q ∈ ((t.removeNames q [some name]).1.watchersOf e).map (·.1) ↔ _
  rw [removeNames]
  cases entityOf? name with
  | none => simp [removeNames]
  | some e' =>
    dsimp only
    split
    · rw [removeNames, lookup_assign_filter]
      split
      · rename_i heq
        simp [heq]
      · rename_i hne
        simp [Ne.symm hne]
    · grind

theorem EventTable.mem_queuesOf_add (t : EventTable) (h : Host) (type : String) (r q : QueueId)
    (type' : String) :
    q ∈ (t.add h type r).1.queuesOf type' ↔ q = r ∧ type' = type ∨ q ∈ t.queuesOf type' := by
  rcases add_cases t h type r with ⟨hnone, heq⟩ | ⟨qs, hsome, ⟨hr, heq⟩ | ⟨hr, heq⟩⟩ <;> rw [heq]
  · by_cases htype : type' = type
    · subst htype
      simp [queuesOf, hnone, List.lookup_append]
    · simp [queuesOf, htype, List.lookup_append, List.lookup_cons, beq_eq_false_iff_ne.2 htype]
  · refine ⟨.inr, ?_⟩
    rintro (⟨rfl, rfl⟩ | hq)
    · rwa [queuesOf, hsome]
    · exact hq
  · rw [queuesOf, lookup_assign]
    split
    · rename_i htype
      subst htype
      simp [queuesOf, hsome, or_comm]
    · rename_i htype
      simp [htype, queuesOf]

theorem EventTable.mem_queuesOf_remove (t : EventTable) (h : Host) (type : String) (r q : QueueId)
    (type' : String) :
    q ∈ (t.remove h type r).1.1.queuesOf type' ↔ q ∈ t.queuesOf type' ∧
      ¬ (q = r ∧ type' = type) := by
  -- in all cases but the first, what is left of the type is what was there without the queue
  have assigned {qs : List QueueId} (hsome : t.queues.lookup type = some qs) {rest : List QueueId}
      (hrest : qs.filter (· ≠ r) = rest) (listening : List (String × Nat)) :
      q ∈ (⟨assign t.queues type rest, listening⟩ : EventTable).queuesOf type' ↔
        q ∈ t.queuesOf type' ∧ ¬ (q = r ∧ type' = type) := by
    rw [queuesOf, lookup_assign]
    split
    · rename_i htype
      subst htype
      rw [Option.getD_some, ← hrest]
      simp [queuesOf, hsome]
    · rename_i htype
      simp [htype, queuesOf]
  rcases remove_cases t h type r with ⟨hr, heq⟩ | ⟨qs, hsome, -, ⟨-, heq⟩ | ⟨hnil, id, -, heq⟩ |
    ⟨hnil, -, heq⟩⟩ <;> rw [heq]
  · refine ⟨fun hq ↦ ⟨hq, ?_⟩, And.left⟩
    rintro ⟨rfl, rfl⟩
    exact hr hq
  · exact assigned hsome rfl _
  · exact assigned hsome hnil _
  · exact assigned hsome hnil _

end Notify

/-! ### Who does not come near a queue -/

namespace World

/-- The queue keeps its messages, and only announced tasks are started. -/
structure Calm (q : QueueId) (w w' : World) : Prop where
  messages : messagesOf w' q = messagesOf w q
  started : ∃ new, w'.started = w.started ++ new ∧ ∀ p ∈ new, p.2.Announced

/-- Nothing happens to the queue or to its registrations. -/
structure Ignores (q : QueueId) (w w' : World) : Prop extends Calm q w w' where
  registered : ∀ o, w'.Registered q o ↔ w.Registered q o

variable {q : QueueId} {w w₁ w' : World}

namespace Calm

theorem of_eq (hqueues : w'.queues = w.queues) (hstarted : w'.started = w.started) :
    Calm q w w' where
  messages := by rw [messagesOf, hqueues, messagesOf]
  started := ⟨[], by simp [hstarted]⟩

theorem refl (w : World) : Calm q w w := of_eq rfl rfl

theorem trans (h₁ : Calm q w w₁) (h₂ : Calm q w₁ w') : Calm q w w' where
  messages := h₂.messages.trans h₁.messages
  started := by
    obtain ⟨new, hnew, hannounced⟩ := h₁.started
    obtain ⟨more, hmore, hannounced'⟩ := h₂.started
    refine ⟨new ++ more, by rw [hmore, hnew, List.append_assoc], fun p hp ↦ ?_⟩
    rcases List.mem_append.1 hp with hp | hp
    · exact hannounced p hp
    · exact hannounced' p hp

end Calm

namespace Ignores

theorem of_eq (hqueues : w'.queues = w.queues) (hstarted : w'.started = w.started)
    (hstates : w'.stateTable = w.stateTable) (hevents : w'.eventTable = w.eventTable) :
    Ignores q w w' where
  toCalm := .of_eq hqueues hstarted
  registered o := by
    cases o with
    | entity e => rw [Registered, hstates, Registered]
    | event type => rw [Registered, hevents, Registered]

theorem refl (w : World) : Ignores q w w := of_eq rfl rfl rfl rfl

theorem trans (h₁ : Ignores q w w₁) (h₂ : Ignores q w₁ w') : Ignores q w w' where
  toCalm := h₁.toCalm.trans h₂.toCalm
  registered o := (h₂.registered o).trans (h₁.registered o)

end Ignores

end World

variable {E : Owned} {q : QueueId} {w w' : World}

theorem Act.ignores {p : Site} (h : Act E p w w') (hq : ¬ E.queues q) (hlt : q < w.queues.size) :
    w.Ignores q w' := by
  have other {r : QueueId} (hr : E.queues r) : q ≠ r := fun heq ↦ hq (heq ▸ hr)
  induction h with
  | trans h₁ _ ih₁ ih₂ =>
    exact (ih₁ hlt).trans (ih₂ (Nat.lt_of_lt_of_le hlt h₁.widens.queues))
  | addQueue w name =>
    refine ⟨⟨?_, [], by simp [World.addQueue]⟩, fun o ↦ ?_⟩
    · simp [messagesOf, World.addQueue, Array.getElem?_push, Nat.ne_of_lt hlt]
    · cases o <;> rfl
  | take w hr rest =>
    refine ⟨⟨?_, [], by simp⟩, fun o ↦ ?_⟩
    · simp [messagesOf, Array.getElem?_modify, (other hr).symm]
    · cases o <;> rfl
  | watchStates w names hr =>
    refine ⟨.of_eq rfl rfl, fun o ↦ ?_⟩
    cases o with
    | entity e =>
      refine (w.stateTable.mem_watchersOf_add names _ q e).trans ?_
      simp [other hr, World.Registered]
    | event type => rfl
  | unwatchStates w names hr =>
    refine ⟨.of_eq rfl rfl, fun o ↦ ?_⟩
    cases o with
    | entity e =>
      exact Notify.StateTable.mem_watchersOf_remove_of_ne (other hr) w.stateTable names e
    | event type => rfl
  | watchEvents w type hr =>
    refine ⟨.of_eq rfl rfl, fun o ↦ ?_⟩
    cases o with
    | entity e => rfl
    | event type' =>
      refine (w.eventTable.mem_queuesOf_add w.host type _ q type').trans ?_
      simp [other hr, World.Registered]
  | unwatchEvents w type hr =>
    refine ⟨.of_eq rfl rfl, fun o ↦ ?_⟩
    cases o with
    | entity e => rfl
    | event type' =>
      refine (w.eventTable.mem_queuesOf_remove w.host type _ q type').trans ?_
      simp [other hr, World.Registered]
  | start w oversight job hjob =>
    refine ⟨⟨rfl, [(w.tasks.size, job)], rfl, ?_⟩, fun o ↦ ?_⟩
    · rintro p (_ | ⟨_, ⟨⟩⟩)
      exact hjob
    · cases o <;> rfl
  | _ => exact .of_eq rfl rfl rfl rfl

theorem Evolves.ignores (h : Evolves E w w') (hq : ¬ E.queues q) (hlt : q < w.queues.size) :
    w.Ignores q w' := by
  induction h with
  | refl w => exact .refl w
  | act _ h => exact h.ignores hq hlt
  | enter _ f T w => exact .of_eq rfl rfl rfl rfl
  | leave _ caller h => exact .of_eq rfl rfl rfl rfl
  | trans h₁ _ ih₁ ih₂ => exact (ih₁ hlt).trans (ih₂ (Nat.lt_of_lt_of_le hlt h₁.widens.queues))

theorem Owned.not_queues_beyond (hq : ¬ E.queues q) (hlt : q < w.queues.size) :
    ¬ (E.beyond w).queues q := by
  rintro (h | h)
  · exact hq h
  · exact Nat.not_lt.2 h hlt

theorem Owned.not_queues_between (hq : ¬ E.queues q) (hlt : q < w.queues.size) (w' : World) :
    ¬ (E.between w w').queues q := by
  rintro (h | ⟨h, -⟩)
  · exact hq h
  · exact Nat.not_lt.2 h hlt

end TriggerScript
