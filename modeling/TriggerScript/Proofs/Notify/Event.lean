import Mathlib.Data.List.Induction
import Mathlib.Tactic.Push
import TriggerScript.Notify.Delivery
import TriggerScript.Proofs.Value.Association

/-!
# Listeners follow the queues until a list runs empty

What a history of calls of `EventTable.add` and `EventTable.remove` asks for is said without the
table: `waiting` lists the queues that are registered for a type, and `Emptied` says that the type
lost its last queue at some call. A type that has lost its last queue stays in the table, so nobody
listens for it again (`listener_iff_never_emptied`).
-/

namespace TriggerScript.Notify

/-! ### Histories -/

/-- A queue is registered for a type of events, or taken away from it. -/
inductive EventCall where
  | add (type : String) (q : QueueId)
  | remove (type : String) (q : QueueId)
  deriving Repr, DecidableEq

namespace EventCall

def apply (s : EventTable × Host) : EventCall → (EventTable × Host) × Option Fault
  | add type q => (s.1.add s.2 type q, none)
  | remove type q => s.1.remove s.2 type q

def run (s : EventTable × Host) (calls : List EventCall) : EventTable × Host :=
  calls.foldl (fun s c ↦ (c.apply s).1) s

def register (type : String) (qs : List QueueId) : EventCall → List QueueId
  | add type' q => if type' = type ∧ q ∉ qs then qs ++ [q] else qs
  | remove type' q => if type' = type then qs.filter (· ≠ q) else qs

/-- The queues that wait for events of the type. -/
def waiting (type : String) (calls : List EventCall) : List QueueId :=
  calls.foldl (register type) []

/-- Some call removed the last queue of the type. -/
def Emptied (type : String) (calls : List EventCall) : Prop :=
  ∃ n < calls.length, waiting type (calls.take n) ≠ [] ∧ waiting type (calls.take (n + 1)) = []

instance (type : String) (calls : List EventCall) : Decidable (Emptied type calls) :=
  inferInstanceAs (Decidable (∃ n < calls.length, _ ∧ _))

variable {type : String} {calls : List EventCall}

theorem run_concat (s : EventTable × Host) (calls : List EventCall) (c : EventCall) :
    run s (calls ++ [c]) = (c.apply (run s calls)).1 := by
  simp [run]

@[simp]
theorem waiting_nil : waiting type [] = [] := rfl

theorem waiting_concat (type : String) (calls : List EventCall) (c : EventCall) :
    waiting type (calls ++ [c]) = register type (waiting type calls) c := by
  simp [waiting]

@[simp]
theorem not_emptied_nil : ¬ Emptied type [] := by
  rintro ⟨n, hn, -⟩
  simp at hn

theorem emptied_concat (type : String) (calls : List EventCall) (c : EventCall) :
    Emptied type (calls ++ [c]) ↔ Emptied type calls ∨
      waiting type calls ≠ [] ∧ register type (waiting type calls) c = [] := by
  rw [← waiting_concat]
  constructor
  · rintro ⟨n, hn, hsome, hnone⟩
    rcases Nat.lt_or_ge n calls.length with hlt | hge
    · exact .inl ⟨n, hlt, by grind, by grind⟩
    · obtain rfl : n = calls.length := by grind
      exact .inr ⟨by grind, by grind⟩
  · rintro (⟨n, hn, hsome, hnone⟩ | ⟨hsome, hnone⟩)
    · exact ⟨n, by grind, by grind, by grind⟩
    · exact ⟨calls.length, by simp, by grind, by grind⟩

theorem nodup_register {qs : List QueueId} (h : qs.Nodup) (c : EventCall) :
    (register type qs c).Nodup := by
  cases c with
  | add type' q =>
    rw [register]
    split
    · grind
    · exact h
  | remove type' q =>
    rw [register]
    split
    · exact h.filter _
    · exact h

theorem nodup_waiting (type : String) (calls : List EventCall) : (waiting type calls).Nodup := by
  induction calls using List.reverseRecOn with
  | nil => exact List.nodup_nil
  | append_singleton calls c ih =>
    rw [waiting_concat]
    exact nodup_register ih c

end EventCall

/-! ### The two lists of listeners -/

/-- The listeners of the bus are those that were there and those of the table. -/
structure Linked (start : Host) (s : EventTable × Host) : Prop where
  listeners : s.2.listeners =
    start.listeners ++ s.1.listening.map fun p ↦ (p.2, p.1, Listener.notify)
  fresh : ∀ p ∈ s.1.listening, start.nextListener ≤ p.2 ∧ p.2 < s.2.nextListener
  next_le : start.nextListener ≤ s.2.nextListener
  ids : (s.1.listening.map (·.2)).Nodup
  types : (s.1.listening.map (·.1)).Nodup

namespace Linked

variable {start : Host} {t : EventTable} {h : Host} {type : String}

theorem empty (start : Host) : Linked start ({}, start) :=
  ⟨by simp, by simp, Nat.le_refl _, by simp, by simp⟩

theorem lookup_isSome_iff (t : EventTable) (type : String) :
    (t.listening.lookup type).isSome ↔ type ∈ t.listening.map (·.1) := by
  rw [List.lookup_isSome_iff, List.mem_map]
  exact exists_congr fun p ↦ and_congr_right fun _ ↦ beq_iff_eq.trans eq_comm

variable {id : Nat}

theorem mem_of_lookup (h : t.listening.lookup type = some id) : (type, id) ∈ t.listening := by
  obtain ⟨l₁, l₂, heq, -⟩ := List.lookup_eq_some_iff.1 h
  simp [heq]

theorem listen (hl : Linked start (t, h)) (hnone : t.listening.lookup type = none)
    (queues : List (String × List QueueId)) :
    Linked start (⟨queues, t.listening ++ [(type, h.nextListener)]⟩,
      (h.listen type .notify).2) where
  listeners := by
    show h.listeners ++ _ = _
    rw [show h.listeners = _ from hl.listeners]
    simp
  fresh := by
    have hnext : start.nextListener ≤ h.nextListener := hl.next_le
    intro p hp
    show start.nextListener ≤ p.2 ∧ p.2 < h.nextListener + 1
    rcases List.mem_append.1 hp with hp | hp
    · have : start.nextListener ≤ p.2 ∧ p.2 < h.nextListener := hl.fresh p hp
      omega
    · rw [List.mem_singleton.1 hp]
      exact ⟨hnext, Nat.lt_succ_self _⟩
  next_le := Nat.le_succ_of_le hl.next_le
  ids := by
    rw [List.map_append, List.nodup_append]
    refine ⟨hl.ids, List.nodup_singleton _, fun id hid id' hid' ↦ ?_⟩
    obtain ⟨p, hp, rfl⟩ := List.mem_map.1 hid
    have : p.2 < h.nextListener := (hl.fresh p hp).2
    simp only [List.map_cons, List.map_nil, List.mem_singleton] at hid'
    omega
  types := by
    rw [List.map_append, List.nodup_append]
    refine ⟨hl.types, List.nodup_singleton _, fun type₁ htype type₂ htype₂ ↦ ?_⟩
    simp only [List.map_cons, List.map_nil, List.mem_singleton] at htype₂
    rintro rfl
    rw [htype₂, ← lookup_isSome_iff, hnone] at htype
    cases htype

theorem unlisten (hnew : ∀ l ∈ start.listeners, l.1 < start.nextListener) (hl : Linked start (t, h))
    (hsome : t.listening.lookup type = some id) (queues : List (String × List QueueId)) :
    Linked start (⟨queues, t.listening.filter (·.1 != type)⟩, h.unlisten id) where
  listeners := by
    have hmem := mem_of_lookup hsome
    have hold : start.listeners.filter (fun l ↦ l.1 != id) = start.listeners := by
      refine List.filter_eq_self.2 fun l hlmem ↦ ?_
      have h1 := hnew l hlmem
      have h2 : start.nextListener ≤ id := (hl.fresh _ hmem).1
      simp only [bne_iff_ne, ne_eq]
      omega
    have hsame : ∀ p ∈ t.listening, (p.2 != id) = (p.1 != type) := by
      intro p hp
      rw [Bool.eq_iff_iff, bne_iff_ne, bne_iff_ne, not_iff_not]
      constructor
      · intro heq
        exact congrArg Prod.fst (List.inj_on_of_nodup_map hl.ids hp hmem heq)
      · intro heq
        exact congrArg Prod.snd (List.inj_on_of_nodup_map hl.types hp hmem heq)
    show h.listeners.filter (fun l ↦ l.1 != id) = _
    rw [show h.listeners = _ from hl.listeners, List.filter_append, hold, List.filter_map]
    congr 2
    exact List.filter_congr hsame
  fresh p hp := hl.fresh p (List.mem_of_mem_filter hp)
  next_le := hl.next_le
  ids := hl.ids.sublist (List.filter_sublist.map _)
  types := hl.types.sublist (List.filter_sublist.map _)

theorem of_listening {t' : EventTable} (hl : Linked start (t, h))
    (heq : t'.listening = t.listening) : Linked start (t', h) := by
  obtain ⟨h1, h2, h3, h4, h5⟩ := hl
  exact ⟨heq ▸ h1, heq ▸ h2, h3, heq ▸ h4, heq ▸ h5⟩

theorem count_listenersOf {s : EventTable × Host} (hl : Linked start s) (type : String) :
    (s.2.listenersOf type).count .notify = (start.listenersOf type).count .notify +
      if (s.1.listening.lookup type).isSome then 1 else 0 := by
  have hown : (((s.1.listening.map fun p ↦ (p.2, p.1, Listener.notify)).filter
      fun l ↦ l.2.1 == type).map (·.2.2)).count .notify = (s.1.listening.map (·.1)).count type := by
    rw [List.filter_map, List.map_map, List.count_eq_length.2 (by simp), List.length_map,
      List.count_eq_countP, List.countP_map, List.countP_eq_length_filter]
    rfl
  rw [Host.listenersOf, hl.listeners, List.filter_append, List.map_append, List.count_append, hown,
    List.Nodup.count hl.types]
  simp only [← lookup_isSome_iff, Host.listenersOf]

end Linked

/-! ### The table follows the calls -/

namespace EventTable

variable {t : EventTable} {type type' : String} {q : QueueId}

theorem lookup_listening_filter_self (l : List (String × Nat)) (type : String) :
    (l.filter (·.1 != type)).lookup type = none := by
  rw [List.lookup_eq_none_iff]
  intro p hp
  simpa [bne_comm] using (List.mem_filter.1 hp).2

theorem add_cases (t : EventTable) (h : Host) (type : String) (q : QueueId) :
    t.queues.lookup type = none ∧ t.add h type q =
        (⟨t.queues ++ [(type, [q])], t.listening ++ [(type, h.nextListener)]⟩,
          (h.listen type .notify).2) ∨
      ∃ qs, t.queues.lookup type = some qs ∧
        (q ∈ qs ∧ t.add h type q = (t, h) ∨
          q ∉ qs ∧
            t.add h type q = ({ t with queues := assign t.queues type (qs ++ [q]) }, h)) := by
  unfold add
  cases t.queues.lookup type with
  | none => exact .inl ⟨rfl, rfl⟩
  | some qs => grind

theorem remove_cases (t : EventTable) (h : Host) (type : String) (q : QueueId) :
    q ∉ t.queuesOf type ∧ t.remove h type q = ((t, h), none) ∨
      ∃ qs, t.queues.lookup type = some qs ∧ q ∈ qs ∧
        (qs.filter (· ≠ q) ≠ [] ∧ t.remove h type q =
            (({ t with queues := assign t.queues type (qs.filter (· ≠ q)) }, h), none) ∨
          qs.filter (· ≠ q) = [] ∧ (∃ id, t.listening.lookup type = some id ∧ t.remove h type q =
            ((⟨assign t.queues type [], t.listening.filter (·.1 != type)⟩, h.unlisten id), none)) ∨
          qs.filter (· ≠ q) = [] ∧ t.listening.lookup type = none ∧ t.remove h type q =
            (({ t with queues := assign t.queues type [] }, h),
              some (.missingKey (Text.quoted type)))) := by
  unfold remove queuesOf
  cases t.queues.lookup type with
  | none => exact .inl ⟨by simp, rfl⟩
  | some qs => grind

end EventTable

open EventCall Activity

/-- The table keeps the queues as asked, and listens for a type that never ran empty. -/
structure Follows (calls : List EventCall) (t : EventTable) (type : String) : Prop where
  queuesOf : t.queuesOf type = waiting type calls
  known : (t.queues.lookup type).isSome ↔ waiting type calls ≠ [] ∨ Emptied type calls
  listens : (t.listening.lookup type).isSome ↔ waiting type calls ≠ [] ∧ ¬ Emptied type calls

namespace Follows

variable {calls : List EventCall} {t t' : EventTable} {type : String} {c : EventCall}

theorem empty (type : String) : Follows [] {} type := ⟨rfl, by simp, by simp⟩

theorem of_unchanged (hf : Follows calls t type) (hregister : register type (waiting type calls) c =
      waiting type calls) (hqueues : t'.queues.lookup type = t.queues.lookup type)
    (hlistening : t'.listening.lookup type = t.listening.lookup type) :
    Follows (calls ++ [c]) t' type := by
  have hemptied : Emptied type (calls ++ [c]) ↔ Emptied type calls := by
    rw [emptied_concat, hregister]
    exact or_iff_left fun h ↦ h.1 h.2
  obtain ⟨h1, h2, h3⟩ := hf
  rw [EventTable.queuesOf, ← hqueues] at h1
  rw [← hqueues] at h2
  rw [← hlistening] at h3
  refine ⟨?_, ?_, ?_⟩
  · rw [waiting_concat, hregister]
    exact h1
  · rwa [waiting_concat, hregister, hemptied]
  · rwa [waiting_concat, hregister, hemptied]

theorem of_emptied (hsome : waiting type calls ≠ [])
    (hnone : register type (waiting type calls) c = []) (hqueues : t'.queues.lookup type = some [])
    (hlistening : t'.listening.lookup type = none) :
    Follows (calls ++ [c]) t' type := by
  have hemptied : Emptied type (calls ++ [c]) :=
    (emptied_concat type calls c).2 (.inr ⟨hsome, hnone⟩)
  refine ⟨?_, ?_, ?_⟩
  · rw [EventTable.queuesOf, hqueues, waiting_concat, hnone, Option.getD_some]
  · rw [hqueues]
    exact iff_of_true rfl (.inr hemptied)
  · rw [hlistening]
    exact iff_of_false (by simp) fun h ↦ h.2 hemptied

theorem of_lookup_none (hf : Follows calls t type) (hnone : t.queues.lookup type = none) :
    waiting type calls = [] ∧ ¬ Emptied type calls := by
  have := hf.known
  rw [hnone] at this
  simpa using this

theorem of_lookup_some {qs : List QueueId} (hf : Follows calls t type)
    (hsome : t.queues.lookup type = some qs) :
    waiting type calls = qs ∧ (waiting type calls ≠ [] ∨ Emptied type calls) := by
  refine ⟨?_, hf.known.1 (by rw [hsome]; rfl)⟩
  rw [← hf.queuesOf, EventTable.queuesOf, hsome, Option.getD_some]

theorem listening_lookup_none (hf : Follows calls t type) (hnone : t.queues.lookup type = none) :
    t.listening.lookup type = none := by
  rw [← Option.not_isSome_iff_eq_none, hf.listens]
  exact fun h ↦ h.1 (hf.of_lookup_none hnone).1

variable {type' : String}

theorem add (hf : Follows calls t type') (h : Host) (type : String) (q : QueueId) :
    Follows (calls ++ [.add type q]) (t.add h type q).1 type' := by
  by_cases heq : type = type'
  · subst heq
    rcases t.add_cases h type q with ⟨hnone, hadd⟩ | ⟨qs, hsome, ⟨hq, hadd⟩ | ⟨hq, hadd⟩⟩
    · obtain ⟨hw, he⟩ := hf.of_lookup_none hnone
      have hw' : waiting type (calls ++ [.add type q]) = [q] := by
        simp [waiting_concat, hw, register]
      have he' : ¬ Emptied type (calls ++ [.add type q]) := by simp [emptied_concat, he, hw]
      rw [hadd]
      refine ⟨?_, ?_, ?_⟩
      · simp [EventTable.queuesOf, List.lookup_append, hnone, hw']
      · simp [List.lookup_append, hw']
      · simp [List.lookup_append, hw', he']
    · obtain ⟨rfl, -⟩ := hf.of_lookup_some hsome
      rw [hadd]
      exact hf.of_unchanged (if_neg fun hnew ↦ hnew.2 hq) rfl rfl
    · obtain ⟨rfl, hknown⟩ := hf.of_lookup_some hsome
      have hw' : waiting type (calls ++ [.add type q]) = waiting type calls ++ [q] := by
        simp [waiting_concat, register, hq]
      have he' : Emptied type (calls ++ [.add type q]) ↔ Emptied type calls := by
        simp [emptied_concat, register, hq]
      rw [hadd]
      refine ⟨?_, ?_, ?_⟩
      · rw [EventTable.queuesOf, lookup_assign, if_pos rfl, hw', Option.getD_some]
      · simp [lookup_assign, hw']
      · -- a type that is known without a queue was emptied, and is not listened to again
        rw [hf.listens, hw', he']
        simp only [ne_eq, List.append_eq_nil_iff, List.cons_ne_self, and_false, not_false_eq_true,
          true_and]
        tauto
  · have hregister : register type' (waiting type' calls) (.add type q) = waiting type' calls :=
      if_neg fun hadd ↦ heq hadd.1
    rcases t.add_cases h type q with ⟨hnone, hadd⟩ | ⟨qs, hsome, ⟨hq, hadd⟩ | ⟨hq, hadd⟩⟩
    · have hbeq : (type' == type) = false := by simpa using Ne.symm heq
      rw [hadd]
      refine hf.of_unchanged hregister ?_ ?_
      all_goals simp [List.lookup_append, List.lookup_cons, hbeq]
    · rw [hadd]
      exact hf.of_unchanged hregister rfl rfl
    · rw [hadd]
      refine hf.of_unchanged hregister ?_ rfl
      rw [lookup_assign, if_neg (Ne.symm heq)]

theorem remove (hf : Follows calls t type') (h : Host) (type : String) (q : QueueId) :
    Follows (calls ++ [.remove type q]) (t.remove h type q).1.1 type' := by
  by_cases heq : type = type'
  · subst heq
    have hregister : register type (waiting type calls) (.remove type q) =
        (waiting type calls).filter (· ≠ q) := if_pos rfl
    rcases t.remove_cases h type q with ⟨hq, hremove⟩ |
      ⟨qs, hsome, hq, ⟨hmore, hremove⟩ | ⟨hlast, id, hid, hremove⟩ | ⟨hlast, hid, hremove⟩⟩
    · rw [hremove]
      refine hf.of_unchanged ?_ rfl rfl
      rw [hf.queuesOf] at hq
      rw [hregister, List.filter_eq_self]
      intro x hx
      rw [decide_eq_true_eq]
      rintro rfl
      exact hq hx
    · obtain ⟨rfl, -⟩ := hf.of_lookup_some hsome
      have he' : Emptied type (calls ++ [.remove type q]) ↔ Emptied type calls := by
        rw [emptied_concat, hregister]
        exact or_iff_left fun h ↦ hmore h.2
      rw [hremove]
      refine ⟨?_, ?_, ?_⟩
      · rw [EventTable.queuesOf, lookup_assign, if_pos rfl, waiting_concat, hregister,
          Option.getD_some]
      · rw [lookup_assign, if_pos rfl, waiting_concat, hregister]
        exact iff_of_true rfl (.inl hmore)
      · rw [hf.listens, waiting_concat, hregister, he']
        exact and_congr_left fun _ ↦ iff_of_true (List.ne_nil_of_mem hq) hmore
    · obtain ⟨rfl, -⟩ := hf.of_lookup_some hsome
      rw [hremove]
      refine of_emptied (List.ne_nil_of_mem hq) (hregister.trans hlast) ?_ ?_
      · rw [lookup_assign, if_pos rfl]
      · exact EventTable.lookup_listening_filter_self _ _
    · obtain ⟨rfl, -⟩ := hf.of_lookup_some hsome
      rw [hremove]
      refine of_emptied (List.ne_nil_of_mem hq) (hregister.trans hlast) ?_ hid
      rw [lookup_assign, if_pos rfl]
  · have hregister : register type' (waiting type' calls) (.remove type q) = waiting type' calls :=
      if_neg heq
    rcases t.remove_cases h type q with ⟨hq, hremove⟩ |
      ⟨qs, hsome, hq, ⟨hmore, hremove⟩ | ⟨hlast, id, hid, hremove⟩ | ⟨hlast, hid, hremove⟩⟩
    · rw [hremove]
      exact hf.of_unchanged hregister rfl rfl
    all_goals
      rw [hremove]
      refine hf.of_unchanged hregister (by rw [lookup_assign, if_neg (Ne.symm heq)]) ?_
    · rfl
    · exact lookup_filter_of_ne _ (Ne.symm heq)
    · rfl

end Follows

/-! ### Runs -/

variable {s : EventTable × Host} {start : Host} {calls : List EventCall}

theorem follows_apply (hnew : ∀ l ∈ start.listeners, l.1 < start.nextListener)
    (hf : ∀ type, Follows calls s.1 type) (hl : Linked start s) (c : EventCall) :
    (∀ type, Follows (calls ++ [c]) (c.apply s).1.1 type) ∧ Linked start (c.apply s).1 := by
  obtain ⟨t, h⟩ := s
  cases c with
  | add type q =>
    refine ⟨fun type' ↦ (hf type').add h type q, ?_⟩
    show Linked start (t.add h type q)
    rcases t.add_cases h type q with ⟨hnone, hadd⟩ | ⟨qs, hsome, ⟨hq, hadd⟩ | ⟨hq, hadd⟩⟩
    · rw [hadd]
      exact hl.listen ((hf type).listening_lookup_none hnone) _
    · rwa [hadd]
    · rw [hadd]
      exact hl.of_listening rfl
  | remove type q =>
    refine ⟨fun type' ↦ (hf type').remove h type q, ?_⟩
    show Linked start (t.remove h type q).1
    rcases t.remove_cases h type q with ⟨hq, hremove⟩ |
      ⟨qs, hsome, hq, ⟨hmore, hremove⟩ | ⟨hlast, id, hid, hremove⟩ | ⟨hlast, hid, hremove⟩⟩
    · rwa [hremove]
    · rw [hremove]
      exact hl.of_listening rfl
    · rw [hremove]
      exact hl.unlisten hnew hid _
    · rw [hremove]
      exact hl.of_listening rfl

theorem follows_run (hnew : ∀ l ∈ start.listeners, l.1 < start.nextListener)
    (calls : List EventCall) :
    (∀ type, Follows calls (run ({}, start) calls).1 type) ∧
      Linked start (run ({}, start) calls) := by
  induction calls using List.reverseRecOn with
  | nil => exact ⟨fun type ↦ .empty type, .empty start⟩
  | append_singleton calls c ih =>
    rw [run_concat]
    exact follows_apply hnew ih.1 ih.2 c

theorem filter_ne_eq_nil_iff {qs : List QueueId} (hnodup : qs.Nodup) {q : QueueId} (hq : q ∈ qs) :
    qs.filter (· ≠ q) = [] ↔ qs = [q] := by
  constructor
  · intro hnil
    have hall : ∀ x ∈ qs, x = q := by simpa [List.filter_eq_nil_iff] using hnil
    have hrep : qs = List.replicate qs.length q := List.eq_replicate_of_mem hall
    have hlen : qs.length ≤ 1 := List.nodup_replicate.1 (hrep ▸ hnodup)
    have hpos : 0 < qs.length := List.length_pos_of_mem hq
    rw [hrep, show qs.length = 1 by omega]
    rfl
  · rintro rfl
    simp

theorem fault_apply (hf : ∀ type, Follows calls s.1 type) (c : EventCall) :
    (c.apply s).2 = match c with
      | .add _ _ => none
      | .remove type q =>
        if waiting type calls = [q] ∧ Emptied type calls then some (.missingKey (Text.quoted type))
        else none := by
  obtain ⟨t, h⟩ := s
  cases c with
  | add type q => rfl
  | remove type q =>
    have hnodup := nodup_waiting type calls
    have hlistens := (hf type).listens
    have hqueues := (hf type).queuesOf
    dsimp only at hlistens hqueues ⊢
    rcases t.remove_cases h type q with ⟨hq, hremove⟩ |
      ⟨qs, hsome, hq, ⟨hmore, hremove⟩ | ⟨hlast, id, hid, hremove⟩ | ⟨hlast, hid, hremove⟩⟩
    · rw [apply, hremove, if_neg]
      rintro ⟨heq, -⟩
      rw [hqueues, heq] at hq
      exact hq (List.mem_singleton_self q)
    all_goals
      obtain ⟨rfl, -⟩ := (hf type).of_lookup_some hsome
      rw [apply, hremove]
    · rw [if_neg fun h ↦ hmore ((filter_ne_eq_nil_iff hnodup hq).2 h.1)]
    · rw [hid] at hlistens
      rw [if_neg fun h ↦ (hlistens.1 rfl).2 h.2]
    · rw [hid] at hlistens
      have hemptied : Emptied type calls := by
        by_contra hne
        exact absurd (hlistens.2 ⟨List.ne_nil_of_mem hq, hne⟩) (by simp)
      rw [if_pos ⟨(filter_ne_eq_nil_iff hnodup hq).1 hlast, hemptied⟩]

/-! ### Delivery -/

def held (w : World) (q : QueueId) : Nat := w.queues[q]?.elim 0 (·.messages.length)

theorem sendTo_held (q : QueueId) (kind : String) (carried : Value) (w : World) :
    ∃ w', sendTo q kind carried w = .ended (.ok ()) w' ∧ w'.queues.size = w.queues.size ∧
      ∀ q' < w.queues.size, held w' q' = held w q' + [q].count q' := by
  refine ⟨_, rfl, ?_, fun q' hq' ↦ ?_⟩
  · exact Array.size_modify
  · show ((w.queues.modify q _)[q']?).elim 0 _ = w.queues[q']?.elim 0 _ + _
    rw [Array.getElem?_modify, Array.getElem?_eq_getElem hq']
    by_cases heq : q = q'
    · subst heq
      simp
    · simp [heq]

theorem each_sendTo_held (qs : List QueueId) (kind : String) (carried : Value) (w : World) :
    ∃ w', each qs (fun q ↦ sendTo q kind carried) w = .ended (.ok ()) w' ∧
      ∀ q < w.queues.size, held w' q = held w q + qs.count q := by
  induction qs generalizing w with
  | nil => exact ⟨w, rfl, fun q _ ↦ by simp⟩
  | cons q qs ih =>
    obtain ⟨w₁, hsend, hsize, hheld₁⟩ := sendTo_held q kind carried w
    obtain ⟨w', hrest, hheld⟩ := ih w₁
    refine ⟨w', ?_, fun q' hq' ↦ ?_⟩
    · rw [each]
      show (sendTo q kind carried w).bind _ = _
      rw [hsend]
      exact hrest
    · grind

/-! ### The listeners of a history -/

/-- **Listeners follow the queues until a list runs empty.** After any calls on a new table, each
type has the queues that the calls ask for. It has one listener on the bus if there are such queues
and the type was never emptied, and otherwise none; and each time the listener is told of an event,
one message comes to each of the queues. A call fails exactly when it takes the last queue of a type
that was emptied before. -/
theorem listener_iff_never_emptied (start : Host)
    (hnew : ∀ l ∈ start.listeners, l.1 < start.nextListener) (calls : List EventCall) :
    (∀ type,
      ((run ({}, start) calls).2.listenersOf type).count .notify =
          (start.listenersOf type).count .notify +
            (if waiting type calls ≠ [] ∧ ¬ Emptied type calls then 1 else 0) ∧
        (run ({}, start) calls).1.queuesOf type = waiting type calls ∧
        ∀ (w : World) (about : Value), w.eventTable = (run ({}, start) calls).1 →
          ∃ w', tellEvent type about w = .ended (.ok ()) w' ∧ ∀ q < w.queues.size,
            held w' q = held w q + if q ∈ waiting type calls then 1 else 0) ∧
      ∀ c : EventCall, (c.apply (run ({}, start) calls)).2 = match c with
        | .add _ _ => none
        | .remove type q =>
          if waiting type calls = [q] ∧ Emptied type calls then
            some (.missingKey (Text.quoted type))
          else none := by
  obtain ⟨hf, hl⟩ := follows_run hnew calls
  refine ⟨fun type ↦ ⟨?_, (hf type).queuesOf, fun w about hw ↦ ?_⟩, fault_apply hf⟩
  · rw [hl.count_listenersOf type]
    simp only [(hf type).listens]
  · obtain ⟨w', htell, hheld⟩ := each_sendTo_held (waiting type calls) "event" about w
    refine ⟨w', ?_, fun q hq ↦ ?_⟩
    · rw [← htell, ← (hf type).queuesOf, ← hw]
      rfl
    · rw [hheld q hq, (nodup_waiting type calls).count]

def readded : List EventCall := [.add "ring" 0, .remove "ring" 0, .add "ring" 0]

def busyHost : Host := (Host.listen {} "state_changed" .stateChanged).2

theorem listener_iff_never_emptied_readded :
    (∀ l ∈ busyHost.listeners, l.1 < busyHost.nextListener) ∧
      ((run ({}, busyHost) readded).2.listenersOf "ring").count .notify =
        (busyHost.listenersOf "ring").count .notify +
          (if waiting "ring" readded ≠ [] ∧ ¬ Emptied "ring" readded then 1 else 0) :=
  ⟨by decide, ((listener_iff_never_emptied busyHost (by decide) readded).1 "ring").1⟩

/-- The queue that came again is registered, nobody listens for it, and it cannot go. -/
theorem readded_queue_unheard :
    (run ({}, busyHost) readded).1.queuesOf "ring" = [0] ∧
      (run ({}, busyHost) readded).2.listenersOf "ring" = [] ∧
      ((EventCall.remove "ring" 0).apply (run ({}, busyHost) readded)).2 =
        some (.missingKey (Text.quoted "ring")) := by
  decide

end TriggerScript.Notify
