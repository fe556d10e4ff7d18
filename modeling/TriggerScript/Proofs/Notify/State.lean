import Mathlib.Data.List.Induction
import TriggerScript.Evaluation.WaitUntil
import TriggerScript.Notify.Delivery
import TriggerScript.Proofs.Value.Association

/-!
# Each change of an entity is told once, with the values of its moment

What a history of calls of `Activity.watchStates`, `Activity.unwatchStates` and
`Activity.tellStates` asks for is said without the table: `registrations` are the entities with the
queues that wait for them, and `Latest` is the value of the last update of a name that was `Known`
by then. A message is made of objects of its own, so it shows the values of its own update for ever
(`messages_of_updates`).
-/

namespace TriggerScript.Notify

/-! ### Histories -/

/-- New values of names, with what a message says about them. -/
structure Update where
  values : List (String × Value)
  about : Value
  nodup : (values.map (·.1)).Nodup

def Update.names (u : Update) : List String := u.values.map (·.1)

/-- A queue is registered or taken away, or values are updated. -/
inductive StateCall where
  | add (q : QueueId)
  | remove (names : Watched) (q : QueueId)
  | update (u : Update)

/-- The entities before the first name that has none. -/
def entities (names : List (Option String)) : List String :=
  (names.takeWhile Option.isSome).filterMap fun name ↦ name.bind entityOf?

def withdraw (q : QueueId) : List (String × QueueId) → List String → List (String × QueueId)
  | pairs, [] => pairs
  | pairs, e :: es =>
    if (e, q) ∈ pairs then withdraw q (pairs.filter (· ≠ (e, q))) es else pairs

namespace StateCall

variable (names : QueueId → List (Option String))

def perform : StateCall → Activity Unit
  | add q => Activity.watchStates (.names (names q)) q
  | remove ns q => Activity.unwatchStates ns q
  | update u => Activity.tellStates u.values u.about

/-- The calls, one after another. -/
inductive Leads (w : World) : List StateCall → World → Prop where
  | nil : Leads w [] w
  | concat {calls : List StateCall} {w₁ w₂ : World} {c : StateCall} {result : Except Stop Unit}
      (before : Leads w calls w₁) (call : c.perform names w₁ = .ended result w₂) :
      Leads w (calls ++ [c]) w₂

def register (pairs : List (String × QueueId)) : StateCall → List (String × QueueId)
  | add q => pairs ++ (entities (names q)).map (·, q)
  | remove ns q => withdraw q pairs (entities ns.toList)
  | update _ => pairs

def registrations (calls : List StateCall) : List (String × QueueId) :=
  calls.foldl (register names) []

def Known (calls : List StateCall) (e : String) : Prop :=
  ∃ q, add q ∈ calls ∧ e ∈ entities (names q)

def Latest (calls : List StateCall) (n : String) (v : Value) : Prop :=
  ∃ i u, calls[i]? = some (update u) ∧ (n, v) ∈ u.values ∧ Known names (calls.take i) n ∧
    ∀ j u', i < j → calls[j]? = some (update u') → n ∉ u'.names

def Concerns (q : QueueId) (pairs : List (String × QueueId)) : StateCall → Prop
  | update u => ∃ e ∈ u.names, (e, q) ∈ pairs
  | _ => False

instance (q : QueueId) (pairs : List (String × QueueId)) (c : StateCall) :
    Decidable (Concerns q pairs c) :=
  match c with
  | add _ | remove _ _ => inferInstanceAs (Decidable False)
  | update u => inferInstanceAs (Decidable (∃ e ∈ u.names, (e, q) ∈ pairs))

/-- The calls that concern the queue. -/
def concerning (q : QueueId) (calls : List StateCall) : List Nat :=
  (List.range calls.length).filter fun i ↦
    (calls[i]?).any fun c ↦ decide (Concerns q (registrations names (calls.take i)) c)

variable {names} {calls : List StateCall} {c : StateCall} {n e : String} {q : QueueId}

@[simp]
theorem registrations_nil : registrations names [] = [] := rfl

theorem registrations_concat (calls : List StateCall) (c : StateCall) :
    registrations names (calls ++ [c]) = register names (registrations names calls) c := by
  simp [registrations]

theorem not_known_nil : ¬ Known names [] e := by
  rintro ⟨q, hq, -⟩
  cases hq

theorem known_concat_add : Known names (calls ++ [add q]) e ↔
    Known names calls e ∨ e ∈ entities (names q) := by
  simp only [Known, List.mem_append, List.mem_singleton, add.injEq, or_and_right, exists_or,
    exists_eq_left]

theorem known_concat_of_ne (hc : ∀ q, c ≠ add q) :
    Known names (calls ++ [c]) e ↔ Known names calls e := by
  refine exists_congr fun q ↦ and_congr_left fun _ ↦ ?_
  simp [(hc q).symm]

theorem not_latest_nil (v : Value) : ¬ Latest names [] n v := by
  rintro ⟨i, u, hu, -⟩
  simp at hu

variable {v : Value}

theorem latest_concat_of_not_mem (hc : ∀ u, c = update u → n ∉ u.names) :
    Latest names (calls ++ [c]) n v ↔ Latest names calls n v := by
  constructor
  · rintro ⟨i, u, hu, hv, hknown, hlast⟩
    have hi : i < calls.length := by grind [Update.names]
    grind [Latest]
  · rintro ⟨i, u, hu, hv, hknown, hlast⟩
    exact ⟨i, u, by grind, hv, by grind, by grind⟩

theorem latest_concat_update {u : Update} (hn : n ∈ u.names) :
    Latest names (calls ++ [update u]) n v ↔ (n, v) ∈ u.values ∧ Known names calls n := by
  have hlen : (calls ++ [update u])[calls.length]? = some (update u) := by simp
  constructor
  · rintro ⟨i, u', hu', hv, hknown, hlast⟩
    have hi : i = calls.length := by grind
    grind
  · rintro ⟨hv, hknown⟩
    exact ⟨calls.length, u, hlen, hv, by rwa [List.take_left], by grind⟩

theorem Latest.known (h : Latest names calls n v) : Known names calls n := by
  obtain ⟨i, u, -, -, ⟨q, hq, he⟩, -⟩ := h
  exact ⟨q, List.mem_of_mem_take hq, he⟩

theorem concerning_concat (q : QueueId) (calls : List StateCall) (c : StateCall) :
    concerning names q (calls ++ [c]) = concerning names q calls ++
      if Concerns q (registrations names calls) c then [calls.length] else [] := by
  rw [concerning, List.length_append, List.length_singleton, List.range_succ, List.filter_append]
  congr 1
  · refine List.filter_congr fun i hi ↦ ?_
    have hi : i < calls.length := List.mem_range.1 hi
    rw [List.getElem?_append_left hi, List.take_append_of_le_length (by omega)]
  · simp [List.filter_singleton]

end StateCall

/-! ### The table -/

@[simp]
theorem entities_nil : entities [] = [] := rfl

@[simp]
theorem entities_none (names : List (Option String)) : entities (none :: names) = [] := rfl

theorem entities_some (name : String) (names : List (Option String)) :
    entities (some name :: names) = (entityOf? name).toList ++ entities names := by
  cases h : entityOf? name <;> simp [entities, h]

namespace StateTable

variable (t : StateTable) (w : Watched) (q : QueueId) (ns : List (Option String))

theorem addNames_fault : (t.addNames w q ns).2 = if none ∈ ns then some noParts else none := by
  fun_induction addNames t w q ns <;> simp_all

theorem lookup_addNames (e : String) : (t.addNames w q ns).1.watchers.lookup e =
      if e ∈ entities ns then some (assign (t.watchersOf e) q w) else t.watchers.lookup e := by
  fun_induction addNames t w q ns with
  | case1 => simp
  | case2 => simp
  | case3 => simp_all [entities_some]
  | case4 t name ns e₁ he₁ ih =>
    rw [ih, entities_some, he₁]
    grind [watchersOf, lookup_assign, assign_assign]

theorem watchersOf_addNames (e : String) : (t.addNames w q ns).1.watchersOf e =
      if e ∈ entities ns then assign (t.watchersOf e) q w else t.watchersOf e := by
  rw [watchersOf, lookup_addNames]
  split <;> rfl

theorem addNames_last : (t.addNames w q ns).1.last = t.last := by
  fun_induction addNames t w q ns <;> simp_all

variable {t w q ns} {q' : QueueId} {e n : String}

/-- No entity has become known or unknown, and none has a new watcher. -/
structure Shrinks (t t' : StateTable) : Prop where
  known : ∀ e, (t'.watchers.lookup e).isSome = (t.watchers.lookup e).isSome
  watchersOf : ∀ e, t'.watchersOf e ⊆ t.watchersOf e
  last : t'.last = t.last

theorem Shrinks.refl (t : StateTable) : Shrinks t t :=
  ⟨fun _ ↦ rfl, fun _ ↦ List.Subset.refl _, rfl⟩

theorem Shrinks.trans {t₁ t₂ t₃ : StateTable} (h : Shrinks t₁ t₂) (h' : Shrinks t₂ t₃) :
    Shrinks t₁ t₃ :=
  ⟨fun e ↦ (h'.known e).trans (h.known e), fun e ↦
    List.Subset.trans (h'.watchersOf e) (h.watchersOf e), h'.last.trans h.last⟩

theorem lookup_assign_filter (t : StateTable) (q : QueueId) (e e' : String) :
    watchersOf { t with watchers := assign t.watchers e ((t.watchersOf e).filter (·.1 ≠ q)) } e' =
      if e' = e then (t.watchersOf e).filter (·.1 ≠ q) else t.watchersOf e' := by
  rw [watchersOf, lookup_assign]
  split
  · rfl
  · rfl

theorem shrinks_filter (h : q ∈ (t.watchersOf e).map (·.1)) :
    Shrinks t { t with watchers := assign t.watchers e ((t.watchersOf e).filter (·.1 ≠ q)) } where
  known e' := by
    rw [lookup_assign]
    split
    · rename_i heq
      subst heq
      rw [watchersOf] at h
      cases hl : t.watchers.lookup e' with
      | none => simp [hl] at h
      | some ws => rfl
    · rfl
  watchersOf e' := by
    rw [lookup_assign_filter]
    split
    · rename_i heq
      subst heq
      exact List.filter_sublist.subset
    · exact List.Subset.refl _
  last := rfl

theorem shrinks_removeNames (t : StateTable) (q : QueueId) (ns : List (Option String)) :
    Shrinks t (t.removeNames q ns).1 := by
  fun_induction removeNames t q ns with
  | case3 t name ns he ih => exact ih
  | case4 t name ns e he hq ih => exact (shrinks_filter (by simpa using hq)).trans ih
  | _ => exact .refl _

def Pairs (t : StateTable) (pairs : List (String × QueueId)) : Prop :=
  ∀ e q, q ∈ (t.watchersOf e).map (·.1) ↔ (e, q) ∈ pairs

variable {pairs : List (String × QueueId)} {values : List (String × Value)} {p : QueueId × Watched}
  {told : Watchers}

theorem Pairs.addNames (h : t.Pairs pairs) (w : Watched) (q : QueueId) (ns : List (Option String)) :
    (t.addNames w q ns).1.Pairs (pairs ++ (entities ns).map (·, q)) := by
  intro e q'
  have hmem : (e, q') ∈ (entities ns).map (·, q) ↔ e ∈ entities ns ∧ q' = q := by
    simp [eq_comm]
  rw [watchersOf_addNames, List.mem_append, hmem, ← h e q']
  grind [mem_keys_assign]

theorem Pairs.removeNames (h : t.Pairs pairs) (q : QueueId) (ns : List (Option String)) :
    (t.removeNames q ns).1.Pairs (withdraw q pairs (entities ns)) := by
  induction ns generalizing t pairs with
  | nil => exact h
  | cons name ns ih =>
    cases name with
    | none => exact h
    | some name =>
      rw [removeNames, entities_some]
      cases entityOf? name with
      | none => exact ih h
      | some e =>
        have hiff : (t.watchersOf e).any (·.1 = q) ↔ (e, q) ∈ pairs := by
          rw [← h e q]
          simp
        rw [Option.toList_some, List.singleton_append, withdraw]
        dsimp only
        by_cases hq : (e, q) ∈ pairs
        · rw [if_pos hq, if_pos (hiff.2 hq)]
          refine ih fun e' q' ↦ ?_
          rw [lookup_assign_filter, List.mem_filter, ← h e' q']
          split
          · rename_i heq
            subst heq
            simp [List.mem_filter, and_comm]
          · rename_i hne
            simp [hne]
        · rw [if_neg hq, if_neg fun hany ↦ hq (hiff.1 hany)]
          exact h

/-! ### What an update does to the table -/

theorem mem_keys_foldl_assign (ws told : Watchers) (q : QueueId) :
    q ∈ (ws.foldl (fun told w ↦ assign told w.1 w.2) told).map (·.1) ↔
      q ∈ told.map (·.1) ∨ q ∈ ws.map (·.1) := by
  induction ws generalizing told with
  | nil => simp
  | cons w ws ih =>
    rw [List.foldl_cons, ih, mem_keys_assign, List.map_cons, List.mem_cons]
    tauto

theorem mem_foldl_assign {ws : Watchers}
    (hp : p ∈ ws.foldl (fun told w ↦ assign told w.1 w.2) told) : p ∈ told ∨ p ∈ ws := by
  induction ws generalizing told with
  | nil => exact .inl hp
  | cons w ws ih => grind [mem_assign]

theorem nodup_foldl_assign (ws : Watchers) (h : (told.map (·.1)).Nodup) :
    ((ws.foldl (fun told w ↦ assign told w.1 w.2) told).map (·.1)).Nodup := by
  induction ws generalizing told with
  | nil => exact h
  | cons w ws ih => exact ih (nodup_assign h _ _)

theorem collect_watchers (t : StateTable) (values : List (String × Value)) (told : Watchers) :
    (t.collect values told).1.watchers = t.watchers := by
  fun_induction collect t values told <;> simp_all

theorem lookup_collect_last (t : StateTable) (hnodup : (values.map (·.1)).Nodup) (told : Watchers)
    (n : String) : (t.collect values told).1.last.lookup n =
      if (t.watchers.lookup n).isSome then (values.lookup n).or (t.last.lookup n)
      else t.last.lookup n := by
  fun_induction collect t values told with
  | case1 => simp
  | case2 => grind
  | case3 => grind [lookup_assign, lookup_eq_none_of_not_mem]

theorem mem_keys_collect (t : StateTable) (values : List (String × Value)) (told : Watchers)
    (q : QueueId) : q ∈ (t.collect values told).2.map (·.1) ↔
      q ∈ told.map (·.1) ∨ ∃ e ∈ values.map (·.1), q ∈ (t.watchersOf e).map (·.1) := by
  fun_induction collect t values told with
  | case1 => simp
  | case2 t n v values told hl ih =>
    have hempty : t.watchersOf n = [] := by rw [watchersOf, hl]; rfl
    simp [ih, hempty]
  | case3 t n v values told ws hl ih =>
    have hws : t.watchersOf n = ws := by rw [watchersOf, hl]; rfl
    rw [ih, mem_keys_foldl_assign, List.map_cons, List.exists_mem_cons_iff, hws, or_assoc]
    rfl

theorem mem_collect (t : StateTable) (hp : p ∈ (t.collect values told).2) :
    p ∈ told ∨ ∃ e, p ∈ t.watchersOf e := by
  fun_induction collect t values told with
  | case1 => exact .inl hp
  | case2 => simp_all
  | case3 t n v values told ws hl ih =>
    rcases ih hp with hp | hp
    · exact (mem_foldl_assign hp).imp_right fun hp ↦ ⟨n, by rwa [watchersOf, hl]⟩
    · exact .inr hp

theorem nodup_collect (t : StateTable) (values : List (String × Value))
    (h : (told.map (·.1)).Nodup) : ((t.collect values told).2.map (·.1)).Nodup := by
  fun_induction collect t values told with
  | case1 => exact h
  | case2 => simp_all
  | case3 t n v values told ws hl ih => exact ih (nodup_foldl_assign _ h)

theorem keys_update (t : StateTable) (values : List (String × Value)) :
    (t.update values).2.map (·.1) = (t.collect values []).2.map (·.1) := by
  simp [update]

theorem nodup_update (t : StateTable) (values : List (String × Value)) :
    ((t.update values).2.map (·.1)).Nodup := by
  rw [keys_update]
  exact t.nodup_collect values List.nodup_nil

theorem lookup_lastValues (t : StateTable) (ns : List (Option String)) (n : String) :
    (t.lastValues ns).lookup n = if some n ∈ ns then t.last.lookup n else none := by
  induction ns with
  | nil => rfl
  | cons name ns ih =>
    cases name with
    | none => simp [lastValues, ih]
    | some name =>
      have hne {n' : String} (h : n' ≠ name) : (n' == name) = false := by simpa using h
      rw [lastValues]
      by_cases heq : n = name
      · grind
      · cases t.last.lookup name with
        | some v => simp [List.lookup_cons, hne heq, lookup_filter_of_ne _ heq, ih, heq]
        | none => simp [ih, heq]

end StateTable

open StateCall StateTable Activity

variable {names : QueueId → List (Option String)}

/-- The table keeps what the history asks for. -/
structure Records (names : QueueId → List (Option String)) (calls : List StateCall)
    (t : StateTable) : Prop where
  pairs : t.Pairs (registrations names calls)
  given : ∀ e, ∀ p ∈ t.watchersOf e, p.2 = .names (names p.1)
  known : ∀ e, (t.watchers.lookup e).isSome ↔ Known names calls e
  last : ∀ n v, t.last.lookup n = some v ↔ Latest names calls n v

namespace Records

variable {calls : List StateCall} {t : StateTable}

theorem empty (names : QueueId → List (Option String)) : Records names [] {} where
  pairs e q := by simp [watchersOf]
  given e p hp := by simp [watchersOf] at hp
  known e := by simp [not_known_nil]
  last n v := by simp [not_latest_nil]

theorem add (h : Records names calls t) (q : QueueId) :
    Records names (calls ++ [.add q]) (t.add (.names (names q)) q).1 where
  pairs := by
    rw [registrations_concat]
    exact h.pairs.addNames _ _ _
  given e p hp := by
    rw [StateTable.add, StateTable.watchersOf, StateTable.lookup_addNames] at hp
    split at hp
    · rcases mem_assign hp with rfl | hp
      · rfl
      · exact h.given e p hp
    · exact h.given e p hp
  known e := by
    rw [StateTable.add, StateTable.lookup_addNames, known_concat_add, ← h.known e]
    split
    · rename_i he
      exact iff_of_true rfl (.inr he)
    · rename_i he
      exact (or_iff_left he).symm
  last n v := by
    rw [StateTable.add, StateTable.addNames_last, latest_concat_of_not_mem (by simp)]
    exact h.last n v

theorem remove (h : Records names calls t) (ns : Watched) (q : QueueId) :
    Records names (calls ++ [.remove ns q]) (t.remove ns q).1 := by
  have hshrinks := t.shrinks_removeNames q ns.toList
  refine ⟨?_, fun e p hp ↦ h.given e p (hshrinks.watchersOf e hp), fun e ↦ ?_, fun n v ↦ ?_⟩
  · rw [registrations_concat]
    exact h.pairs.removeNames q ns.toList
  · rw [StateTable.remove, hshrinks.known e, known_concat_of_ne (by simp)]
    exact h.known e
  · rw [StateTable.remove, hshrinks.last, latest_concat_of_not_mem (by simp)]
    exact h.last n v

theorem update (h : Records names calls t) (u : Update) :
    Records names (calls ++ [.update u]) (t.update u.values).1 := by
  have hwatchers : (t.update u.values).1.watchers = t.watchers := t.collect_watchers u.values []
  have hof (e : String) : (t.update u.values).1.watchersOf e = t.watchersOf e := by
    rw [watchersOf, hwatchers]
    rfl
  refine ⟨fun e q ↦ ?_, fun e p hp ↦ h.given e p (hof e ▸ hp), fun e ↦ ?_, fun n v ↦ ?_⟩
  · rw [hof, registrations_concat]
    exact h.pairs e q
  · rw [hwatchers, known_concat_of_ne (by simp)]
    exact h.known e
  · have hlast := t.lookup_collect_last u.nodup [] n
    rw [show (t.update u.values).1.last.lookup n = _ from hlast]
    by_cases hn : n ∈ u.names
    · rw [latest_concat_update hn, ← lookup_eq_some_iff_mem u.nodup, ← h.known n]
      obtain ⟨v', hv'⟩ : ∃ v', u.values.lookup n = some v' := by
        obtain ⟨p, hp, rfl⟩ := List.mem_map.1 hn
        exact ⟨p.2, (lookup_eq_some_iff_mem u.nodup).2 hp⟩
      cases hk : (t.watchers.lookup n).isSome with
      | true => simp [hv']
      | false =>
        have hnot : t.last.lookup n ≠ some v := fun hv ↦ by
          have := (h.known n).2 ((h.last n v).1 hv).known
          simp [hk] at this
        simpa using hnot
    · rw [latest_concat_of_not_mem (by rintro u' ⟨⟩; exact hn), ← h.last n v,
        lookup_eq_none_of_not_mem hn]
      simp

end Records

/-! ### Messages -/

def messagesOf (w : World) (q : QueueId) : List Value := w.queues[q]?.elim [] (·.messages)

/-- The values in a message, and what it is about. -/
def reading? (s : Store) : Value → Option (Entries × Value)
  | .list r =>
    match s.listAt r with
    | [.text "state", .list r₁] =>
      match s.listAt r₁ with
      | [.dict r₂, about] => some (s.dictAt r₂, about)
      | _ => none
    | _ => none
  | _ => none

def Extends (s s' : Store) : Prop := ∀ r o, s.get? r = some o → s'.get? r = some o

theorem Extends.refl (s : Store) : Extends s s := fun _ _ hr ↦ hr

theorem Extends.trans {s₁ s₂ s₃ : Store} (h : Extends s₁ s₂) (h' : Extends s₂ s₃) : Extends s₁ s₃ :=
  fun r o hr ↦ h' r o (h r o hr)

theorem Extends.push (s : Store) (o : Object) : Extends s (s.push o) := by
  intro r o' hr
  have hlt : r < s.objects.size := (Array.getElem?_eq_some_iff.1 hr).1
  show (s.objects.push o)[r]? = some o'
  rw [Array.getElem?_push, if_neg (Nat.ne_of_lt hlt)]
  exact hr

theorem get?_push_size (s : Store) (o : Object) : (s.push o).get? s.objects.size = some o :=
  Array.getElem?_push_size

def IsMessage (s : Store) (values : List (String × Value)) (about m : Value) : Prop :=
  ∃ r r₁ r₂, m = .list r ∧ s.get? r = some (.list [.text "state", .list r₁]) ∧
    s.get? r₁ = some (.list [.dict r₂, about]) ∧
    s.get? r₂ = some (.dict (values.map fun p ↦ (.text p.1, p.2)))

namespace IsMessage

variable {s s' : Store} {values : List (String × Value)} {about m : Value}

theorem mono (h : IsMessage s values about m) (hs : Extends s s') :
    IsMessage s' values about m := by
  obtain ⟨r, r₁, r₂, hm, hr, hr₁, hr₂⟩ := h
  exact ⟨r, r₁, r₂, hm, hs _ _ hr, hs _ _ hr₁, hs _ _ hr₂⟩

theorem reading_eq (h : IsMessage s values about m) :
    reading? s m = some (values.map fun p ↦ (.text p.1, p.2), about) := by
  obtain ⟨r, r₁, r₂, rfl, hr, hr₁, hr₂⟩ := h
  simp [reading?, Store.listAt, Store.dictAt, hr, hr₁, hr₂]

end IsMessage

theorem get?_values (s : Store) (values : List (String × Value)) (n : String) :
    Entries.get? s (values.map fun p ↦ (.text p.1, p.2)) (.text n) = values.lookup n :=
  find?_text s values n

/-! ### Delivery -/

def tell (about : Value) (p : QueueId × List (String × Value)) : Activity Unit := do
  let vars ← op (Op.newDict (p.2.map fun (n, v) ↦ (.text n, v)))
  sendTo p.1 "state" (← op (Op.newList [vars, about]))

theorem tell_spec (about : Value) (p : QueueId × List (String × Value)) (w : World) :
    ∃ w' m, tell about p w = .ended (.ok ()) w' ∧ w'.stateTable = w.stateTable ∧
      Extends w.store w'.store ∧ IsMessage w'.store p.2 about m ∧ w'.queues.size = w.queues.size ∧
      ∀ q < w.queues.size, messagesOf w' q = messagesOf w q ++ if q = p.1 then [m] else [] := by
  let s₁ : Store := w.store.push (.dict (p.2.map fun p ↦ (.text p.1, p.2)))
  let s₂ : Store := s₁.push (.list [.dict w.store.objects.size, about])
  let s₃ : Store := s₂.push (.list [.text "state", .list s₁.objects.size])
  have h₁ : Extends w.store s₁ := .push _ _
  have h₂ : Extends s₁ s₂ := .push _ _
  have h₃ : Extends s₂ s₃ := .push _ _
  refine ⟨World.send { w with store := s₃ } p.1 (.list s₂.objects.size), .list s₂.objects.size,
    rfl, rfl, (h₁.trans h₂).trans h₃, ⟨_, _, _, rfl, get?_push_size s₂ _,
      h₃ _ _ (get?_push_size s₁ _),
      h₃ _ _ (h₂ _ _ (get?_push_size w.store _))⟩, Array.size_modify, fun q hq ↦ ?_⟩
  show (w.queues.modify p.1 _)[q]?.elim [] _ = w.queues[q]?.elim [] _ ++ _
  rw [Array.getElem?_modify, Array.getElem?_eq_getElem hq]
  by_cases heq : p.1 = q
  · simp [heq]
  · simp [heq, Ne.symm heq]

theorem each_tell (about : Value) {told : List (QueueId × List (String × Value))}
    (hnodup : (told.map (·.1)).Nodup) (w : World) :
    ∃ w', each told (tell about) w = .ended (.ok ()) w' ∧ w'.stateTable = w.stateTable ∧
      Extends w.store w'.store ∧ w'.queues.size = w.queues.size ∧
      ∀ q < w.queues.size, ∃ news, messagesOf w' q = messagesOf w q ++ news ∧
        List.Forall₂ (fun values m ↦ IsMessage w'.store values about m) (told.lookup q).toList
          news := by
  induction told generalizing w with
  | nil =>
    exact ⟨w, rfl, rfl, .refl _, rfl, fun q hq ↦ ⟨[], (List.append_nil _).symm, .nil⟩⟩
  | cons p told ih =>
    obtain ⟨hnew, hrest⟩ := List.nodup_cons.1 hnodup
    obtain ⟨w₁, m, htell, htable₁, hstore₁, hm, hsize₁, hmessages₁⟩ := tell_spec about p w
    obtain ⟨w', heach, htable, hstore, hsize, hmessages⟩ := ih hrest w₁
    refine ⟨w', ?_, htable.trans htable₁, hstore₁.trans hstore, hsize.trans hsize₁, fun q hq ↦ ?_⟩
    · rw [each]
      show (tell about p w).bind _ = _
      rw [htell]
      exact heach
    · obtain ⟨news, hnews, hall⟩ := hmessages q (hsize₁.symm ▸ hq)
      rw [hmessages₁ q hq] at hnews
      rw [List.lookup_cons]
      by_cases heq : q = p.1
      · -- the queue is not in the rest of the list
        subst heq
        rw [lookup_eq_none_of_not_mem hnew, Option.toList_none, List.forall₂_nil_left_iff] at hall
        subst hall
        refine ⟨[m], by simpa using hnews, ?_⟩
        simpa using hm.mono hstore
      · grind

variable {calls : List StateCall} {i : Nat} {q : QueueId} {m : Value}

theorem lookup_update {t : StateTable} (h : Records names calls t) (u : Update) (q : QueueId) :
    (t.update u.values).2.lookup q =
      if Concerns q (registrations names calls) (.update u) then
        some ((t.update u.values).1.lastValues (names q))
      else none := by
  have hconcerns : q ∈ (t.collect u.values []).2.map (·.1) ↔
      Concerns q (registrations names calls) (.update u) := by
    rw [mem_keys_collect]
    simp only [List.map_nil, List.not_mem_nil, false_or]
    exact exists_congr fun e ↦ and_congr_right fun _ ↦ h.pairs e q
  split
  · rename_i hq
    obtain ⟨p, hp, rfl⟩ := List.mem_map.1 (hconcerns.2 hq)
    obtain ⟨e, he⟩ : ∃ e, p ∈ t.watchersOf e := by simpa using t.mem_collect hp
    rw [lookup_eq_some_iff_mem (t.nodup_update u.values)]
    refine List.mem_map.2 ⟨p, hp, ?_⟩
    rw [h.given e p he]
    rfl
  · rename_i hq
    refine lookup_eq_none_of_not_mem fun hmem ↦ hq (hconcerns.1 ?_)
    rwa [← t.keys_update]

/-! ### Runs -/

def Carries (names : QueueId → List (Option String)) (calls : List StateCall) (s : Store)
    (q : QueueId) (i : Nat) (m : Value) : Prop :=
  ∃ u values, calls[i]? = some (.update u) ∧ IsMessage s values u.about m ∧
    ∀ n v, values.lookup n = some v ↔ some n ∈ names q ∧ Latest names (calls.take (i + 1)) n v

theorem Carries.concat {s s' : Store} (h : Carries names calls s q i m) (hs : Extends s s')
    (c : StateCall) : Carries names (calls ++ [c]) s' q i m := by
  obtain ⟨u, values, hu, hm, hvalues⟩ := h
  have hi : i < calls.length := (List.getElem?_eq_some_iff.1 hu).1
  refine ⟨u, values, ?_, hm.mono hs, ?_⟩
  · rwa [List.getElem?_append_left hi]
  · rwa [List.take_append_of_le_length (by omega)]

theorem watchStates_eq (ns : Watched) (q : QueueId) (w : World) :
    watchStates ns q w =
      .ended ((w.stateTable.add ns q).2.elim (.ok ()) fun f ↦ .error (.raised f))
        { w with stateTable := (w.stateTable.add ns q).1 } := by
  unfold watchStates
  cases hfault : (w.stateTable.add ns q).2 <;>
  · simp [bind, Activity.modifyGet, Step.bind, hfault]
    rfl

theorem unwatchStates_eq (ns : Watched) (q : QueueId) (w : World) :
    unwatchStates ns q w =
      .ended ((w.stateTable.remove ns q).2.elim (.ok ()) fun f ↦ .error (.raised f))
        { w with stateTable := (w.stateTable.remove ns q).1 } := by
  unfold unwatchStates
  cases hfault : (w.stateTable.remove ns q).2 <;>
  · simp [bind, Activity.modifyGet, Step.bind, hfault]
    rfl

/-- After the history each queue has one more message for each update that concerns it. -/
structure Told (names : QueueId → List (Option String)) (w : World) (calls : List StateCall)
    (w' : World) : Prop where
  leads : Leads names w calls w'
  records : Records names calls w'.stateTable
  size : w'.queues.size = w.queues.size
  messages : ∀ q < w.queues.size, ∃ news, messagesOf w' q = messagesOf w q ++ news ∧
    List.Forall₂ (Carries names calls w'.store q) (concerning names q calls) news

namespace Told

variable {w w₁ : World} {calls : List StateCall}

theorem of_table (h : Told names w calls w₁) {c : StateCall} {t : StateTable}
    {result : Except Stop Unit}
    (hcall : c.perform names w₁ = .ended result { w₁ with stateTable := t })
    (hrecords : Records names (calls ++ [c]) t)
    (hc : ∀ q, ¬ Concerns q (registrations names calls) c) :
    Told names w (calls ++ [c]) { w₁ with stateTable := t } where
  leads := .concat h.leads hcall
  records := hrecords
  size := h.size
  messages q hq := by
    obtain ⟨news, hnews, hall⟩ := h.messages q hq
    refine ⟨news, hnews, ?_⟩
    rw [concerning_concat, if_neg (hc q), List.append_nil]
    exact hall.imp fun i m hm ↦ hm.concat (.refl _) c

theorem update (h : Told names w calls w₁) (u : Update) :
    ∃ w₂, Told names w (calls ++ [.update u]) w₂ := by
  obtain ⟨w₂, heach, htable, hstore, hsize, hmessages⟩ := each_tell u.about
    (w₁.stateTable.nodup_update u.values)
    { w₁ with stateTable := (w₁.stateTable.update u.values).1 }
  have hrecords := h.records.update u
  refine ⟨w₂, .concat h.leads heach, ?_, hsize.trans h.size, fun q hq ↦ ?_⟩
  · rwa [htable]
  · obtain ⟨news, hnews, hall⟩ := h.messages q hq
    obtain ⟨more, hmore, hmoreAll⟩ := hmessages q (h.size.symm ▸ hq)
    refine ⟨news ++ more, ?_, ?_⟩
    · rw [hmore, ← List.append_assoc, ← hnews]
      rfl
    · rw [concerning_concat]
      refine List.rel_append (hall.imp fun i m hm ↦ hm.concat hstore _) ?_
      rw [lookup_update h.records u q] at hmoreAll
      split
      · rename_i hq
        rw [if_pos hq, Option.toList_some, List.forall₂_cons_left_iff] at hmoreAll
        obtain ⟨m, rest, hm, hrest, rfl⟩ := hmoreAll
        rw [List.forall₂_nil_left_iff] at hrest
        subst hrest
        refine .cons ⟨u, _, by simp, hm, fun n v ↦ ?_⟩ .nil
        rw [lookup_lastValues, List.take_of_length_le (by simp), ← hrecords.last n v]
        simp
      · simp_all

theorem step (h : Told names w calls w₁) (c : StateCall) :
    ∃ w₂, Told names w (calls ++ [c]) w₂ := by
  cases c with
  | add q => exact ⟨_, h.of_table (watchStates_eq _ q w₁) (h.records.add q) fun _ hq ↦ hq⟩
  | remove ns q =>
    exact ⟨_, h.of_table (unwatchStates_eq ns q w₁) (h.records.remove ns q) fun _ hq ↦ hq⟩
  | update u => exact h.update u

end Told

theorem told_run (names : QueueId → List (Option String)) {w : World} (hw : w.stateTable = {})
    (calls : List StateCall) : ∃ w', Told names w calls w' := by
  induction calls using List.reverseRecOn with
  | nil =>
    refine ⟨w, .nil, hw ▸ .empty names, rfl, fun q _ ↦ ⟨[], (List.append_nil _).symm, .nil⟩⟩
  | append_singleton calls c ih =>
    obtain ⟨w₁, h⟩ := ih
    exact h.step c

/-- The message tells of the update `i` and of the values known then. -/
def Shows (names : QueueId → List (Option String)) (calls : List StateCall) (s : Store)
    (q : QueueId) (i : Nat) (m : Value) : Prop :=
  ∃ u vars, calls[i]? = some (.update u) ∧ reading? s m = some (vars, u.about) ∧
    ∀ n v, Entries.get? s vars (.text n) = some v ↔
      some n ∈ names q ∧ Latest names (calls.take (i + 1)) n v

theorem Carries.shows {s : Store} (h : Carries names calls s q i m) :
    Shows names calls s q i m := by
  obtain ⟨u, values, hu, hm, hvalues⟩ := h
  refine ⟨u, _, hu, hm.reading_eq, fun n v ↦ ?_⟩
  rw [get?_values]
  exact hvalues n v

/-- **Each change of an entity is told once, with the values of its moment.** After any calls on a
new table every queue holds, behind what it held, one message for each update that concerned it, in
order; and at the end each still shows what is said about its update and, of each name that the
queue waits for, the value of the last update of that name up to its own, if the name was known by
then. -/
theorem messages_of_updates (names : QueueId → List (Option String)) (w : World)
    (hw : w.stateTable = {}) (calls : List StateCall) :
    ∃ w', Leads names w calls w' ∧ ∀ q < w.queues.size, ∃ news,
      messagesOf w' q = messagesOf w q ++ news ∧
        List.Forall₂ (Shows names calls w'.store q) (concerning names q calls) news := by
  obtain ⟨w', h⟩ := told_run names hw calls
  refine ⟨w', h.leads, fun q hq ↦ ?_⟩
  obtain ⟨news, hnews, hall⟩ := h.messages q hq
  exact ⟨news, hnews, hall.imp fun i m hm ↦ hm.shows⟩

def twoQueues : QueueId → List (Option String)
  | 0 => [some "light.hall", some "light.hall.old", some "sun.sun"]
  | _ => [some "sun.sun"]

def quietWorld : World where
  start := default
  queues := #[{ name := "hall" }, { name := "sun" }]

def changes : List StateCall :=
  [.update ⟨[("light.hall", .text "on")], .none, by decide⟩, .add 0,
    .update ⟨[("light.hall", .text "off"), ("sun.sun", .text "up")], .none, by decide⟩, .add 1,
    .remove (.names [some "sun.sun"]) 0, .update ⟨[("sun.sun", .text "down")], .none, by decide⟩]

theorem messages_of_updates_changes :
    quietWorld.stateTable = {} ∧ concerning twoQueues 0 changes = [2] ∧
      concerning twoQueues 1 changes = [5] ∧
      ∃ w', Leads twoQueues quietWorld changes w' ∧
        (∃ m, messagesOf w' 0 = [m] ∧ Shows twoQueues changes w'.store 0 2 m) ∧
        ∃ m, messagesOf w' 1 = [m] ∧ Shows twoQueues changes w'.store 1 5 m := by
  have hzero : concerning twoQueues 0 changes = [2] := by decide
  have hone : concerning twoQueues 1 changes = [5] := by decide
  obtain ⟨w', hleads, hqueues⟩ := messages_of_updates twoQueues quietWorld rfl changes
  have single {q i : Nat} (hq : q < 2) (hnone : messagesOf quietWorld q = [])
      (hi : concerning twoQueues q changes = [i]) :
      ∃ m, messagesOf w' q = [m] ∧ Shows twoQueues changes w'.store q i m := by
    obtain ⟨news, hnews, hall⟩ := hqueues q hq
    rw [hi, List.forall₂_cons_left_iff] at hall
    obtain ⟨m, rest, hm, hrest, rfl⟩ := hall
    rw [List.forall₂_nil_left_iff] at hrest
    subst hrest
    exact ⟨m, by rw [hnews, hnone, List.nil_append], hm⟩
  exact ⟨rfl, hzero, hone, w', hleads, single (by decide) rfl hzero, single (by decide) rfl hone⟩

end TriggerScript.Notify
