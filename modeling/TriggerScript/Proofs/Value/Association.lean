import Mathlib.Data.List.Nodup
import TriggerScript.Value.Compare

/-!
# Lists of keys and what is kept under them

Tables are lists of pairs, looked up with `List.lookup` and changed with `assign`. What is kept
under a key is the first entry with that key, so the order of the keys is that of their first
assignment. Where keys are values, those that are texts are told apart as texts (`find?_text`).
-/

namespace TriggerScript

variable {κ α : Type} [BEq κ]

theorem assign_nil (k : κ) (a : α) : assign [] k a = [(k, a)] := rfl

theorem assign_cons (p : κ × α) (l : List (κ × α)) (k : κ) (a : α) :
    assign (p :: l) k a = if p.1 == k then (p.1, a) :: l else p :: assign l k a := rfl

variable [LawfulBEq κ] {l : List (κ × α)} {a : α} {k : κ}

theorem lookup_eq_none_of_not_mem (h : k ∉ l.map (·.1)) : l.lookup k = none := by
  rw [List.lookup_eq_none_iff]
  intro p hp
  rw [bne_iff_ne]
  rintro rfl
  exact h (List.mem_map_of_mem hp)

theorem lookup_eq_some_iff_mem (h : (l.map (·.1)).Nodup) : l.lookup k = some a ↔ (k, a) ∈ l := by
  induction l with
  | nil => simp
  | cons p l ih => grind

theorem lookup_filter_of_ne (l : List (κ × α)) {k' : κ} (h : k' ≠ k) :
    (l.filter (·.1 != k)).lookup k' = l.lookup k' := by
  induction l with
  | nil => rfl
  | cons p l ih =>
    obtain ⟨k₁, a⟩ := p
    by_cases h₁ : k₁ = k
    · grind
    · rw [List.filter_cons_of_pos (by simpa using h₁)]
      simp only [List.lookup_cons]
      split
      · rfl
      · exact ih

theorem alike_text (s : Store) (a b : String) : Value.alike s (.text a) (.text b) = (a == b) := rfl

theorem find?_text (s : Store) (l : List (String × α)) (n : String) :
    ((l.map fun p ↦ (Value.text p.1, p.2)).find? fun e ↦ Value.alike s e.1 (.text n)).map (·.2) =
      l.lookup n := by
  induction l with
  | nil => rfl
  | cons p l ih =>
    rw [List.map_cons, List.find?_cons, alike_text, List.lookup_cons, BEq.comm]
    split
    · rfl
    · exact ih

/-! ### Assignments -/

theorem lookup_assign [DecidableEq κ] (l : List (κ × α)) (k : κ) (a : α) (k' : κ) :
    (assign l k a).lookup k' = if k' = k then some a else l.lookup k' := by
  induction l with
  | nil => grind [assign_nil]
  | cons p l ih => grind [assign_cons]

theorem mem_keys_assign (l : List (κ × α)) (k : κ) (a : α) (k' : κ) :
    k' ∈ (assign l k a).map (·.1) ↔ k' = k ∨ k' ∈ l.map (·.1) := by
  induction l with
  | nil => simp [assign_nil]
  | cons p l ih => grind [assign_cons]

theorem mem_assign {p : κ × α} (hp : p ∈ assign l k a) : p = (k, a) ∨ p ∈ l := by
  induction l with
  | nil => exact .inl (List.mem_singleton.1 hp)
  | cons p' l ih => grind [assign_cons]

theorem nodup_assign (h : (l.map (·.1)).Nodup) (k : κ) (a : α) :
    ((assign l k a).map (·.1)).Nodup := by
  induction l with
  | nil => exact List.nodup_singleton k
  | cons p l ih => grind [assign_cons, mem_keys_assign]

theorem nodup_values_assign (h : (l.map (·.2)).Nodup) (k : κ) (ha : a ∉ l.map (·.2)) :
    ((assign l k a).map (·.2)).Nodup := by
  induction l with
  | nil => exact List.nodup_singleton a
  | cons p l ih =>
    rw [assign_cons]
    grind [→ mem_assign]

theorem assign_assign (l : List (κ × α)) (k : κ) (a : α) :
    assign (assign l k a) k a = assign l k a := by
  induction l with
  | nil => simp [assign_nil, assign_cons]
  | cons p l ih =>
    by_cases h : p.1 == k
    · simp [assign_cons, h]
    · simp [assign_cons, h, ih]

end TriggerScript
