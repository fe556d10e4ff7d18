import TriggerScript.Value.Basic

/-!
# Symbol tables

A symbol table binds names to values and keeps them in the order in which they were first bound.
What is bound to a target that is not a name stands under the nameless key.

Main statements: after `put` a look-up finds the new value under its key and the old ones elsewhere
(`get?_put_self`, `get?_put_of_ne`), and `erase` removes its key alone.
-/

namespace TriggerScript

abbrev Key := Option String

structure Table where
  entries : List (Key × Value) := []

namespace Table

def lookup : List (Key × Value) → Key → Option Value
  | [], _ => none
  | (k, v) :: rest, key => if k = key then some v else lookup rest key

def insert : List (Key × Value) → Key → Value → List (Key × Value)
  | [], key, value => [(key, value)]
  | (k, v) :: rest, key, value =>
    if k = key then (k, value) :: rest else (k, v) :: insert rest key value

def remove : List (Key × Value) → Key → List (Key × Value)
  | [], _ => []
  | (k, v) :: rest, key => if k = key then remove rest key else (k, v) :: remove rest key

variable (t : Table)

def get? (key : Key) : Option Value := lookup t.entries key

def put (key : Key) (value : Value) : Table := ⟨insert t.entries key value⟩

def erase (key : Key) : Table := ⟨remove t.entries key⟩

def contains (key : Key) : Bool := (t.get? key).isSome

def putAll (entries : List (Key × Value)) : Table := entries.foldl (fun t e ↦ t.put e.1 e.2) t

theorem lookup_insert_self (es : List (Key × Value)) (k : Key) (v : Value) :
    lookup (insert es k v) k = some v := by
  induction es with
  | nil => simp [insert, lookup]
  | cons e rest ih =>
    by_cases h : e.1 = k
    · simp [insert, lookup, h]
    · simp [insert, lookup, h, ih]

theorem lookup_insert_of_ne (es : List (Key × Value)) {k k' : Key} (v : Value) (h : k' ≠ k) :
    lookup (insert es k v) k' = lookup es k' := by
  induction es with
  | nil => simp [insert, lookup, Ne.symm h]
  | cons e rest ih =>
    by_cases he : e.1 = k
    · simp [insert, lookup, he, Ne.symm h]
    · by_cases he' : e.1 = k' <;> simp [insert, lookup, he, he', h, ih]

theorem lookup_remove_self (es : List (Key × Value)) (k : Key) : lookup (remove es k) k = none := by
  induction es with
  | nil => rfl
  | cons e rest ih => by_cases h : e.1 = k <;> simp [remove, lookup, h, ih]

theorem lookup_remove_of_ne (es : List (Key × Value)) {k k' : Key} (h : k' ≠ k) :
    lookup (remove es k) k' = lookup es k' := by
  induction es with
  | nil => rfl
  | cons e rest ih =>
    by_cases he : e.1 = k
    · simp [remove, lookup, he, Ne.symm h, ih]
    · by_cases he' : e.1 = k' <;> simp [remove, lookup, he, he', h, ih]

@[simp] theorem get?_put_self (k : Key) (v : Value) : (t.put k v).get? k = some v :=
  lookup_insert_self t.entries k v

theorem get?_put_of_ne {k k' : Key} (v : Value) (h : k' ≠ k) : (t.put k v).get? k' = t.get? k' :=
  lookup_insert_of_ne t.entries v h

@[simp] theorem get?_erase_self (k : Key) : (t.erase k).get? k = none :=
  lookup_remove_self t.entries k

theorem get?_erase_of_ne {k k' : Key} (h : k' ≠ k) : (t.erase k).get? k' = t.get? k' :=
  lookup_remove_of_ne t.entries h

end Table

end TriggerScript
