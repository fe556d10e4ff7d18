import TriggerScript.Value.Compare

/-!
# Sorting

A stable sort by a comparison that may fail. It first finds the longest run at the start that is in
order, or strictly against it, and then inserts each further element by bisection. So which two
elements are compared first, and thereby which of several refusals is reported, is determined.
-/

namespace TriggerScript

abbrev Below := Value → Value → Except Fault Bool

namespace Sorting

def run (below : Below) (xs : Array (Value × Value)) (wanted : Bool) : Nat → Nat → Except Fault Nat
  | 0, i => .ok i
  | n + 1, i =>
    match xs[i]?, xs[i - 1]? with
    | some x, some y => do
      if (← below x.1 y.1) == wanted then run below xs wanted n (i + 1) else .ok i
    | _, _ => .ok i

def place (below : Below) (xs : Array (Value × Value)) (key : Value) :
    Nat → Nat → Nat → Except Fault Nat
  | 0, lo, _ => .ok lo
  | n + 1, lo, hi =>
    if lo < hi then
      let mid := (lo + hi) / 2
      match xs[mid]? with
      | some x => do
        if ← below key x.1 then place below xs key n lo mid else place below xs key n (mid + 1) hi
      | none => .ok lo
    else .ok lo

def insertAll (below : Below) :
    Array (Value × Value) → List (Value × Value) → Except Fault (Array (Value × Value))
  | xs, [] => .ok xs
  | xs, x :: rest => do
    let i ← place below xs x.1 (xs.size + 1) 0 xs.size
    insertAll below (xs.insertIdxIfInBounds i x) rest

end Sorting

def sortBy (below : Below) (items : List (Value × Value)) : Except Fault (List Value) := do
  match items with
  | x :: y :: _ =>
    let xs := items.toArray
    let falling ← below y.1 x.1
    let len ← Sorting.run below xs falling xs.size 2
    let start := if falling then (xs.take len).reverse else xs.take len
    let sorted ← Sorting.insertAll below start (items.drop len)
    return sorted.toList.map (·.2)
  | _ => return items.map (·.2)

end TriggerScript
