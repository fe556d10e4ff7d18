import TriggerScript.Value.Capacity
import TriggerScript.Value.Compare

/-!
# Places in a sequence

An index counts from the end when it is negative. A slice picks the places `start`, `start + step`,
… before `stop`; bounds outside the sequence are moved to its ends.
-/

namespace TriggerScript

def placeOf (index : Int) (length : Nat) (fault : Fault) : Except Fault Nat := do
  let index ← wordOf .indexTooWide index
  let i := if index < 0 then index + length else index
  if 0 ≤ i ∧ i < length then return i.toNat else throw fault

def sliceBound (v : Value) : Except Fault (Option Int) :=
  match v with
  | .none => .ok none
  | v =>
    match v.int? with
    | some n => .ok (some n)
    | none => .error .sliceIndexType

def clamp (length : Nat) (step bound : Int) : Int :=
  let b := if bound < 0 then bound + length else bound
  if b < 0 then if step < 0 then -1 else 0
  else if b ≥ length then if step < 0 then (length : Int) - 1 else length
  else b

def sliceBounds (start stop step : Value) (length : Nat) : Except Fault (Int × Int × Int) := do
  let step := (← sliceBound step).getD 1
  if step == 0 then throw .sliceStepZero
  let start := match ← sliceBound start with
    | some b => clamp length step b
    | none => if step < 0 then (length : Int) - 1 else 0
  let stop := match ← sliceBound stop with
    | some b => clamp length step b
    | none => if step < 0 then -1 else length
  pure (start, stop, step)

def slicePlaces (bounds : Int × Int × Int) : List Nat :=
  let (start, stop, step) := bounds
  (List.range (rangeLength start stop step)).map fun (i : Nat) ↦ (start + step * i).toNat

def sliceOf {α : Type} (xs : List α) (start stop step : Value) : Except Fault (List α) := do
  let bounds ← sliceBounds start stop step xs.length
  if bounds.2.2 == 1 then pure ((xs.drop bounds.1.toNat).take (bounds.2.1 - bounds.1).toNat)
  else
    let a := xs.toArray
    pure ((slicePlaces bounds).filterMap (a[·]?))

def replaceAt {α : Type} (xs : Array α) : List (Nat × α) → Array α
  | [] => xs
  | (i, x) :: rest => replaceAt (xs.setIfInBounds i x) rest

def withoutPlaces {α : Type} (xs : List α) (places : List Nat) : List α :=
  ((xs.zip (List.range xs.length)).filter fun p ↦ !places.contains p.2).map (·.1)

end TriggerScript
