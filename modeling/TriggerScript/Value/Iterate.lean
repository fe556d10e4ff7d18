import TriggerScript.Value.Capacity
import TriggerScript.Value.Text

/-!
# Going through elements

What can be gone through gives a cursor, an object that yields one element at a time. A cursor on a
list looks at the list again for every element; one on a dictionary or a set refuses to go on when
the number of entries has changed. A cursor that has come to its end stays there.
-/

namespace TriggerScript

/-- How functions are called that a cursor applies to its elements. -/
abbrev Caller := Value → List Value → Op Value

def chars (t : String) : List Value := t.toList.map fun c ↦ .text (String.ofList [c])

def byteValues (bs : List UInt8) : List Value := bs.map fun b ↦ .int b.toNat

def rangeItems (start stop step : Int) : List Value :=
  (List.range (rangeLength start stop step)).map fun (i : Nat) ↦ .int (start + step * i)

def View.pick : View → Value × Value → Value
  | .keys, e => e.1
  | .values, e => e.2
  | .items, e => .tuple [e.1, e.2]

def Value.cursor? (s : Store) : Value → Option Cursor
  | .list r => some (.list r 0)
  | .tuple xs => some (.over "tuple_iterator" xs)
  | .text t =>
    let type := if t.toList.all (·.toNat < 128) then "str_ascii_iterator" else "str_iterator"
    some (.over type (chars t))
  | .bytes bs => some (.over "bytes_iterator" (byteValues bs))
  | .byteArray r => some (.over "bytearray_iterator" (byteValues (s.bytesAt r)))
  | .range a b c => some (.range a b c)
  | .dict r => some (.dict .keys r 0 (s.dictAt r).length)
  | .view w r => some (.dict w r 0 (s.dictAt r).length)
  | .set r => some (.set r (setOrder (s.setAt r)) (s.setAt r).length)
  | .frozenSet xs => some (.over "set_iterator" (setOrder xs))
  | _ => .none

namespace Op

def iterate (v : Value) : Op Ref := do
  match v with
  | .iterator r => pure r
  | v =>
    let s ← store
    match v.cursor? s with
    | some c => alloc (.cursor c)
    | none => throw (.notIterable (v.typeName s))

/-- Moves a cursor on and gives the element it was at. -/
def nextTo (call : Caller) : Nat → Ref → Op (Option Value)
  | 0, _ => throw .outOfFuel
  | n + 1, r => do
    let s ← store
    let c := s.cursorAt r
    let finish : Op (Option Value) := do
      put r (.cursor (.finished c.typeName))
      pure none
    let yield_ (c : Cursor) (v : Value) : Op (Option Value) := do
      put r (.cursor c)
      pure (some v)
    match c with
    | .finished _ => pure none
    | .over type rest =>
      match rest with
      | [] => finish
      | v :: rest => yield_ (.over type rest) v
    | .range next stop step =>
      if rangeLength next stop step == 0 then finish
      else yield_ (.range (next + step) stop step) (.int next)
    | .list q i =>
      match (s.listAt q)[i]? with
      | some v => yield_ (.list q (i + 1)) v
      | none => finish
    | .reverse q left =>
      match left with
      | 0 => finish
      | i + 1 =>
        match (s.listAt q)[i]? with
        | some v => yield_ (.reverse q i) v
        | none => finish
    | .dict what q i size =>
      if (s.dictAt q).length != size then throw (.changedDuringIteration "dictionary")
      else
        match (s.dictAt q)[i]? with
        | some e => yield_ (.dict what q (i + 1) size) (what.pick e)
        | none => finish
    | .set q rest size =>
      if (s.setAt q).length != size then throw (.changedDuringIteration "Set")
      else
        match rest with
        | [] => finish
        | v :: rest => yield_ (.set q rest size) v
    | .enumerate inner count =>
      match ← nextTo call n inner with
      | some v => yield_ (.enumerate inner (count + 1)) (.tuple [.int count, v])
      | none => finish
    | .zip inners =>
      match ← nextAll call n inners with
      | some vs => if vs.isEmpty then finish else pure (some (.tuple vs))
      | none => pure none
    | .map f inners =>
      match ← nextAll call n inners with
      | some vs =>
        try
          return some (← call f vs)
        catch e =>
          if e = .exhausted then return none else throw e
      | none => pure none
    | .filter f inner => nextKept call n f inner
where
  nextAll (call : Caller) : Nat → List Ref → Op (Option (List Value))
    | _, [] => pure (some [])
    | 0, _ => throw .outOfFuel
    | n + 1, r :: rs => do
      match ← nextTo call n r with
      | none => pure none
      | some v =>
        match ← nextAll call n rs with
        | none => pure none
        | some vs => pure (some (v :: vs))
  nextKept (call : Caller) : Nat → Value → Ref → Op (Option Value)
    | 0, _, _ => throw .outOfFuel
    | n + 1, f, r => do
      match ← nextTo call n r with
      | none => pure none
      | some v =>
        let kept ← match f with
          | .none => pure v
          | f => call f [v]
        if kept.truth (← store) then pure (some v) else nextKept call n f r

def elementLimit : Nat := 10000000

def next (call : Caller) (r : Ref) : Op (Option Value) := nextTo call elementLimit r

def drainTo (call : Caller) (r : Ref) : Nat → List Value → Op (List Value)
  | 0, _ => throw .outOfFuel
  | n + 1, acc => do
    match ← next call r with
    | some v => drainTo call r n (v :: acc)
    | none => pure acc.reverse

def elements (call : Caller) (v : Value) : Op (List Value) := do
  let s ← store
  match v with
  | .list r => pure (s.listAt r)
  | .tuple xs => pure xs
  | .text t => pure (chars t)
  | .range a b c => do
    let size := rangeLength a b c
    look fun _ ↦ do
      let _ ← wordOf .sizeTooWide size
      checkCapacity size
    pure (rangeItems a b c)
  | .dict r => pure ((s.dictAt r).map (·.1))
  | .set r => pure (setOrder (s.setAt r))
  | v => drainTo call (← iterate v) elementLimit []

def walkList {α : Type} (step : α → Value → Op (Bool × α)) : α → List Value → Op α
  | a, [] => pure a
  | a, v :: vs => do
    let (more, a) ← step a v
    if more then walkList step a vs else pure a

def walkCursor {α : Type} (call : Caller) (r : Ref) (step : α → Value → Op (Bool × α)) :
    Nat → α → Op α
  | 0, _ => throw .outOfFuel
  | n + 1, a => do
    match ← next call r with
    | none => pure a
    | some v =>
      let (more, a) ← step a v
      if more then walkCursor call r step n a else pure a

def walk {α : Type} (call : Caller) (step : α → Value → Op (Bool × α)) (a : α) (v : Value) :
    Op α := do
  match v with
  | .iterator _ | .range _ _ _ => walkCursor call (← iterate v) step elementLimit a
  | v => walkList step a (← elements call v)

end Op

end TriggerScript
