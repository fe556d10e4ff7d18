import TriggerScript.Value.Iterate
import TriggerScript.Value.Slice

/-!
# Items

Reading, storing and deleting what stands under an index, a slice or a key.
-/

namespace TriggerScript

def Value.sequenceWord : Value → String
  | .bytes _ => "byte"
  | .tuple _ => "tuple"
  | .range _ _ _ => "range"
  | .byteArray _ => "bytearray"
  | _ => "list"

def indexOf (s : Store) (sequence index : Value) : Except Fault Int :=
  match index.int? with
  | some n => .ok n
  | none =>
    match sequence with
    | .text _ => .error (.textIndexType (index.typeName s))
    | sequence => .error (.indexType sequence.sequenceWord (index.typeName s))

def itemAt {α : Type} (s : Store) (sequence index : Value) (xs : List α) (fault : Fault) :
    Except Fault α := do
  let i ← placeOf (← indexOf s sequence index) xs.length fault
  match xs[i]? with
  | some x => pure x
  | none => throw fault

namespace Op

def getItem (v index : Value) : Op Value := do
  let s ← store
  match v, index with
  | .list r, .slice a b c => do newList (← look fun s ↦ sliceOf (s.listAt r) a b c)
  | .list r, i => look fun s ↦ itemAt s v i (s.listAt r) (.indexOutOfRange "list")
  | .tuple xs, .slice a b c => do return .tuple (← look fun _ ↦ sliceOf xs a b c)
  | .tuple xs, i => look fun s ↦ itemAt s v i xs (.indexOutOfRange "tuple")
  | .text t, .slice a b c => do
    return .text (String.ofList (← look fun _ ↦ sliceOf t.toList a b c))
  | .text t, i => do
    let c ← look fun s ↦ itemAt s v i t.toList (.indexOutOfRange "string")
    return .text (String.ofList [c])
  | .bytes bs, .slice a b c => do return .bytes (← look fun _ ↦ sliceOf bs a b c)
  | .bytes bs, i => do
    let b ← look fun s ↦ itemAt s v i bs (.stated .index "index out of range")
    return .int b.toNat
  | .byteArray r, .slice a b c => do
    return .byteArray (← alloc (.byteArray (← look fun s ↦ sliceOf (s.bytesAt r) a b c)))
  | .byteArray r, i => do
    let b ← look fun s ↦ itemAt s v i (s.bytesAt r) (.indexOutOfRange "bytearray")
    return .int b.toNat
  | .range start stop step, .slice a b c => do
    let len := rangeLength start stop step
    let (first, last, by_) ← look fun _ ↦ sliceBounds a b c len
    return .range (start + step * first) (start + step * last) (step * by_)
  | .range start stop step, i => do
    let len := rangeLength start stop step
    let fault : Fault := .indexOutOfRange "range object"
    let n ← look fun s ↦ indexOf s v i
    let n := if n < 0 then n + len else n
    if 0 ≤ n ∧ n < len then return .int (start + step * n) else throw fault
  | .dict r, key => do
    look fun _ ↦ key.checkKey
    match Entries.get? s (s.dictAt r) key with
    | some v => pure v
    | none => throw (missingKey s key)
  | .type name, _ => throw (.stated .type ("type '" ++ name ++ "' is not subscriptable"))
  | v, _ => throw (.notSubscriptable (v.typeName s))

def putSlice (call : Caller) (r : Ref) (a b c value : Value) : Op Unit := do
  let xs := (← store).listAt r
  let (start, stop, step) ← look fun _ ↦ sliceBounds a b c xs.length
  let whole (fault : String) : Op (List Value) := do
    match value with
    | .iterator _ => elements call value
    | v =>
      match v.cursor? (← store) with
      | some _ => elements call v
      | none => throw (.stated .type fault)
  if step == 1 then
    let ys ← whole "can only assign an iterable"
    let stop := max start stop
    put r (.list (xs.take start.toNat ++ ys ++ xs.drop stop.toNat))
  else
    let ys ← whole "must assign iterable to extended slice"
    let places := slicePlaces (start, stop, step)
    if places.length != ys.length then throw (.extendedSliceSize ys.length places.length)
    put r (.list (replaceAt xs.toArray (places.zip ys)).toList)

def byteOf (v : Value) : Op UInt8 := do
  match v.int? with
  | none => throw (.integerExpected (v.typeName (← store)))
  | some n =>
    if n < 0 ∨ 255 < n then throw (.stated .value "byte must be in range(0, 256)")
    else pure (UInt8.ofNat n.toNat)

def setItem (call : Caller) (v index value : Value) : Op Unit := do
  let s ← store
  match v, index with
  | .list r, .slice a b c => putSlice call r a b c value
  | .list r, i => do
    let xs := s.listAt r
    let fault : Fault := .stated .index "list assignment index out of range"
    let p ← look fun s ↦ do placeOf (← indexOf s v i) xs.length fault
    put r (.list (xs.set p value))
  | .dict r, key => do
    look fun _ ↦ key.checkKey
    put r (.dict (Entries.put s (s.dictAt r) key value))
  | .byteArray r, i => do
    let bs := s.bytesAt r
    let p ← look fun s ↦ do placeOf (← indexOf s v i) bs.length (.indexOutOfRange "bytearray")
    put r (.byteArray (bs.set p (← byteOf value)))
  | v, _ => throw (.noItemAssignment (v.typeName s))

def hasPlaces : Value → Bool
  | .tuple _ | .text _ | .bytes _ | .range _ _ _ | .set _ | .frozenSet _ | .view _ _
  | .function _ | .unresolved _ => true
  | _ => false

def deleteItem (v index : Value) : Op Unit := do
  let s ← store
  match v, index with
  | .list r, .slice a b c => do
    let xs := s.listAt r
    let bounds ← look fun _ ↦ sliceBounds a b c xs.length
    put r (.list (withoutPlaces xs (slicePlaces bounds)))
  | .list r, i => do
    let xs := s.listAt r
    let fault : Fault := .stated .index "list assignment index out of range"
    let p ← look fun s ↦ do placeOf (← indexOf s v i) xs.length fault
    put r (.list (xs.eraseIdx p))
  | .dict r, key => do
    look fun _ ↦ key.checkKey
    match Entries.get? s (s.dictAt r) key with
    | some _ => put r (.dict (Entries.erase s (s.dictAt r) key))
    | none => throw (missingKey s key)
  | .byteArray r, .slice a b c => do
    let bs := s.bytesAt r
    let bounds ← look fun _ ↦ sliceBounds a b c bs.length
    put r (.byteArray (withoutPlaces bs (slicePlaces bounds)))
  | .byteArray r, i => do
    let bs := s.bytesAt r
    let p ← look fun s ↦ do placeOf (← indexOf s v i) bs.length (.indexOutOfRange "bytearray")
    put r (.byteArray (bs.eraseIdx p))
  | v, i =>
    if hasPlaces v && i.int?.isSome then throw (.noDeletionAtIndex (v.typeName s))
    else throw (.noItemDeletion (v.typeName s))

def pairsOf (call : Caller) (v : Value) : Op Entries := do
  match v with
  | .dict r => return (← store).dictAt r
  | v => do
    let pairs ← walk call (fun pairs v ↦ do return (true, (← pairAt pairs.length v) :: pairs)) [] v
    return pairs.reverse
where
  /-- Reads an element, which stands at the given place, as a key and a value. -/
  pairAt (n : Nat) (v : Value) : Op (Value × Value) := do
    let s ← store
    let isSequence := match v with
      | .iterator _ => true
      | v => (v.cursor? s).isSome
    if !isSequence then
      throw (.stated .type ("cannot convert dictionary update sequence element #"
        ++ Number.natText n ++ " to a sequence"))
    match ← elements call v with
    | [key, value] => do
      look fun _ ↦ key.checkKey
      return (key, value)
    | xs =>
      throw (.stated .value ("dictionary update sequence element #" ++ Number.natText n
        ++ " has length " ++ Number.natText xs.length ++ "; 2 is required"))

def merge (base added : Entries) : Op Entries := do
  let s ← store
  pure (added.foldl (fun es e ↦ Entries.put s es e.1 e.2) base)

end Op

end TriggerScript
