import TriggerScript.Library.Member

/-!
# Values as trees

A snapshot shows what a value is at one time, with all that it refers to. An object inside itself is
shown as a cycle. Data that comes from outside is loaded the other way.
-/

namespace TriggerScript

inductive Snapshot where
  | none
  | bool (b : Bool)
  | int (n : Int)
  | float (x : Float)
  | complex (re im : Float)
  | text (s : String)
  | bytes (type : String) (bs : List UInt8)
  | list (items : List Snapshot)
  /-- Several items of a container other than a list, by the name of its type. -/
  | items (type : String) (items : List Snapshot)
  | dict (entries : List (Snapshot × Snapshot))
  | function (name : String)
  | module (name : String)
  | type (name : String)
  | callable (name : String)
  | object (type : String) (text : Option String)
  | cycle

def Value.snapshotTo (s : Store) : Nat → List Ref → Value → Snapshot
  | 0, _, _ => .cycle
  | n + 1, inside, v =>
    let many (vs : List Value) : List Snapshot := vs.map (Value.snapshotTo s n inside)
    let within (r : Ref) (make : (Value → Snapshot) → Snapshot) : Snapshot :=
      if inside.contains r then .cycle else make (Value.snapshotTo s n (r :: inside))
    match v with
    | .none => .none
    | .bool b => .bool b
    | .int i => .int i
    | .float x _ => .float x
    | .complex re im _ => .complex re im
    | .text t => .text t
    | .bytes bs => .bytes "bytes" bs
    | .byteArray r => .bytes "bytearray" (s.bytesAt r)
    | .tuple vs => .items "tuple" (many vs)
    | .frozenSet vs => .items "frozenset" (many vs)
    | .range a b c => .items "range" [.int a, .int b, .int c]
    | .slice a b c => .items "slice" (many [a, b, c])
    | .list r => within r fun f ↦ .list ((s.listAt r).map f)
    | .dict r => within r fun f ↦ .dict ((s.dictAt r).map fun e ↦ (f e.1, f e.2))
    | .set r => within r fun f ↦ .items "set" ((s.setAt r).map f)
    | .view w r =>
      within r fun f ↦ .items (v.typeName s) ((s.dictAt r).map fun e ↦ f (w.pick e))
    | .function r =>
      match s.functionAt? r with
      | some f => .function f.name
      | Option.none => .object "EvalFunc" Option.none
    | .module m => .module m
    | .type t => .type (lastPart t)
    | .builtin f => .callable f.name
    | .method _ m => .callable m.name
    | .host f => .callable f.name
    | .registered _ => .callable "<lambda>"
    | .moment _ | .date _ | .duration _ =>
      .object (lastPart (v.typeName s)) (v.plain s).toOption
    | v => .object (lastPart (v.typeName s)) Option.none

def Value.snapshot (s : Store) (v : Value) : Snapshot := Value.snapshotTo s depthLimit [] v

inductive Datum where
  | none
  | bool (b : Bool)
  | int (n : Int)
  | float (x : Float)
  | text (s : String)
  | list (items : List Datum)
  | dict (entries : List (String × Datum))

instance : Inhabited Datum := ⟨.none⟩

mutual

def Datum.load : Datum → Op Value
  | .none => return .none
  | .bool b => return .bool b
  | .int n => return .int n
  | .float x => Op.number (.float x)
  | .text s => return .text s
  | .list items => do Op.newList (← loadAll items)
  | .dict entries => do
    let s ← Op.store
    Op.newDict ((← loadEntries entries).foldl (fun es e ↦ Entries.put s es e.1 e.2) [])

def loadAll : List Datum → Op (List Value)
  | [] => return []
  | d :: ds => do
    let v ← d.load
    let vs ← loadAll ds
    return v :: vs

def loadEntries : List (String × Datum) → Op Entries
  | [] => return []
  | (k, d) :: ds => do
    let v ← d.load
    let es ← loadEntries ds
    return (.text k, v) :: es

end

end TriggerScript
