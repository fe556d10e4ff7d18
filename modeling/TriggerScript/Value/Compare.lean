import TriggerScript.Value.Number

/-!
# Equality, keys and order

Equality looks through references: two lists are equal if their elements are. A key of a dictionary
or an element of a set has to be a value that cannot change.
-/

namespace TriggerScript

open Value

def depthLimit : Nat := 100000

mutual

/-- The type that keeps a value from being a key. -/
def Value.unhashable? : Value → Option String
  | .list _ => some "list"
  | .dict _ => some "dict"
  | .set _ => some "set"
  | .byteArray _ => some "bytearray"
  | .slice _ _ _ => some "slice"
  | .view .keys _ => some "dict_keys"
  | .view .items _ => some "dict_items"
  | .tuple items => unhashableAmong? items
  | _ => Option.none

def unhashableAmong? : List Value → Option String
  | [] => Option.none
  | v :: vs =>
    match v.unhashable? with
    | some t => some t
    | Option.none => unhashableAmong? vs

end

def Value.checkKey (v : Value) : Except Fault Unit :=
  match v.unhashable? with
  | some t => .error (.unhashable t)
  | Option.none => .ok ()

def rangeLength (start stop step : Int) : Nat :=
  if step > 0 then if start < stop then ((stop - start - 1) / step + 1).toNat else 0
  else if step < 0 then if stop < start then ((start - stop - 1) / (-step) + 1).toNat else 0
  else 0

def subsetBy (eq : Value → Value → Bool) (xs ys : List Value) : Bool := xs.all fun x ↦ ys.any (eq x)

def Value.identical : Value → Value → Bool
  | .float x m, .float y k => Number.isNotANumber x && Number.isNotANumber y && m == k
  | .complex a b m, .complex c d k =>
    (Num.complex a b).isNotANumber && (Num.complex c d).isNotANumber && m == k
  | .list r, .list q | .dict r, .dict q | .set r, .set q | .byteArray r, .byteArray q
  | .iterator r, .iterator q | .function r, .function q => r == q
  | _, _ => false

def Value.same : Nat → Value → Value → Bool
  | 0, _, _ => false
  | n + 1, a, b =>
    a.identical b || match a, b with
    | .none, .none => true
    | .ellipsis, .ellipsis => true
    | .bool x, .bool y => x == y
    | .int x, .int y => x == y
    | .float x _, .float y _ => x == y && Number.isNegative x == Number.isNegative y
    | .complex x y _, .complex x' y' _ => x == x' && y == y'
    | .text x, .text y => x == y
    | .bytes x, .bytes y => x == y
    | .tuple xs, .tuple ys => xs.isEqv ys (same n)
    | .frozenSet xs, .frozenSet ys => xs.isEqv ys (same n)
    | .range a b c, .range a' b' c' => a == a' && b == b' && c == c'
    | .slice a b c, .slice a' b' c' => same n a a' && same n b b' && same n c c'
    | .entityState _ r, .entityState _ q => r == q
    | .builtin f, .builtin g => f == g
    | .type t, .type u => t == u
    | .module m, .module m' => m == m'
    | .moment m, .moment m' => m == m'
    | .date m, .date m' => m == m'
    | .duration d, .duration d' => d == d'
    | .host f, .host g =>
      match f with
      | .service _ _ => false
      | _ => f == g
    | _, _ => false

def Value.isUnique : Value → Bool
  | .none | .bool _ | .ellipsis | .builtin _ | .type _ | .module _ | .host _ => true
  | .int n => -5 ≤ n && n ≤ 256
  | .text t =>
    match t.toList with
    | [] => true
    | [c] => c.toNat < 256
    | _ => false
  | .bytes bs => bs.length ≤ 1
  | .tuple items => items.isEmpty
  | _ => false

def Value.setItems? (s : Store) : Value → Option (List Value)
  | .set r => some (s.setAt r)
  | .frozenSet xs => some xs
  | .view .keys r => some ((s.dictAt r).map (·.1))
  | .view .items r => some ((s.dictAt r).map fun e ↦ .tuple [e.1, e.2])
  | _ => .none

def allEqual? (eq : Value → Value → Option Bool) : List Value → List Value → Option Bool
  | [], [] => some true
  | x :: xs, y :: ys => do if ← eq x y then allEqual? eq xs ys else return false
  | _, _ => some false

def Value.equalTo (s : Store) : Nat → Value → Value → Option Bool
  | 0, _, _ => Option.none
  | n + 1, a, b =>
    let eq (a b : Value) : Option Bool :=
      if a.identical b then some true else equalTo s n a b
    match a.num?, b.num? with
    | some x, some y => some (x.equal y)
    | some _, Option.none | Option.none, some _ => some false
    | Option.none, Option.none =>
      match a, b with
      | .none, .none => some true
      | .ellipsis, .ellipsis => some true
      | .text x, .text y => some (x == y)
      | .bytes x, .bytes y => some (x == y)
      | .bytes x, .byteArray r => some (x == s.bytesAt r)
      | .byteArray r, .bytes y => some (s.bytesAt r == y)
      | .byteArray r, .byteArray q => some (s.bytesAt r == s.bytesAt q)
      | .tuple xs, .tuple ys => allEqual? eq xs ys
      | .list r, .list q =>
        -- lists of different lengths are not looked into
        if (s.listAt r).length != (s.listAt q).length then some false
        else allEqual? eq (s.listAt r) (s.listAt q)
      | .dict r, .dict q =>
        let xs := s.dictAt r
        let ys := s.dictAt q
        if xs.length != ys.length then some false
        else
          xs.allM fun (k, v) ↦ ys.anyM fun (k', v') ↦ do
            if ← eq k k' then eq v v' else return false
      | .range a b c, .range a' b' c' =>
        let len := rangeLength a b c
        some (len == rangeLength a' b' c' && (len == 0 || a == a' && (len == 1 || c == c')))
      | .slice a b c, .slice a' b' c' => allEqual? eq [a, b, c] [a', b', c']
      | .iterator r, .iterator q => some (r == q)
      | .function r, .function q => some (r == q)
      | .builtin f, .builtin g => some (f == g)
      | .type t, .type u => some (t == u)
      | .method o m, .method o' m' => some (m == m' && same depthLimit o o')
      | .module m, .module m' => some (m == m')
      | .moment m, .moment m' => some (m == m')
      | .date m, .date m' => some (m == m')
      | .duration d, .duration d' => some (d == d')
      | .host f, .host g => some (f == g)
      | a, b =>
        match a.setItems? s, b.setItems? s with
        | some xs, some ys =>
          if xs.length != ys.length then some false else xs.allM fun x ↦ ys.anyM (eq x)
        | _, _ => some false

def comparisonDepth : Nat := 1000

def comparisonTooDeep : Fault := .stated .recursion "maximum recursion depth exceeded in comparison"

def Value.equal? (s : Store) (a b : Value) : Except Fault Bool :=
  match equalTo s comparisonDepth a b with
  | some answer => .ok answer
  | Option.none => .error comparisonTooDeep

def Value.equal (s : Store) (a b : Value) : Bool := (equalTo s comparisonDepth a b).getD false

def Value.alike? (s : Store) (a b : Value) : Except Fault Bool :=
  if a.identical b then .ok true else equal? s a b

def Value.alike (s : Store) (a b : Value) : Bool := a.identical b || equal s a b

/-! ### Dictionaries -/

namespace Entries

def get? (s : Store) (entries : Entries) (key : Value) : Option Value :=
  (entries.find? fun e ↦ alike s e.1 key).map (·.2)

def put (s : Store) : Entries → Value → Value → Entries
  | [], key, value => [(key, value)]
  | (k, v) :: rest, key, value =>
    if alike s k key then (k, value) :: rest else (k, v) :: put s rest key value

def erase (s : Store) (entries : Entries) (key : Value) : Entries :=
  entries.eraseP fun e ↦ alike s e.1 key

end Entries

def Value.among (s : Store) (items : List Value) (v : Value) : Bool := items.any (alike s v)

def Value.placeAmong? (s : Store) (v : Value) : List Value → Nat → Except Fault (Option Nat)
  | [], _ => .ok Option.none
  | x :: xs, i => do
    if ← alike? s x v then return some i else placeAmong? s v xs (i + 1)

def setInsert (s : Store) (items : List Value) (v : Value) : List Value :=
  if v.among s items then items else items ++ [v]

def setOf (s : Store) (items : List Value) : List Value := items.foldl (setInsert s) []

/-! ### Order -/

def orderSign : Syntax.Comparison → String
  | .lt => "<" | .ltE => "<=" | .gt => ">" | .gtE => ">=" | .eq => "==" | .notEq => "!="
  | .is => "is" | .isNot => "is not" | .isIn => "in" | .notIn => "not in"

def holds : Syntax.Comparison → Ordering → Bool
  | .lt, o => o == .lt
  | .ltE, o => o != .gt
  | .gt, o => o == .gt
  | .gtE, o => o != .lt
  | _, _ => false

def compareBytes : List UInt8 → List UInt8 → Ordering
  | [], [] => .eq
  | [], _ => .lt
  | _, [] => .gt
  | a :: as, b :: bs => if a < b then .lt else if b < a then .gt else compareBytes as bs

def compareText : List Char → List Char → Ordering
  | [], [] => .eq
  | [], _ => .lt
  | _, [] => .gt
  | a :: as, b :: bs => if a < b then .lt else if b < a then .gt else compareText as bs

def firstDifference (eq : Value → Value → Except Fault Bool) :
    List Value → List Value → Except Fault (Option (Value × Value))
  | a :: as, b :: bs => do if ← eq a b then firstDifference eq as bs else return some (a, b)
  | _, _ => .ok none

def orderSets (eq : Value → Value → Bool) (op : Syntax.Comparison) (xs ys : List Value) : Bool :=
  let below := subsetBy eq xs ys
  let above := subsetBy eq ys xs
  match op with
  | .lt => below && xs.length < ys.length
  | .ltE => below
  | .gt => above && ys.length < xs.length
  | .gtE => above
  | _ => false

def Value.orderTo (s : Store) (op : Syntax.Comparison) : Nat → Value → Value → Except Fault Bool
  | 0, _, _ => .error comparisonTooDeep
  | n + 1, a, b =>
    let refuse : Except Fault Bool :=
      .error (.unordered (orderSign op) (a.typeName s) (b.typeName s))
    let sequences (xs ys : List Value) : Except Fault Bool := do
      match ← firstDifference (alike? s) xs ys with
      | some (x, y) => orderTo s op n x y
      | .none => .ok (holds op (compare xs.length ys.length))
    match a.num?, b.num? with
    | some (.complex ..), some _ | some _, some (.complex ..) => refuse
    | some x, some y => .ok (((x.compare? y).map (holds op)).getD false)
    | some _, .none | .none, some _ => refuse
    | .none, .none =>
      match a, b with
      | .text x, .text y => .ok (holds op (compareText x.toList y.toList))
      | .bytes x, .bytes y => .ok (holds op (compareBytes x y))
      | .bytes x, .byteArray r => .ok (holds op (compareBytes x (s.bytesAt r)))
      | .byteArray r, .bytes y => .ok (holds op (compareBytes (s.bytesAt r) y))
      | .byteArray r, .byteArray q => .ok (holds op (compareBytes (s.bytesAt r) (s.bytesAt q)))
      | .tuple xs, .tuple ys => sequences xs ys
      | .list r, .list q => sequences (s.listAt r) (s.listAt q)
      | .moment x, .moment y => .ok (holds op (compare x.ticks y.ticks))
      | .date x, .date y => .ok (holds op (compare x.ticks y.ticks))
      | .moment _, .date _ =>
        .error (.stated .type "can't compare datetime.datetime to datetime.date")
      | .date _, .moment _ =>
        .error (.stated .type "can't compare datetime.datetime to datetime.date")
      | .duration x, .duration y => .ok (holds op (compare x y))
      | a, b =>
        match a.setItems? s, b.setItems? s with
        | some xs, some ys => .ok (orderSets (alike s) op xs ys)
        | _, _ => refuse

def Value.order (s : Store) (op : Syntax.Comparison) (a b : Value) : Except Fault Bool :=
  orderTo s op comparisonDepth a b

/-! ### Truth -/

def Value.truth (s : Store) : Value → Bool
  | .none => false
  | .bool b => b
  | .int n => n != 0
  | .float x _ => !(x == 0)
  | .complex re im _ => !(re == 0 && im == 0)
  | .text t => !t.isEmpty
  | .bytes bs => !bs.isEmpty
  | .tuple items => !items.isEmpty
  | .frozenSet items => !items.isEmpty
  | .range a b c => rangeLength a b c != 0
  | .list r => !(s.listAt r).isEmpty
  | .dict r | .view _ r => !(s.dictAt r).isEmpty
  | .set r => !(s.setAt r).isEmpty
  | .byteArray r => !(s.bytesAt r).isEmpty
  | .duration d => d != 0
  | _ => true

end TriggerScript
