import TriggerScript.Text.Cut
import TriggerScript.Value.Percent

/-!
# Operators

What the operators of the language do with two values: arithmetic on numbers, concatenation and
repetition of sequences, the algebra of sets, sums of times and durations, and formatting of texts
by `%`. Operands that do not fit are refused with their types.
-/

namespace TriggerScript

def operatorSign : Syntax.Operator → String
  | .add => "+" | .sub => "-" | .mult => "*" | .matMult => "@" | .div => "/" | .mod => "%"
  | .pow => "** or pow()" | .lShift => "<<" | .rShift => ">>" | .bitOr => "|" | .bitXor => "^"
  | .bitAnd => "&" | .floorDiv => "//"

def shiftLimit : Int := 69175290276410818350

def shiftUp (m n : Int) : Except Fault Int :=
  if n < 0 then .error .negativeShift
  else if m == 0 then .ok 0
  else if shiftLimit ≤ n then .error (.stated .overflow "too many digits in integer")
  else do
    checkCapacity n.toNat
    return m * Number.twoTo n.toNat

def shiftDown (m n : Int) : Except Fault Int :=
  if n < 0 then .error .negativeShift
  else if m.natAbs.log2 < n then .ok (if m < 0 then -1 else 0)
  else .ok (m.fdiv (Number.twoTo n.toNat))

variable (op : Syntax.Operator)

def integerOperation? (m n : Int) : Option (Except Fault Int) :=
  match op with
  | .lShift => some (shiftUp m n)
  | .rShift => some (shiftDown m n)
  | .bitOr => some (.ok (Number.bitOr m n))
  | .bitXor => some (.ok (Number.bitXor m n))
  | .bitAnd => some (.ok (Number.bitAnd m n))
  | _ => none

def numberOperation? (x y : Num) : Option (Except Fault Num) :=
  match op, x, y with
  | .floorDiv, .complex .., _ | .floorDiv, _, .complex .. => none
  | .mod, .complex .., _ | .mod, _, .complex .. => none
  | .add, x, y => some (x.add y)
  | .sub, x, y => some (x.sub y)
  | .mult, x, y => some (x.mul y)
  | .div, x, y => some (x.div y)
  | .mod, x, y => some (x.mod y)
  | .pow, x, y => some (x.pow y)
  | .floorDiv, x, y => some (x.floorDiv y)
  | op, .int m, .int n => (integerOperation? op m n).map (·.map Num.int)
  | _, _, _ => none

def truthOperation? (a b : Bool) : Option Bool :=
  match op with
  | .bitOr => some (a || b)
  | .bitXor => some (a != b)
  | .bitAnd => some (a && b)
  | _ => none

/-- Whether an operator is one of those that combine sets. -/
def Syntax.Operator.ofSets : Syntax.Operator → Bool
  | .sub | .bitAnd | .bitOr | .bitXor => true
  | _ => false

def Value.isView : Value → Bool
  | .view .. => true
  | _ => false

def setOperation? (s : Store) (op : Syntax.Operator) (xs ys : List Value) : Option (List Value) :=
  match op with
  | .sub => some (xs.filter fun x ↦ !x.among s ys)
  | .bitAnd => some (xs.filter fun x ↦ x.among s ys)
  | .bitOr => some (setOf s (xs ++ ys))
  | .bitXor => some (xs.filter (fun x ↦ !x.among s ys) ++ ys.filter fun y ↦ !y.among s xs)
  | _ => none

/-- A duration times a number of any size, rounded to microseconds. -/
def scaleDuration (d : Calendar.Duration) (num : Int) (den : Nat) :
    Except Fault Calendar.Duration :=
  Calendar.Duration.checked (Number.roundDivInt (d * num) den)

def durationByNumber? (d : Calendar.Duration) (x : Num) : Option (Except Fault Value) :=
  let ratio : Option (Int × Nat) := match x with
    | .int n => some (n, 1)
    | .float x => Number.fraction? x
    | .complex .. => none
  match op, x, ratio with
  | .mult, _, some (num, den) => some ((scaleDuration d num den).map .duration)
  | .div, .float _, some (num, den) =>
    if num == 0 then some (.error (.divisionByZero "division by zero"))
    else some ((scaleDuration d (if num < 0 then -(den : Int) else den) num.natAbs).map .duration)
  | .div, .int n, _ =>
    if n == 0 then some (.error (.divisionByZero "integer division or modulo by zero"))
    else some ((scaleDuration d (if n < 0 then -1 else 1) n.natAbs).map .duration)
  | .floorDiv, .int n, _ =>
    if n == 0 then some (.error (.divisionByZero "integer division or modulo by zero"))
    else some ((Calendar.Duration.checked (d.fdiv n)).map .duration)
  | _, _, _ => none

def durationOperation? (d e : Calendar.Duration) : Option (Except Fault Value) :=
  let zero := Except.error (.divisionByZero "integer division or modulo by zero")
  match op with
  | .add => some ((Calendar.Duration.checked (d + e)).map .duration)
  | .sub => some ((Calendar.Duration.checked (d - e)).map .duration)
  | .div =>
    some (if e == 0 then .error (.divisionByZero "division by zero")
      else (Num.divInts d e).map (Num.marked 0))
  | .floorDiv => some (if e == 0 then zero else .ok (.int (d.fdiv e)))
  | .mod => some (if e == 0 then zero else .ok (.duration (d.fmod e)))
  | _ => none

def timeOperation? (a b : Value) : Option (Except Fault Value) :=
  let wholeDays (d : Calendar.Duration) : Calendar.Duration := d.fdiv Calendar.day * Calendar.day
  match op, a, b with
  | .add, .moment m, .duration d | .add, .duration d, .moment m => some ((m.add d).map .moment)
  | .sub, .moment m, .duration d => some ((m.add (-d)).map .moment)
  | .sub, .moment m, .moment n => some (.ok (.duration (m.since n)))
  | .add, .date m, .duration d | .add, .duration d, .date m =>
    some ((m.add (wholeDays d)).map .date)
  | .sub, .date m, .duration d => some ((m.add (-(wholeDays d))).map .date)
  | .sub, .date m, .date n => some (.ok (.duration (m.since n)))
  | op, .duration d, .duration e => durationOperation? op d e
  | op, .duration d, b => b.num?.bind (durationByNumber? op d)
  | .mult, a, .duration d => a.num?.bind (durationByNumber? .mult d)
  | _, _, _ => none

def repeated {α : Type} (fault : Fault) (xs : List α) (n : Int) : Except Fault (List α) := do
  return (List.replicate (← copiesOf xs.length n fault) xs).flatten

def inRange (start stop step : Int) (v : Value) : Bool :=
  let whole : Option Int := match v.num? with
    | some (.int n) => some n
    | some (.float x) => if Number.isWhole x then Number.truncate? x else none
    | some (.complex re im) =>
      if im == 0 && Number.isWhole re then Number.truncate? re else none
    | none => none
  match whole with
  | some n =>
    let inside := if step > 0 then start ≤ n ∧ n < stop else stop < n ∧ n ≤ start
    inside && (n - start) % step == 0
  | none => false

namespace Op

def isSequence : Value → Bool
  | .list _ | .tuple _ | .text _ | .bytes _ | .byteArray _ => true
  | _ => false

def concatenate (a b : Value) : Op (Option Value) := do
  let s ← store
  match a, b with
  | .list r, .list q => do return some (← newList (s.listAt r ++ s.listAt q))
  | .tuple xs, .tuple ys => pure (some (.tuple (xs ++ ys)))
  | .text x, .text y => pure (some (.text (x ++ y)))
  | .bytes x, .bytes y => pure (some (.bytes (x ++ y)))
  | .bytes x, .byteArray q => pure (some (.bytes (x ++ s.bytesAt q)))
  | .byteArray r, .bytes y => do
    return some (.byteArray (← alloc (.byteArray (s.bytesAt r ++ y))))
  | .byteArray r, .byteArray q => do
    return some (.byteArray (← alloc (.byteArray (s.bytesAt r ++ s.bytesAt q))))
  | .list _, b | .tuple _, b | .text _, b => throw (.concatenation (a.typeName s) (b.typeName s))
  | .bytes _, b | .byteArray _, b =>
    throw (.stated .type ("can't concat " ++ b.typeName s ++ " to " ++ a.typeName s))
  | _, _ => pure none

def repeatSequence (a : Value) (n : Int) : Op Value := do
  let copies {α : Type} (fault : Fault) (xs : List α) : Op (List α) :=
    look fun _ ↦ repeated fault xs n
  let s ← store
  match a with
  | .list r => do newList (← copies .outOfMemory (s.listAt r))
  | .tuple xs => do return .tuple (← copies .outOfMemory xs)
  | .text t => do
    return .text (String.ofList
      (← copies (.stated .overflow "repeated string is too long") t.toList))
  | .bytes bs => do
    return .bytes (← copies (.stated .overflow "repeated bytes are too long") bs)
  | .byteArray r => do
    return .byteArray (← alloc (.byteArray (← copies .outOfMemory (s.bytesAt r))))
  | a => pure a

def unary (op : Syntax.UnaryOperator) (v : Value) : Op Value := do
  let s ← store
  match op, v with
  | .not, v => pure (.bool (!v.truth s))
  | .uAdd, v => pure v
  | .invert, v =>
    match v.int? with
    | some n => pure (.int (Number.bitNot n))
    | none => throw (.badOperand "unary ~" (v.typeName s))
  | .uSub, .duration d => do return .duration (← look fun _ ↦ Calendar.Duration.checked (-d))
  | .uSub, v =>
    match v.num? with
    | some x => number x.neg
    | none => throw (.badOperand "unary -" (v.typeName s))

def meets (call : Caller) (r : Ref) (v : Value) : Nat → Op Bool
  | 0 => throw .outOfFuel
  | n + 1 => do
    match ← next call r with
    | none => pure false
    | some x => if ← look fun s ↦ Value.alike? s x v then pure true else meets call r v n

variable (call : Caller)

def contains (container v : Value) : Op Bool := do
  let s ← store
  match container, v with
  | .text t, .text part => pure (Text.occursIn part.toList t.toList)
  | .text _, v => throw (.textMemberExpected (v.typeName s))
  | .list r, v => foundIn (s.listAt r) v
  | .tuple xs, v => foundIn xs v
  | .dict r, v | .view .keys r, v => do
    look fun _ ↦ v.checkKey
    pure (Entries.get? s (s.dictAt r) v).isSome
  | .view .values r, v => foundIn ((s.dictAt r).map (·.2)) v
  | .view .items r, .tuple [key, value] => do
    look fun _ ↦ key.checkKey
    match Entries.get? s (s.dictAt r) key with
    | some v => look fun s ↦ Value.alike? s v value
    | none => pure false
  | .view .items _, _ => pure false
  | .set r, v => do
    look fun _ ↦ v.checkKey
    pure (v.among s (s.setAt r))
  | .frozenSet xs, v => do
    look fun _ ↦ v.checkKey
    pure (v.among s xs)
  | .range a b c, v => pure (inRange a b c v)
  | .bytes bs, v => inBytes s bs v
  | .byteArray r, v => inBytes s (s.bytesAt r) v
  | .iterator r, v => meets call r v 10000000
  | c, _ => throw (.notContainer (c.typeName s))
where
  /-- A list has an element that is the value or equal to it. -/
  foundIn (items : List Value) (v : Value) : Op Bool := do
    return (← look fun s ↦ Value.placeAmong? s v items 0).isSome
  /-- A byte or a run of bytes occurs among bytes. -/
  inBytes (s : Store) (bs : List UInt8) (v : Value) : Op Bool := do
    match v with
    | .bytes part =>
      pure ((List.range (bs.length + 1)).any fun i ↦ (bs.drop i).take part.length == part)
    | v =>
      match v.int? with
      | some n =>
        if n < 0 ∨ 255 < n then throw (.stated .value "byte must be in range(0, 256)")
        else pure (bs.any fun b ↦ (b.toNat : Int) == n)
      | none =>
        throw (.stated .type ("a bytes-like object is required, not '" ++ v.typeName s ++ "'"))

/-- The elements of an operand beside a view of a dictionary, which can be anything to go
through. -/
def operandItems (op : Syntax.Operator) (view v : Value) : Op (List Value) :=
  walk call (fun items x ↦ do
    if op == .bitAnd then
      if ← contains call view x then return (true, setInsert (← store) items x)
      else return (true, items)
    else
      look fun _ ↦ x.checkKey
      return (true, setInsert (← store) items x)) [] v

def setAlgebra (op : Syntax.Operator) (a b : Value) : Op (Option Value) := do
  let s ← store
  let combined (xs ys : List Value) : Op (Option Value) := do
    match setOperation? (← store) op xs ys with
    | none => pure none
    | some items =>
      match a, b with
      | .frozenSet _, .view .. => do return some (← newSet items)
      | .frozenSet _, _ => pure (some (.frozenSet items))
      | _, _ => do return some (← newSet items)
  match a.setItems? s, b.setItems? s with
  | some xs, some ys => combined xs ys
  | some xs, none =>
    if a.isView && op.ofSets then
      let ys ← operandItems call op a b
      combined (if op == .bitAnd then ys else xs) ys
    else pure none
  | none, some _ =>
    if b.isView && op.ofSets then
      let xs ← operandItems call op b a
      combined xs ((b.setItems? (← store)).getD [])
    else pure none
  | none, none => pure none

def binary (op : Syntax.Operator) (a b : Value) : Op Value := do
  let s ← store
  let refuse : Op Value :=
    throw (.unsupportedOperands (operatorSign op) (a.typeName s) (b.typeName s))
  let boolean : Option Bool := match a, b with
    | .bool x, .bool y => truthOperation? op x y
    | _, _ => none
  match boolean, a.num?, b.num? with
  | some r, _, _ => pure (.bool r)
  | none, some x, some y =>
    match numberOperation? op x y with
    | some r => do number (← look fun _ ↦ r)
    | none => refuse
  | none, _, _ =>
    match timeOperation? op a b with
    | some r => look fun _ ↦ r
    | none =>
      match op, a, b with
      | .mod, .text format, args => do return .text (← percentFormat format args)
      | .bitOr, .dict r, .dict q => do newDict (← Op.merge (s.dictAt r) (s.dictAt q))
      | .add, a, b => do
        match ← concatenate a b with
        | some v => pure v
        | none => refuse
      | .mult, a, b =>
        if isSequence a then
          match b.int? with
          | some n => repeatSequence a n
          | none => throw (.repetition (b.typeName s))
        else if isSequence b then
          match a.int? with
          | some n => repeatSequence b n
          | none => throw (.repetition (a.typeName s))
        else refuse
      | op, a, b => do
        match ← setAlgebra call op a b with
        | some v => pure v
        | none => refuse

def compare (op : Syntax.Comparison) (a b : Value) : Op Bool := do
  match op with
  | .eq => look fun s ↦ Value.equal? s a b
  | .notEq => do return !(← look fun s ↦ Value.equal? s a b)
  | .is => pure (Value.same depthLimit a b)
  | .isNot => pure (!Value.same depthLimit a b)
  | .isIn => contains call b a
  | .notIn => do return !(← contains call b a)
  | op => look fun s ↦ Value.order s op a b

end Op

end TriggerScript
