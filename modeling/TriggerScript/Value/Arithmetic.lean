import TriggerScript.Number.Bits
import TriggerScript.Number.Division
import TriggerScript.Value.Number

/-!
# Arithmetic

The operations on numbers. Two integers give an integer, except for true division and negative
powers; an integer beside a `Float` is first rounded to one; anything beside a complex number is
taken as one.
-/

namespace TriggerScript.Num

open Number

def toFloat : Num → Except Fault Float
  | int n => floatOfInt n
  | float x => .ok x
  | complex _ _ => .error (.stated .type "can't convert complex to float")

def toComplex : Num → Except Fault (Float × Float)
  | int n => do return (← floatOfInt n, 0)
  | float x => .ok (x, 0)
  | complex re im => .ok (re, im)

def lift2 (ints : Int → Int → Except Fault Num) (floats : Float → Float → Except Fault Num)
    (pairs : Float × Float → Float × Float → Except Fault Num) (a b : Num) : Except Fault Num :=
  match a, b with
  | int m, int n => ints m n
  | complex .., _ | _, complex .. => do pairs (← a.toComplex) (← b.toComplex)
  | a, b => do floats (← a.toFloat) (← b.toFloat)

def ofPair (p : Float × Float) : Num := complex p.1 p.2

variable (a b : Num)

def add : Except Fault Num :=
  lift2 (fun m n ↦ .ok (int (m + n))) (fun x y ↦ .ok (float (x + y)))
    (fun p q ↦ .ok (complex (p.1 + q.1) (p.2 + q.2))) a b

def sub : Except Fault Num :=
  lift2 (fun m n ↦ .ok (int (m - n))) (fun x y ↦ .ok (float (x - y)))
    (fun p q ↦ .ok (complex (p.1 - q.1) (p.2 - q.2))) a b

def mulPair (p q : Float × Float) : Float × Float := (p.1 * q.1 - p.2 * q.2, p.1 * q.2 + p.2 * q.1)

def mul : Except Fault Num :=
  lift2 (fun m n ↦ .ok (int (m * n))) (fun x y ↦ .ok (float (x * y)))
    (fun p q ↦ .ok (ofPair (mulPair p q))) a b

def divPair? (p q : Float × Float) : Option (Float × Float) :=
  if q.1.abs ≥ q.2.abs then
    if q.1 == 0 then none
    else
      let ratio := q.2 / q.1
      let denom := q.1 + q.2 * ratio
      some ((p.1 + p.2 * ratio) / denom, (p.2 - p.1 * ratio) / denom)
  else
    let ratio := q.1 / q.2
    let denom := q.1 * ratio + q.2
    some ((p.1 * ratio + p.2) / denom, (p.2 * ratio - p.1) / denom)

def divInts (m n : Int) : Except Fault Num :=
  if n == 0 then .error (.divisionByZero "division by zero")
  else
    let x := ofRatio ((m < 0) != (n < 0) && m != 0) m.natAbs n.natAbs
    if isFinite x then .ok (float x)
    else .error (.stated .overflow "integer division result too large for a float")

def div : Except Fault Num :=
  lift2 divInts
    (fun x y ↦ if y == 0 then .error (.divisionByZero "float division by zero")
      else .ok (float (x / y)))
    (fun p q ↦
      match divPair? p q with
      | some r => .ok (ofPair r)
      | none => .error (.divisionByZero "complex division by zero")) a b

def divide (intFault floatFault : String) (a b : Num) : Except Fault (Num × Num) :=
  match a, b with
  | int m, int n =>
    if n == 0 then .error (.divisionByZero intFault)
    else .ok (int (m.fdiv n), int (m.fmod n))
  | a, b => do
    let x ← a.toFloat
    let y ← b.toFloat
    if y == 0 then .error (.divisionByZero floatFault)
    else
      let r := divideFloats x y
      .ok (float r.1, float r.2)

def floorDiv : Except Fault Num :=
  (divide "integer division or modulo by zero" "float floor division by zero" a b).map (·.1)

def mod : Except Fault Num := (divide "integer modulo by zero" "float modulo" a b).map (·.2)

/-! ### Powers -/

/-- A complex number to a whole power, by repeated squaring. -/
def powPairNat (p : Float × Float) : Nat → Nat → Float × Float → Float × Float
  | 0, _, r => r
  | fuel + 1, n, r =>
    if n == 0 then r
    else powPairNat (mulPair p p) fuel (n / 2) (if n % 2 == 1 then mulPair r p else r)

def modulus (p : Float × Float) : Float := Float.sqrt (p.1 * p.1 + p.2 * p.2)

def powPairs (p q : Float × Float) : Except Fault Num :=
  let small : Option Int :=
    if q.2 == 0 && isWhole q.1 && q.1.abs ≤ 100 then truncate? q.1 else none
  match small with
  | some n =>
    let r := powPairNat p 8 n.natAbs (1, 0)
    if n > 0 then .ok (ofPair r)
    else
      match divPair? (1, 0) r with
      | some r => .ok (ofPair r)
      | none => .error (.divisionByZero "0.0 to a negative or complex power")
  | none =>
    if q.1 == 0 && q.2 == 0 then .ok (complex 1 0)
    else if p.1 == 0 && p.2 == 0 then
      if q.2 != 0 || q.1 < 0 then .error (.divisionByZero "0.0 to a negative or complex power")
      else .ok (complex 0 0)
    else
      let size := modulus p
      let angle := Float.atan2 p.2 p.1
      let len := Float.pow size q.1
      let phase := angle * q.1
      let (len, phase) :=
        if q.2 != 0 then (len / Float.exp (angle * q.2), phase + q.2 * Float.log size)
        else (len, phase)
      .ok (complex (len * Float.cos phase) (len * Float.sin phase))

def powFloats (x y : Float) : Except Fault Num :=
  if x == 0 && y < 0 then .error (.divisionByZero "0.0 cannot be raised to a negative power")
  else if x < 0 && isFinite x && isFinite y && !isWhole y then
    powPairs (x, 0) (y, 0)
  else
    let r := Float.pow x y
    if !isFinite r && isFinite x && isFinite y then
      .error (.stated .overflow "(34, 'Numerical result out of range')")
    else .ok (float r)

def pow : Except Fault Num :=
  lift2
    (fun m n ↦
      if n < 0 then do powFloats (← floatOfInt m) (← floatOfInt n)
      else .ok (int (power m n.toNat)))
    powFloats powPairs a b

/-! ### Signs and rounding -/

def neg : Num → Num
  | int n => int (-n)
  | float x => float (-x)
  | complex re im => complex (-re) (-im)

def abs : Num → Num
  | int n => int n.natAbs
  | float x => float x.abs
  | complex re im => float (modulus (re, im))

def truncate (x : Float) : Except Fault Int :=
  match truncate? x with
  | some n => .ok n
  | none =>
    if Number.isNotANumber x then .error .notANumberToInteger else .error .infiniteToInteger

def nearest (x : Float) : Except Fault Int :=
  match nearest? x with
  | some n => .ok n
  | none =>
    if Number.isNotANumber x then .error .notANumberToInteger else .error .infiniteToInteger

def roundInt (n : Int) (places : Int) : Int :=
  if places ≥ 0 then n
  -- half of the unit is then more than the number
  else if Nat.log2 n.natAbs < places.natAbs then 0
  else
    let unit := tenTo places.natAbs
    roundDivInt n unit * unit

def roundFloat (x : Float) (places : Int) : Except Fault Float :=
  match fraction? x with
  | none => .ok x
  | some (num, den) =>
    if places > 323 then .ok x
    else if places < -308 then .ok (0 * x)
    else
      let scaled : Nat × Nat :=
        if places < 0 then (num.natAbs, den * tenTo places.natAbs)
        else (num.natAbs * tenTo places.natAbs, den)
      let digits := roundDiv scaled.1 scaled.2
      let r := ofDecimal (isNegative x) digits (-places)
      if isFinite r then .ok r
      else .error (.stated .overflow "rounded value too large to represent")

end TriggerScript.Num
