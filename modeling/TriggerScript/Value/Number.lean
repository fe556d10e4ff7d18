import TriggerScript.Number.Numeral
import TriggerScript.Value.Basic

/-!
# Values as numbers

Truth values count as the integers zero and one. An integer and a `Float` are compared exactly, not
after rounding one to the other.
-/

namespace TriggerScript

/-- A number: an integer, a `Float`, or a pair of a real and an imaginary part. -/
inductive Num where
  | int (n : Int)
  | float (x : Float)
  | complex (re im : Float)

def Value.num? : Value → Option Num
  | .bool b => some (.int (if b then 1 else 0))
  | .int n => some (.int n)
  | .float x _ => some (.float x)
  | .complex re im _ => some (.complex re im)
  | _ => Option.none

def Value.int? : Value → Option Int
  | .bool b => some (if b then 1 else 0)
  | .int n => some n
  | _ => Option.none

namespace Num

def isNotANumber : Num → Bool
  | int _ => false
  | float x => Number.isNotANumber x
  | complex re im => Number.isNotANumber re || Number.isNotANumber im

def marked (mark : Nat) : Num → Value
  | int n => .int n
  | float x => .float x mark
  | complex re im => .complex re im mark

def compareIntFloat (n : Int) (x : Float) : Option Ordering :=
  match Number.parts x with
  | .notANumber => none
  | .infinite negative => some (if negative then .gt else .lt)
  | .finite .. =>
    match Number.fraction? x with
    | some (num, den) => some (compare (n * den) num)
    | none => none

def compareFloats (x y : Float) : Option Ordering :=
  if x < y then some .lt else if x == y then some .eq else if y < x then some .gt else none

def compare? : Num → Num → Option Ordering
  | int a, int b => some (compare a b)
  | int a, float y => compareIntFloat a y
  | float x, int b => (compareIntFloat b x).map Ordering.swap
  | float x, float y => compareFloats x y
  | _, _ => none

def equal : Num → Num → Bool
  | complex a b, complex c d => a == c && b == d
  | complex a b, int n => b == 0 && compareIntFloat n a == some .eq
  | int n, complex a b => b == 0 && compareIntFloat n a == some .eq
  | complex a b, float y => b == 0 && a == y
  | float x, complex a b => b == 0 && x == a
  | a, b => compare? a b == some .eq

def floatOfInt (n : Int) : Except Fault Float :=
  let x := Number.ofInt n
  if Number.isFinite x then .ok x else .error .integerTooLargeForFloat

def complexText (re im : Float) : String :=
  let i := Number.partText im ++ "j"
  if re == 0 && !Number.isNegative re then i
  else
    let sign := if Number.isNegative im && !Number.isNotANumber im then "" else "+"
    "(" ++ Number.partText re ++ sign ++ i ++ ")"

end Num

/-- A number as a value; NaN gets a mark of its own. -/
def Op.number (x : Num) : Op Value := do
  if x.isNotANumber then return x.marked (← newMark) else return x.marked 0

def boundedIntText (n : Int) : Except Fault String :=
  -- below this bound on the number of bits the digits need not be counted
  if n.natAbs.log2 < 14000 then .ok (Number.intText n)
  else
    let t := Number.intText n
    if (if n < 0 then t.length - 1 else t.length) > Number.digitLimit then .error .digitLimit
    else .ok t

end TriggerScript
