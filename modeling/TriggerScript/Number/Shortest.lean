import TriggerScript.Number.Binary64

/-!
# The fewest digits that read back

The reals that round to a given positive `Float` form an interval around it, closed exactly when its
significand is even. For one digit, two digits, and so on up to seventeen, the two neighbours of the
value on that decimal grid are tested against the interval. The first grid with a hit gives the
digits; of two hits the nearer one is taken, and a tie goes to the even one.
-/

namespace TriggerScript.Number

structure Decimal where
  digits : Nat
  exponent : Int
  deriving Repr, DecidableEq

def magnitudeFrom (num den : Nat) : Nat → Int → Int
  | 0, p => p
  | n + 1, p =>
    let below := if p < 0 then num * tenTo p.natAbs < den else num < den * tenTo p.natAbs
    if below then p else magnitudeFrom num den n (p + 1)

def magnitude (num den : Nat) : Int :=
  let bits : Int := (num.log2 : Int) - den.log2
  -- the fraction exceeds `2 ^ (bits - 1)`, so the search starts below its power of ten
  magnitudeFrom num den 400 (Int.fdiv (bits * 30103) 100000 - 2)

def inUnits (num den : Nat) (unit : Int) : Nat × Nat :=
  if unit < 0 then (num * tenTo unit.natAbs, den) else (num, den * tenTo unit.natAbs)

def roundingInterval (mantissa : Nat) (exponent : Int) : Nat × Nat × Bool :=
  let lo := if mantissa == twoTo 52 && exponent > -1074 then 4 * mantissa - 1 else 4 * mantissa - 2
  (lo, 4 * mantissa + 2, mantissa % 2 == 0)

def trimZeros : Nat → Decimal → Decimal
  | 0, d => d
  | n + 1, d =>
    if d.digits != 0 && d.digits % 10 == 0 then trimZeros n ⟨d.digits / 10, d.exponent + 1⟩ else d

def shortestFrom (mantissa : Nat) (exponent top : Int) : Nat → Nat → Decimal
  | 0, k =>
    -- the last grid always has a hit; its lower neighbour stands for it
    let v :=
      if exponent < 0 then (mantissa, twoTo exponent.natAbs)
      else (mantissa * twoTo exponent.natAbs, 1)
    let s := inUnits v.1 v.2 (top - k)
    ⟨s.1 / s.2, top - k⟩
  | n + 1, k =>
    let (lo, hi, closed) := roundingInterval mantissa exponent
    let unit := top - k
    let quarter (m : Nat) : Nat × Nat :=
      let v :=
        if exponent < 0 then (m, 4 * twoTo exponent.natAbs) else (m * twoTo exponent.natAbs, 4)
      inUnits v.1 v.2 unit
    let v := quarter (4 * mantissa)
    let l := quarter lo
    let h := quarter hi
    let inside (d : Nat) : Bool :=
      let above := if closed then l.1 ≤ d * l.2 else l.1 < d * l.2
      let below := if closed then d * h.2 ≤ h.1 else d * h.2 < h.1
      above && below
    let a := v.1 / v.2
    let b := a + 1
    match inside a && a != 0, inside b with
    | true, true =>
      let low := v.1 - a * v.2
      let high := b * v.2 - v.1
      if low < high then ⟨a, unit⟩
      else if high < low then ⟨b, unit⟩
      else if a % 2 == 0 then ⟨a, unit⟩ else ⟨b, unit⟩
    | true, false => ⟨a, unit⟩
    | false, true => ⟨b, unit⟩
    | false, false => shortestFrom mantissa exponent top n (k + 1)

def shortest (mantissa : Nat) (exponent : Int) : Decimal :=
  if mantissa == 0 then ⟨0, 0⟩
  else
    let v :=
      if exponent < 0 then (mantissa, twoTo exponent.natAbs)
      else (mantissa * twoTo exponent.natAbs, 1)
    trimZeros 20 (shortestFrom mantissa exponent (magnitude v.1 v.2) 17 1)

def fixedDigits (num den : Nat) (places : Int) : Nat :=
  let s := inUnits num den (-places)
  roundDiv s.1 s.2

def significant (num den count : Nat) : Nat × Int :=
  if num == 0 then (0, 0)
  else
    let top := magnitude num den
    let s := inUnits num den (top - count)
    let d := roundDiv s.1 s.2
    if d == tenTo count then (tenTo (count - 1), top) else (d, top - 1)

end TriggerScript.Number
