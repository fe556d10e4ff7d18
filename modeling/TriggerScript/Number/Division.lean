import TriggerScript.Number.Binary64

/-!
# Division of `Float`s with remainder

The remainder has the sign of the divisor, and the quotient is the floor of the exact one as far as
a `Float` can tell.
-/

namespace TriggerScript.Number

def withSignOf (x sign : Float) : Float := if isNegative x == isNegative sign then x else -x

def remainder (x y : Float) : Float :=
  match parts x, parts y with
  | .notANumber, _ | _, .notANumber | .infinite _, _ => notANumber
  | .finite .., .infinite _ => x
  | .finite negative m e, .finite _ m' e' =>
    if m' == 0 then notANumber
    else
      let low := min e e'
      let a := m * twoTo (e - low).toNat
      let b := m' * twoTo (e' - low).toNat
      let r := a % b
      if low < 0 then ofRatio negative r (twoTo low.natAbs)
      else ofRatio negative (r * twoTo low.toNat) 1

def floorFloat (x : Float) : Float :=
  match floor? x with
  | some n => if n == 0 then withSignOf 0 x else ofInt n
  | none => x

def divideFloats (x y : Float) : Float × Float :=
  let m := remainder x y
  let q := (x - m) / y
  let (q, m) :=
    if m == 0 then (q, withSignOf 0 y)
    else if (y < 0) != (m < 0) then (q - 1, m + y)
    else (q, m)
  let q :=
    if q == 0 then withSignOf 0 (x / y)
    else
      let f := floorFloat q
      if q - f > 0.5 then f + 1 else f
  (q, m)

end TriggerScript.Number
