import TriggerScript.Number.Power

/-!
# Binary floating point, exactly

A finite `Float` is an integer times a power of two. This module reads that pair off the bits and
goes back from a fraction to the nearest `Float`, ties to the even significand, in exact arithmetic.
Everything that prints, reads or rounds a `Float` goes through these two directions, so none of it
depends on an operation the logic cannot see.
-/

namespace TriggerScript.Number

/-- What a `Float` stands for: `±mantissa * 2 ^ exponent`, an infinity, or not a number. -/
inductive Parts where
  | finite (negative : Bool) (mantissa : Nat) (exponent : Int)
  | infinite (negative : Bool)
  | notANumber
  deriving Repr, DecidableEq

def parts (x : Float) : Parts :=
  let bits : Nat := x.toBits.toNat
  let negative := bits / twoTo 63 == 1
  let field : Nat := bits / twoTo 52 % twoTo 11
  let low : Nat := bits % twoTo 52
  if field == 2047 then
    if low == 0 then .infinite negative else .notANumber
  else if field == 0 then .finite negative low (-1074)
  else .finite negative (low + twoTo 52) ((field : Int) - 1075)

def ofSignedBits (negative : Bool) (bits : Nat) : Float :=
  Float.ofBits (UInt64.ofNat (bits + if negative then twoTo 63 else 0))

def infinity (negative : Bool) : Float := ofSignedBits negative (2047 * twoTo 52)

def notANumber : Float := ofSignedBits false (2047 * twoTo 52 + twoTo 51)

def roundDiv (num den : Nat) : Nat :=
  let q := num / den
  let r := num % den
  if 2 * r < den then q
  else if den < 2 * r then q + 1
  else if q % 2 == 0 then q else q + 1

def roundDivInt (num : Int) (den : Nat) : Int :=
  if num < 0 then -(roundDiv num.natAbs den : Int) else (roundDiv num.natAbs den : Int)

def scaled (num den : Nat) (exponent : Int) : Nat × Nat :=
  if exponent < 0 then (num * twoTo exponent.natAbs, den) else (num, den * twoTo exponent.natAbs)

def assemble (significand : Nat) (exponent : Int) : Nat :=
  if significand < twoTo 52 then significand
  else
    let field := exponent + 1075
    if field ≥ 2047 then 2047 * twoTo 52
    else field.toNat * twoTo 52 + (significand - twoTo 52)

def ofRatio (negative : Bool) (num den : Nat) : Float :=
  if num == 0 then ofSignedBits negative 0
  else
    let guess : Int := max ((num.log2 : Int) - den.log2 - 53) (-1074)
    let floorAt (q : Int) : Nat := let s := scaled num den q; s.1 / s.2
    let e : Int := if floorAt guess < twoTo 53 then guess else guess + 1
    let s := scaled num den e
    let k := roundDiv s.1 s.2
    if k < twoTo 53 then ofSignedBits negative (assemble k e)
    else ofSignedBits negative (assemble (twoTo 52) (e + 1))

def ofInt (n : Int) : Float := ofRatio (n < 0) n.natAbs 1

def ofDecimal (negative : Bool) (digits : Nat) (exponent : Int) : Float :=
  if digits == 0 then ofSignedBits negative 0
  else
    let size : Int := (Nat.toDigits 10 digits).length + exponent
    if size > 400 then infinity negative
    else if size < -400 then ofSignedBits negative 0
    else if exponent < 0 then ofRatio negative digits (tenTo exponent.natAbs)
    else ofRatio negative (digits * tenTo exponent.natAbs) 1

def fraction? (x : Float) : Option (Int × Nat) :=
  match parts x with
  | .finite negative m e =>
    let s := if e < 0 then (m, twoTo e.natAbs) else (m * twoTo e.natAbs, 1)
    some (if negative then (-(s.1 : Int), s.2) else ((s.1 : Int), s.2))
  | _ => none

def isNegative (x : Float) : Bool := x.toBits.toNat / twoTo 63 == 1

def isFinite (x : Float) : Bool := (fraction? x).isSome

def isNotANumber (x : Float) : Bool :=
  match parts x with
  | .notANumber => true
  | _ => false

def floor? (x : Float) : Option Int := (fraction? x).map fun f ↦ f.1.fdiv f.2

def ceil? (x : Float) : Option Int := (fraction? x).map fun f ↦ -((-f.1).fdiv f.2)

def truncate? (x : Float) : Option Int := (fraction? x).map fun f ↦ f.1.tdiv f.2

def nearest? (x : Float) : Option Int := (fraction? x).map fun f ↦ roundDivInt f.1 f.2

def isWhole (x : Float) : Bool :=
  match fraction? x with
  | some f => f.1 % f.2 == 0
  | none => false

end TriggerScript.Number
