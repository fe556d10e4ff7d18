/-!
# Bitwise operations on integers

A negative integer has infinitely many leading ones: the bits of `-n - 1` are those of `n`, turned
over.
-/

namespace TriggerScript.Number

def bitNot (n : Int) : Int := -n - 1

/-- The bits of the first number that are not set in the second. -/
def natMinus (a b : Nat) : Nat := a ^^^ (a &&& b)

def bitAnd (a b : Int) : Int :=
  match a, b with
  | .ofNat x, .ofNat y => ((x &&& y : Nat) : Int)
  | .ofNat x, .negSucc y => ((natMinus x y : Nat) : Int)
  | .negSucc x, .ofNat y => ((natMinus y x : Nat) : Int)
  | .negSucc x, .negSucc y => .negSucc (x ||| y)

def bitOr (a b : Int) : Int := bitNot (bitAnd (bitNot a) (bitNot b))

def bitXor (a b : Int) : Int :=
  match a, b with
  | .ofNat x, .ofNat y => ((x ^^^ y : Nat) : Int)
  | .ofNat x, .negSucc y => .negSucc (x ^^^ y)
  | .negSucc x, .ofNat y => .negSucc (x ^^^ y)
  | .negSucc x, .negSucc y => ((x ^^^ y : Nat) : Int)

def bitLength (n : Int) : Nat := if n = 0 then 0 else n.natAbs.log2 + 1

end TriggerScript.Number
