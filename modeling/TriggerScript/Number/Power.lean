/-!
# Powers

Powers of natural numbers and integers to natural exponents. The powers of two and of ten are the
units in which binary and decimal numbers are counted.
-/

namespace TriggerScript.Number

def twoTo (exponent : Nat) : Nat := Nat.pow 2 exponent

def tenTo (exponent : Nat) : Nat := Nat.pow 10 exponent

def power (base : Int) (exponent : Nat) : Int :=
  let m : Int := Nat.pow base.natAbs exponent
  if base < 0 && exponent % 2 == 1 then -m else m

/-- The integer fits a signed machine word of sixty-four bits. -/
def fitsWord (n : Int) : Bool := -(twoTo 63 : Int) ≤ n && n < (twoTo 63 : Int)

end TriggerScript.Number
