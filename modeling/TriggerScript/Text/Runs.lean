/-!
# Runs of code points

A character class of a standard consists of runs of consecutive code points. A table gives the
lengths of runs, first of code points outside the class, then of code points in it, and so on in
turn. This module holds the membership test that all such tables share.
-/

namespace TriggerScript.Text

def inRunsAt : List Nat → Nat → Bool
  | outside :: inside :: rest, n =>
    outside ≤ n && (n < outside + inside || inRunsAt rest (n - (outside + inside)))
  | _, _ => false

def inRuns (table : List Nat) (c : Char) : Bool := inRunsAt table c.toNat

end TriggerScript.Text
