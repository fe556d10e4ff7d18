import TriggerScript.Fault

/-!
# Counts and sizes

The number of elements of a sequence, a place in one and a count of copies are integers that fit a
signed machine word; which fault reports one that does not depends on what it was for. A sequence
that is too large to be held is refused before any of its elements is made.
-/

namespace TriggerScript

def capacity : Nat := 10000000000

def checkCapacity (size : Nat) : Except Fault Unit :=
  if size ≤ capacity then .ok () else .error .outOfMemory

def wordOf (fault : Fault) (n : Int) : Except Fault Int :=
  if Number.fitsWord n then .ok n else .error fault

def copiesOf (size : Nat) (times : Int) (fault : Fault) : Except Fault Nat := do
  let n ← wordOf .countTooWide times
  let total := size * n.toNat
  if !Number.fitsWord total then throw fault
  checkCapacity total
  return if size == 0 then 0 else n.toNat

end TriggerScript
