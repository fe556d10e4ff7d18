import TriggerScript.Fault

/-!
# Reading time specifications

A time specification is read with two kinds of outcome beside its value: a fault ends the reading,
while a warning is noted and the reading goes on. Warnings noted before a fault are kept.
-/

namespace TriggerScript.Schedule

/-- A computation that may note warnings and may end in a fault. -/
abbrev Reading := ExceptT Fault (StateM (List String))

def warn (text : String) : Reading Unit := modify (· ++ [text])

def Reading.lift {α : Type} (r : Except Fault α) : Reading α :=
  match r with
  | .ok a => pure a
  | .error f => throw f

/-- A specification as given: a text, or a value of another type, which only reports its type. -/
inductive Spec where
  | text (s : String)
  | other (type : String)
  deriving Repr, DecidableEq

/-! ### Finding a form inside a text -/

def occurrences {α : Type} (scan : List Char → Option (α × List Char)) :
    Nat → List Char → List α
  | 0, _ => []
  | n + 1, cs =>
    match scan cs with
    | some (a, rest) => a :: occurrences scan n rest
    | none =>
      match cs with
      | [] => []
      | _ :: cs' => occurrences scan n cs'

def sole? {α : Type} (scan : List Char → Option (α × List Char)) (cs : List Char) : Option α :=
  match occurrences scan (cs.length + 1) cs with
  | [a] => some a
  | _ => none

end TriggerScript.Schedule
