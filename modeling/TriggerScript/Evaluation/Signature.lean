import TriggerScript.Library.Arguments

/-!
# Signatures of host functions

A host function names its parameters; the first so many are required. Arguments that do not fit are
refused in the order in which they are looked at: by name, too many by position, missing.
-/

namespace TriggerScript

structure Signature where
  name : String
  required : List String
  optional : List String := []
  /-- Further values by name are taken. -/
  open_ : Bool := false

namespace Signature

variable (s : Signature)

def params : List String := s.required ++ s.optional

def enumerated (names : List String) : String :=
  let quoted := names.map fun n ↦ "'" ++ n ++ "'"
  match quoted with
  | [] => ""
  | [a] => a
  | [a, b] => a ++ " and " ++ b
  | _ => String.intercalate ", " quoted.dropLast ++ ", and " ++ quoted.getLast?.getD ""

def tooMany (given : Nat) : Fault :=
  let least := s.required.length + 1
  let most := s.params.length + 1
  let wanted :=
    if least == most then Number.natText most else
      "from " ++ Number.natText least ++ " to " ++ Number.natText most
  .stated .type (s.name ++ "() takes " ++ wanted ++ " positional argument"
    ++ (if least == most && most == 1 then "" else "s") ++ " but " ++ Number.natText (given + 1)
    ++ " were given")

def argument? (a : Arguments) (name : String) : Option Value :=
  match s.params.idxOf? name with
  | none => none
  | some i =>
    match a.args[i]? with
    | some v => some v
    | none => a.named? name

def check (a : Arguments) : Except Fault Unit := do
  for (k, _) in a.named do
    match s.params.idxOf? k with
    | some i =>
      if i < a.args.length then
        throw (.stated .type (s.name ++ "() got multiple values for argument '" ++ k ++ "'"))
    | none =>
      if !s.open_ then
        throw (.stated .type (s.name ++ "() got an unexpected keyword argument '" ++ k ++ "'"))
  if s.params.length < a.args.length then throw (s.tooMany a.args.length)
  let missing := s.required.filter fun p ↦ (s.argument? a p).isNone
  if !missing.isEmpty then
    throw (.stated .type (s.name ++ "() missing " ++ Number.natText missing.length
      ++ " required positional argument" ++ (if missing.length == 1 then "" else "s") ++ ": "
      ++ enumerated missing))

def extra (a : Arguments) : Entries :=
  (a.named.filter fun e ↦ !s.params.contains e.1).map fun (k, v) ↦ (.text k, v)

end Signature

end TriggerScript
