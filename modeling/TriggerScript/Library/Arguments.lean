import TriggerScript.Value.Item

/-!
# Arguments of a call

What a call hands over: values by position and values by name. The functions of the library refuse
a wrong number of arguments in a few fixed wordings.
-/

namespace TriggerScript

open Number

structure Arguments where
  args : List Value
  named : List (String × Value) := []

namespace Arguments

variable (a : Arguments)

def named? (name : String) : Option Value := (a.named.find? fun e ↦ e.1 == name).map (·.2)

def ofEntries (args : List Value) (entries : Entries) : Op Arguments := do
  let named ← entries.mapM fun (k, v) ↦
    match k with
    | .text t => (pure (t, v) : Op (String × Value))
    | _ => throw (.stated .type "keywords must be strings")
  pure ⟨args, named⟩

def countText (n : Nat) : String := natText n ++ if n == 1 then " argument" else " arguments"

def positional (name : String) : Op (List Value) :=
  if a.named.isEmpty then pure a.args
  else throw (.stated .type (name ++ "() takes no keyword arguments"))

def one (a : Arguments) (name : String) : Op Value := do
  match ← a.positional name with
  | [v] => pure v
  | vs =>
    throw (.stated .type (name ++ "() takes exactly one argument (" ++ natText vs.length
      ++ " given)"))

def nothing (name : String) : Op Unit := do
  match ← a.positional name with
  | [] => pure ()
  | vs =>
    throw
      (.stated .type (name ++ "() takes no arguments (" ++ natText vs.length ++ " given)"))

def checkCount (name : String) (least most : Nat) (vs : List Value) : Op (List Value) :=
  let refuse (word : String) (n : Nat) : Op (List Value) :=
    throw (.stated .type (name ++ " expected " ++ (if least == most then "" else word) ++
      countText n ++ ", got " ++ natText vs.length))
  if vs.length < least then refuse "at least " least
  else if most < vs.length then refuse "at most " most
  else pure vs

def between (name : String) (least most : Nat) : Op (List Value) := do
  checkCount name least most (← a.positional name)

def bind (name : String) (params : List String) (required : Nat) :
    Op (List (Option Value)) := do
  let given := a.args.length + a.named.length
  if params.length < given then
    throw (.stated .type (name ++ "() takes "
      ++ (if required == params.length then "exactly " else "at most ") ++ countText params.length
      ++ " (" ++ natText given ++ " given)"))
  fill params 0 a.args
where
  /-- The value of each parameter from the given place on. -/
  fill : List String → Nat → List Value → Op (List (Option Value))
    | [], _, _ =>
      match a.named.find? fun e ↦ !params.contains e.1 with
      | some (k, _) =>
        throw (.stated .type ("'" ++ k ++ "' is an invalid keyword argument for " ++ name ++ "()"))
      | none => pure []
    | p :: ps, i, v :: vs => do
      if (a.named? p).isSome then
        throw (.stated .type ("argument for " ++ name ++ "() given by name ('" ++ p
          ++ "') and position (" ++ natText (i + 1) ++ ")"))
      return some v :: (← fill ps (i + 1) vs)
    | p :: ps, i, [] => do
      match a.named? p with
      | some v => return some v :: (← fill ps (i + 1) [])
      | none =>
        if i < required then
          throw (.stated .type (name ++ "() missing required argument '" ++ p ++ "' (pos "
            ++ natText (i + 1) ++ ")"))
        else return none :: (← fill ps (i + 1) [])

end Arguments

def integerOf (v : Value) : Op Int := do
  match v.int? with
  | some n => pure n
  | none => throw (.integerExpected (v.typeName (← Op.store)))

def sizeArgument (v : Value) : Op Int := do
  let n ← integerOf v
  Op.look fun _ ↦ wordOf .sizeTooWide n

end TriggerScript
