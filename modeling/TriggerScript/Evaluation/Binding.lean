import TriggerScript.Scope.Table
import TriggerScript.Value.Compare

/-!
# Binding the arguments of a call

How the parameters of a function get their values: by position, else by name, else by default, where
defaults belong to the last parameters. Values by name that nobody takes are collected by a `**`
parameter, or dropped. Values by position beyond the parameters are collected by a `*` parameter, or
refused.
-/

namespace TriggerScript

def Syntax.Parameter.id : Syntax.Parameter → String
  | .param name _ => name

namespace Function

def regular (f : Function) : List String :=
  match f.params with
  | .params _ regular _ _ _ _ _ => regular.map (·.id)

variable (f : Function)

def keywordOnly : List String :=
  match f.params with
  | .params _ _ _ kwOnly _ _ _ => kwOnly.map (·.id)

def surplus : Option String :=
  match f.params with
  | .params _ _ varArg _ _ _ _ => varArg.map (·.id)

/-- The parameter that collects values by name that nobody took. -/
def untaken : Option String :=
  match f.params with
  | .params _ _ _ _ _ kwArg _ => kwArg.map (·.id)

def required : Int := (f.regular.length : Int) - f.defaults.length

def default? (i : Nat) : Option Value :=
  let j := (i : Int) - f.required
  if 0 ≤ j then f.defaults[j.toNat]? else none

end Function

abbrev Named := List (Value × Value)

namespace Named

def get? : Named → String → Option Value
  | [], _ => none
  | (.text k, v) :: rest, name => if k = name then some v else get? rest name
  | _ :: rest, name => get? rest name

def erase : Named → String → Named
  | [], _ => []
  | (.text k, v) :: rest, name =>
    if k = name then erase rest name else (.text k, v) :: erase rest name
  | e :: rest, name => e :: erase rest name

end Named

/-- What a call binds: names with their values in order, and what was given by name and not
taken. -/
structure Bindings where
  table : Table := {}
  named : Named

namespace Function

def bindRegular (f : Function) : Nat → List String → List Value → Bindings → Except Fault Bindings
  | _, [], _, b => .ok b
  | i, p :: ps, v :: vs, b =>
    if (b.named.get? p).isSome then
      .error (.stated .type (f.name ++ "() got multiple values for argument '" ++ p ++ "'"))
    else bindRegular f (i + 1) ps vs { b with table := b.table.put (some p) v }
  | i, p :: ps, [], b =>
    match b.named.get? p with
    | some v => bindRegular f (i + 1) ps [] ⟨b.table.put (some p) v, b.named.erase p⟩
    | none =>
      match f.default? i with
      | some v => bindRegular f (i + 1) ps [] { b with table := b.table.put (some p) v }
      | none =>
        .error (.stated .type (f.name ++ "() missing " ++ Number.intText (f.required - i)
          ++ " required positional arguments"))

def bindKeywordOnly (f : Function) : Nat → List String → Bindings → Except Fault Bindings
  | _, [], b => .ok b
  | i, p :: ps, b =>
    match b.named.get? p with
    | some v => bindKeywordOnly f (i + 1) ps ⟨b.table.put (some p) v, b.named.erase p⟩
    | none =>
      match f.keywordDefaults[i]? with
      | some (some v) => bindKeywordOnly f (i + 1) ps { b with table := b.table.put (some p) v }
      | _ =>
        .error (.stated .type (f.name ++ "() missing required keyword-only arguments"))

def bindGiven (f : Function) (args : List Value) (named : Named) : Except Fault Bindings := do
  let b ← f.bindRegular 0 f.regular args { named }
  f.bindKeywordOnly 0 f.keywordOnly b

def bindBeside (f : Function) (args : List Value) (names : List String) :
    Except Fault Bindings := do
  let free := fun p ↦ !names.contains p
  let byPosition := f.regular.take args.length
  let b ← f.bindRegular 0 byPosition args { named := names.map fun n ↦ (.text n, .none) }
  let others := f.regular.drop args.length
  let b ← f.bindRegular byPosition.length (others.takeWhile free) [] { b with named := [] }
  let b ← f.bindKeywordOnly 0 (if others.all free then f.keywordOnly.takeWhile free else []) b
  if (others ++ f.keywordOnly).all free then .ok b else .error (.indexType "list" "str")

def bindSurplus (f : Function) (args : List Value) (t : Table) : Except Fault Table :=
  match f.surplus with
  | some p => .ok (t.put (some p) (.tuple (args.drop f.regular.length)))
  | none =>
    if f.regular.length < args.length then
      .error (.stated .type (f.name ++ "() called with too many positional arguments"))
    else .ok t

end Function

end TriggerScript
