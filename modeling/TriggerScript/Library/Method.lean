import TriggerScript.Library.Function
import TriggerScript.Text.Case
import TriggerScript.Value.Template

/-!
# Operations of values

What can be called on a value under a name of its own, such as `upper` on a text.
-/

namespace TriggerScript

open Op

def methodsOf : String → List Method
  | "str" =>
    [.upper, .lower, .capitalize, .find, .index, .format, .join, .split, .strip, .startsWith,
      .zfill, .isAlpha]
  | "list" => [.append, .pop, .index]
  | "tuple" => [.index]
  | "dict" => [.get, .keys, .values, .items, .pop]
  | "set" => [.add, .remove]
  | "int" | "bool" => [.bitLength]
  | "float" => [.isInteger]
  | "EvalFunc" => [.getName, .getDocString, .getDecorators, .getPositionalArgs]
  | _ => []

namespace Method

def searchBounds (length : Nat) (bounds : List Value) : Op (Nat × Nat) := do
  let bound (v : Value) (fallback : Int) : Op Int := do
    return (← look fun _ ↦ sliceBound v).getD fallback
  let start ← bound (bounds[0]?.getD .none) 0
  let stop ← bound (bounds[1]?.getD .none) length
  let start := if start < 0 then max 0 (start + length) else start
  let stop := if stop < 0 then max 0 (stop + length) else min stop length
  pure (start.toNat, stop.toNat)

def search (name : String) (t : List Char) (a : Arguments) : Op (Option Nat) := do
  let vs ← a.positional name
  if vs.isEmpty then throw (.stated .type (name ++ "() takes at least 1 argument (0 given)"))
  if vs.length > 3 then
    throw (.stated .type (name ++ "() takes at most 3 arguments (" ++ Number.natText vs.length
      ++ " given)"))
  match vs with
  | .text part :: bounds =>
    let (start, stop) ← searchBounds t.length bounds
    if stop < start then return none
    return (Text.indexOf? part.toList ((t.take stop).drop start)).map (· + start)
  | v :: _ => throw (.stated .type ("must be str, not " ++ v.typeName (← store)))
  | [] => return none

def joined (sep : List Char) : Nat → List Value → Op (List (List Char))
  | _, [] => pure []
  | i, .text t :: vs => do return t.toList :: (← joined sep (i + 1) vs)
  | i, v :: _ => do
    throw (.stated .type ("sequence item " ++ Number.natText i ++ ": expected str instance, "
      ++ v.typeName (← store) ++ " found"))

def splitAt (sep : List Char) : Nat → Option Nat → List Char → List (List Char)
  | 0, _, cs => [cs]
  | _ + 1, some 0, cs => [cs]
  | fuel + 1, limit, cs =>
    match Text.indexOf? sep cs with
    | none => [cs]
    | some i =>
      cs.take i :: splitAt sep fuel (limit.map (· - 1)) (cs.drop (i + sep.length))

def splitBlank : Nat → Option Nat → List Char → List (List Char)
  | 0, _, _ => []
  | fuel + 1, limit, cs =>
    match Text.dropBlanks cs with
    | [] => []
    | cs =>
      match limit with
      | some 0 => [(Text.dropBlanks cs.reverse).reverse]
      | limit =>
        let word := cs.takeWhile (!Text.isBlank ·)
        word :: splitBlank fuel (limit.map (· - 1)) (cs.drop word.length)

def splitText (t : List Char) (a : Arguments) : Op Value := do
  match ← a.bind "split" ["sep", "maxsplit"] 0 with
  | [sep, most] =>
    let most ← sizeArgument (most.getD (.int (-1)))
    let limit : Option Nat := if most < 0 then none else some most.toNat
    let parts ← match sep.getD .none with
      | .none => pure (splitBlank (t.length + 1) limit t)
      | .text "" => throw (.stated .value "empty separator")
      | .text sep => pure (splitAt sep.toList (t.length + 1) limit t)
      | v => throw (.stated .type ("must be str or None, not " ++ v.typeName (← store)))
    newList (parts.map fun p ↦ .text (String.ofList p))
  | _ => return .none

def stripped (t : List Char) (a : Arguments) : Op Value := do
  let drop (cs : List Char) (t : List Char) : List Char := t.dropWhile cs.contains
  match ← a.between "strip" 0 1 with
  | [] | [.none] => return .text (String.ofList (Text.strip t))
  | .text cs :: _ =>
    return .text (String.ofList (drop cs.toList (drop cs.toList t).reverse).reverse)
  | _ => throw (.stated .type "strip arg must be None or str")

def starts (t : List Char) (a : Arguments) : Op Value := do
  match ← a.between "startswith" 1 3 with
  | v :: bounds =>
    let (start, stop) ← searchBounds t.length bounds
    let within := (t.take stop).drop start
    let test (p : String) : Bool := start ≤ stop && p.toList.isPrefixOf within
    match v with
    | .text p => return .bool (test p)
    | .tuple ps =>
      let found ← ps.mapM fun p ↦ do
        match p with
        | .text p => pure (test p)
        | p =>
          throw (.stated .type ("tuple for startswith must only contain str, not "
            ++ p.typeName (← store)))
      return .bool (found.any id)
    | v =>
      throw (.stated .type ("startswith first arg must be str or a tuple of str, not "
        ++ v.typeName (← store)))
  | [] => return .none

def zeroFilled (t : List Char) (width : Int) : List Char :=
  let zeros := List.replicate (width.toNat - t.length) '0'
  match t with
  | c :: rest => if c == '+' || c == '-' then c :: (zeros ++ rest) else zeros ++ t
  | [] => zeros

def runText (call : Caller) (read : Reader) (t : String) (m : Method) (a : Arguments) :
    Op Value := do
  let cs := t.toList
  match m with
  | .upper => do
    a.nothing "str.upper"
    return .text (String.ofList (Text.upper cs))
  | .lower => do
    a.nothing "str.lower"
    return .text (String.ofList (Text.lower cs))
  | .capitalize => do
    a.nothing "str.capitalize"
    return .text (String.ofList (Text.capitalize cs))
  | .isAlpha => do
    a.nothing "str.isalpha"
    return .bool (!cs.isEmpty && cs.all Text.isLetter)
  | .find => do
    match ← search "find" cs a with
    | some i => return .int i
    | none => return .int (-1)
  | .index => do
    match ← search "index" cs a with
    | some i => return .int i
    | none => throw (.stated .value "substring not found")
  | .format => do
    return .text (← templateFormat read t a.args (a.named.map fun (k, v) ↦ (.text k, v)))
  | .join => do
    let v ← a.one "str.join"
    let s ← store
    let iterable := match v with
      | .iterator _ => true
      | v => (v.cursor? s).isSome
    if !iterable then throw (.stated .type "can only join an iterable")
    let parts ← joined cs 0 (← elements call v)
    return .text (String.ofList ((parts.intersperse cs).flatten))
  | .split => splitText cs a
  | .strip => stripped cs a
  | .startsWith => starts cs a
  | .zfill => do
    let width ← sizeArgument (← a.one "str.zfill")
    look fun _ ↦ checkCapacity width.toNat
    return .text (String.ofList (zeroFilled cs width))
  | m => throw (.noAttribute "str" m.name)

def placeIn (xs : List Value) (v : Value) (start stop : Nat) : Op (Option Nat) :=
  look fun s ↦ Value.placeAmong? s v ((xs.take stop).drop start) start

def runList (r : Ref) (m : Method) (a : Arguments) : Op Value := do
  let s ← store
  let xs := s.listAt r
  match m with
  | .append => do
    let v ← a.one "list.append"
    put r (.list (xs ++ [v]))
    return .none
  | .pop => do
    let vs ← a.between "pop" 0 1
    let i ← sizeArgument (vs.headD (.int (-1)))
    if xs.isEmpty then throw (.stated .index "pop from empty list")
    let p ← look fun _ ↦ placeOf i xs.length (.stated .index "pop index out of range")
    put r (.list (xs.eraseIdx p))
    return xs[p]?.getD .none
  | .index => do
    match ← a.between "index" 1 3 with
    | v :: bounds =>
      let (start, stop) ← searchBounds xs.length bounds
      match ← placeIn xs v start stop with
      | some i => return .int i
      | none => throw (.stated .value ((← look v.shown) ++ " is not in list"))
    | [] => return .none
  | m => throw (.noAttribute "list" m.name)

def runDict (r : Ref) (m : Method) (a : Arguments) : Op Value := do
  let s ← store
  match m with
  | .get => do
    match ← a.between "get" 1 2 with
    | key :: rest =>
      look fun _ ↦ key.checkKey
      return (Entries.get? s (s.dictAt r) key).getD (rest.headD .none)
    | [] => return .none
  | .pop => do
    match ← a.between "pop" 1 2 with
    | key :: rest =>
      look fun _ ↦ key.checkKey
      match Entries.get? s (s.dictAt r) key, rest with
      | some v, _ =>
        put r (.dict (Entries.erase s (s.dictAt r) key))
        return v
      | none, v :: _ => return v
      | none, [] => throw (missingKey s key)
    | [] => return .none
  | .keys => do
    a.nothing "dict.keys"
    return .view .keys r
  | .values => do
    a.nothing "dict.values"
    return .view .values r
  | .items => do
    a.nothing "dict.items"
    return .view .items r
  | m => throw (.noAttribute "dict" m.name)

def changeSet (r : Ref) (v : Value) (there : Bool) (items : List Value) : Op Value := do
  match (← store).get? r with
  | some (.names f scoping) => consult (.declare f scoping there) [v]
  | _ =>
    put r (.set items)
    return .none

def runSet (r : Ref) (m : Method) (a : Arguments) : Op Value := do
  let s ← store
  match m with
  | .add => do
    let v ← a.one "set.add"
    look fun _ ↦ v.checkKey
    changeSet r v true (setInsert s (s.setAt r) v)
  | .remove => do
    let v ← a.one "set.remove"
    look fun _ ↦ v.checkKey
    if v.among s (s.setAt r) then
      changeSet r v false ((s.setAt r).eraseP (Value.alike s v))
    else throw (missingKey s v)
  | m => throw (.noAttribute "set" m.name)

def positionalNames (f : Function) : List String :=
  match f.params with
  | .params _ regular _ _ _ _ _ => regular.map fun | .param name _ => name

def decoratorValue (d : String × Option (List Value)) : Op Value := do
  match d with
  | (name, none) => newOwn [.text name, .none]
  | (name, some args) => do newOwn [.text name, ← newOwn args]

def decoratorList (f : Function) : Op Value := do newOwn (← f.decorators.mapM decoratorValue)

def runFunction (f : Function) (m : Method) (a : Arguments) : Op Value := do
  let name := "EvalFunc." ++ m.name
  if !a.args.isEmpty then
    throw (.stated .type (name ++ "() takes 1 positional argument but "
      ++ Number.natText (a.args.length + 1) ++ " were given"))
  match a.named with
  | (k, _) :: _ =>
    throw (.stated .type (name ++ "() got an unexpected keyword argument '" ++ k ++ "'"))
  | [] => pure ()
  match m with
  | .getName => return .text f.name
  | .getDocString => return (f.doc.map Value.text).getD .none
  | .getDecorators => decoratorList f
  | .getPositionalArgs => newList ((positionalNames f).map .text)
  | m => throw (.noAttribute "EvalFunc" m.name)

def run (call : Caller) (read : Reader) (owner : Value) (m : Method) (a : Arguments) :
    Op Value := do
  let s ← store
  match owner with
  | .text t => runText call read t m a
  | .list r => runList r m a
  | .dict r => runDict r m a
  | .set r => runSet r m a
  | .tuple xs =>
    match ← a.between "index" 1 3 with
    | v :: bounds => do
      let (start, stop) ← searchBounds xs.length bounds
      match ← placeIn xs v start stop with
      | some i => return .int i
      | none => throw (.stated .value "tuple.index(x): x not in tuple")
    | [] => return .none
  | .int n => do
    a.nothing "int.bit_length"
    return .int (Number.bitLength n)
  | .bool b => do
    a.nothing "int.bit_length"
    return .int (if b then 1 else 0)
  | .float x _ => do
    a.nothing "float.is_integer"
    return .bool (Number.isWhole x)
  | .function r =>
    match s.functionAt? r with
    | some f => runFunction f m a
    | none => return .none
  | .type t =>
    match a.args with
    | v :: rest =>
      if isSubtype (v.typeName s) t then runUnbound v ⟨rest, a.named⟩
      else
        throw (.stated .type ("descriptor '" ++ m.name ++ "' for '" ++ t
          ++ "' objects doesn't apply to a '" ++ v.typeName s ++ "' object"))
    | [] =>
      throw (.stated .type ("unbound method " ++ t ++ "." ++ m.name ++ "() needs an argument"))
  | v => throw (.noAttribute (v.typeName s) m.name)
where
  /-- Calls an operation that was taken from a type on its first argument. -/
  runUnbound (v : Value) (a : Arguments) : Op Value := do
    match v with
    | .text t => runText call read t m a
    | .list r => runList r m a
    | .dict r => runDict r m a
    | .set r => runSet r m a
    | .int n => do
      a.nothing "int.bit_length"
      return .int (Number.bitLength n)
    | .float x _ => do
      a.nothing "float.is_integer"
      return .bool (Number.isWhole x)
    | v => throw (.noAttribute (v.typeName (← store)) m.name)

end Method

end TriggerScript
