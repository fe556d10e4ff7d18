import TriggerScript.Value.Format
import TriggerScript.Value.Item

/-!
# Filling in fields

In a text, braces mark a field: a number, a name or nothing says which argument stands there, points
and brackets reach into it, `!` gives a conversion and `:` a format specification, which may have
fields of its own. Doubled braces stand for themselves.
-/

namespace TriggerScript

/-- How an attribute of a value is read. -/
abbrev Reader := Value → String → Op Value

/-- How fields without a number are counted: not yet decided, counted so far, or all given. -/
inductive Numbering where
  | undecided
  | automatic (next : Nat)
  | manual

structure Field where
  name : List Char
  conversion : Option Char
  spec : List Char
  nested : Bool

namespace Template

def fault (t : String) : Fault := .stated .value t

/-- The text before the next brace, the brace, and the rest. -/
def literal : List Char → List Char → List Char × Option (Char × List Char)
  | acc, [] => (acc.reverse, none)
  | acc, c :: cs =>
    if c == '\x7b' || c == '\x7d' then (acc.reverse, some (c, cs)) else literal (c :: acc) cs

def fieldName : Bool → List Char → List Char → Except Fault (List Char × Option Char × List Char)
  | _, acc, [] => .ok (acc.reverse, none, [])
  | true, acc, c :: cs => fieldName (c != ']') (c :: acc) cs
  | false, acc, c :: cs =>
    if c == '\x7b' then .error (fault "unexpected '\x7b' in field name")
    else if c == '\x7d' || c == ':' || c == '!' then .ok (acc.reverse, some c, cs)
    else fieldName (c == '[') (c :: acc) cs

def fieldSpec : Nat → Bool → List Char → List Char → Except Fault (List Char × Bool × List Char)
  | _, _, _, [] => .error (fault "unmatched '\x7b' in format spec")
  | depth, nested, acc, c :: cs =>
    if c == '\x7b' then fieldSpec (depth + 1) true (c :: acc) cs
    else if c == '\x7d' then
      match depth with
      | 0 => .ok (acc.reverse, nested, cs)
      | d + 1 => fieldSpec d nested (c :: acc) cs
    else fieldSpec depth nested (c :: acc) cs

def field (cs : List Char) : Except Fault (Field × List Char) := do
  let (name, ending, cs) ← fieldName false [] cs
  match ending with
  | some '\x7d' => pure (⟨name, none, [], false⟩, cs)
  | some ':' =>
    let (spec, nested, cs) ← fieldSpec 0 false [] cs
    pure (⟨name, none, spec, nested⟩, cs)
  | some '!' =>
    match cs with
    | [] => throw (fault "end of string while looking for conversion specifier")
    | c :: cs =>
      match cs with
      | '\x7d' :: cs => pure (⟨name, some c, [], false⟩, cs)
      | ':' :: cs =>
        let (spec, nested, cs) ← fieldSpec 0 false [] cs
        pure (⟨name, some c, spec, nested⟩, cs)
      | [] => throw (fault "unmatched '\x7b' in format spec")
      | _ => throw (fault "expected ':' after conversion specifier")
  | _ => throw (fault "expected '\x7d' before end of string")

def decimal? (cs : List Char) : Except Fault (Option Nat) := do
  if cs.isEmpty || !cs.all Text.isDigit then return none
  else return some (← FormatSpec.bounded cs)

def reach (read : Reader) : Nat → Value → List Char → Op Value
  | _, v, [] => pure v
  | 0, _, _ => throw .outOfFuel
  | n + 1, v, '.' :: cs => do
    let name := cs.takeWhile fun c ↦ c != '.' && c != '['
    if name.isEmpty then throw (fault "Empty attribute in format string")
    reach read n (← read v (String.ofList name)) (cs.drop name.length)
  | n + 1, v, '[' :: cs => do
    let key := cs.takeWhile (· != ']')
    match cs.drop key.length with
    | ']' :: rest =>
      if key.isEmpty then throw (fault "Empty attribute in format string")
      let index : Value := match ← Op.look fun _ ↦ decimal? key with
        | some i => .int i
        | none => .text (String.ofList key)
      let v ← Op.getItem v index
      match rest with
      | [] | '.' :: _ | '[' :: _ => reach read n v rest
      | _ => throw (fault "Only '.' or '[' may follow ']' in format field specifier")
    | _ => throw (fault "Missing ']' in format string")
  | _ + 1, _, _ => throw (fault "Only '.' or '[' may follow ']' in format field specifier")

def argument (read : Reader) (args : List Value) (kwargs : Entries) (numbering : Numbering)
    (name : List Char) : Op (Value × Numbering) := do
  let first := name.takeWhile fun c ↦ c != '.' && c != '['
  let rest := name.drop first.length
  let positional (i : Nat) : Op Value :=
    match args[i]? with
    | some v => pure v
    | none =>
      throw (.stated .index ("Replacement index " ++ Number.natText i
        ++ " out of range for positional args tuple"))
  let (v, numbering) ← match ← Op.look fun _ ↦ decimal? first, first with
    | some i, _ =>
      match numbering with
      | .automatic _ =>
        throw (fault ("cannot switch from automatic field numbering to manual field specification"))
      | _ => do pure (← positional i, Numbering.manual)
    | none, [] =>
      match numbering with
      | .manual =>
        throw (fault ("cannot switch from manual field specification to automatic field numbering"))
      | .undecided => do pure (← positional 0, Numbering.automatic 1)
      | .automatic i => do pure (← positional i, Numbering.automatic (i + 1))
    | none, key => do
      let s ← Op.store
      match Entries.get? s kwargs (.text (String.ofList key)) with
      | some v => pure (v, numbering)
      | none => throw (missingKey s (.text (String.ofList key)))
  pure (← reach read (rest.length + 1) v rest, numbering)

def converted (c : Option Char) (v : Value) : Op Value := do
  match c with
  | none => pure v
  | some 's' => do return .text (← Op.look v.plain)
  | some 'r' => do return .text (← Op.look v.shown)
  | some 'a' => do return .text (Text.ascii (← Op.look v.shown))
  | some c => throw (fault ("Unknown conversion specifier '" ++ String.ofList [c] ++ "'"))

def run (read : Reader) (args : List Value) (kwargs : Entries) :
    Nat → Nat → List Char → Numbering → List Char → Op (List Char × Numbering)
  | 0, _, _, _, _ => throw .outOfFuel
  | n + 1, depth, cs, numbering, acc => do
    match literal [] cs with
    | (t, none) => pure (acc.reverse ++ t, numbering)
    | (t, some (b, rest)) =>
      let acc := t.reverse ++ acc
      match rest with
      | [] =>
        if b == '\x7d' then throw (fault "Single '\x7d' encountered in format string")
        else throw (fault "Single '\x7b' encountered in format string")
      | c :: more =>
        if c == b then run read args kwargs n depth more numbering (b :: acc)
        else if b == '\x7d' then throw (fault "Single '\x7d' encountered in format string")
        else do
          let (f, rest) ← Op.look fun _ ↦ field rest
          let (v, numbering) ← argument read args kwargs numbering f.name
          let v ← converted f.conversion v
          let (spec, numbering) ←
            if f.nested then
              match depth with
              | 0 => throw (fault "Max string recursion exceeded")
              | d + 1 => run read args kwargs n d f.spec numbering []
            else pure (f.spec, numbering)
          let t ← Op.look fun s ↦ v.formatted s (String.ofList spec)
          run read args kwargs n depth rest numbering (t.toList.reverse ++ acc)

end Template

def templateFormat (read : Reader) (format : String) (args : List Value) (kwargs : Entries) :
    Op String := do
  let cs := format.toList
  let (out, _) ← Template.run read args kwargs (2 * cs.length + 2) 1 cs .undecided []
  pure (String.ofList out)

end TriggerScript
