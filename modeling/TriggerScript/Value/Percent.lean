import TriggerScript.Value.Format
import TriggerScript.Value.Item

/-!
# Filling in marks

In a text, `%` with flags, a width, a precision and a letter marks a place for an argument. Marks
with a name in parentheses look the argument up in a mapping; all others take the next one.
-/

namespace TriggerScript

open Number

structure PercentMark where
  left : Bool := false
  plus : Bool := false
  blank : Bool := false
  alternate : Bool := false
  zero : Bool := false
  width : Nat := 0
  precision : Option Nat := none

/-- The arguments of a text with marks: those left to take, and how many marks found none. -/
structure PercentArgs where
  mapping : Option Value
  rest : List Value
  /-- All arguments are one value that is no tuple. -/
  single : Bool

namespace Percent

open FormatSpec (capitals floatBody)

def isMapping : Value → Bool
  | .dict _ | .list _ | .bytes _ | .byteArray _ | .range _ _ _ => true
  | _ => false

def argsOf (v : Value) : PercentArgs :=
  match v with
  | .tuple xs => ⟨none, xs, false⟩
  | v => ⟨if isMapping v then some v else none, [v], true⟩

def take (args : PercentArgs) : Op (Value × PercentArgs) :=
  match args.rest with
  | v :: rest => pure (v, { args with rest })
  | [] => throw (.stated .type "not enough arguments for format string")

def flags : PercentMark → List Char → PercentMark × List Char
  | m, [] => (m, [])
  | m, c :: cs =>
    match c with
    | '-' => flags { m with left := true } cs
    | '+' => flags { m with plus := true } cs
    | ' ' => flags { m with blank := true } cs
    | '#' => flags { m with alternate := true } cs
    | '0' => flags { m with zero := true } cs
    | c => (m, c :: cs)

/-- The name between parentheses that balance, and the rest. -/
def nameOf : Nat → List Char → List Char → Option (List Char × List Char)
  | _, _, [] => none
  | depth, acc, c :: cs =>
    if c == '(' then nameOf (depth + 1) (c :: acc) cs
    else if c == ')' then
      match depth with
      | 0 => some (acc.reverse, cs)
      | d + 1 => nameOf d (c :: acc) cs
    else nameOf depth (c :: acc) cs

def number (most : Nat) (what : String) (cs : List Char) : Except Fault (Option Nat × List Char) :=
  let ds := cs.takeWhile Char.isDigit
  let n := Text.digitsValue ds
  if ds.isEmpty then .ok (none, cs)
  else if n ≤ most then .ok (some n, cs.dropWhile Char.isDigit)
  else .error (.stated .value (what ++ " too big"))

/-- A width or precision that an argument gives. -/
def starArg (args : PercentArgs) : Op (Int × PercentArgs) := do
  let (v, args) ← take args
  match v.int? with
  | some n => pure (n, args)
  | none => throw (.stated .type "* wants int")

/-- Pads a field. The sign and the mark of a base stand before zeros. -/
def lay (m : PercentMark) (zeros : Bool) (front body : List Char) : List Char :=
  let missing := m.width - (front.length + body.length)
  if m.left then front ++ body ++ List.replicate missing ' '
  else if zeros then front ++ List.replicate missing '0' ++ body
  else List.replicate missing ' ' ++ front ++ body

def signOf (m : PercentMark) (negative : Bool) : List Char :=
  if negative then ['-'] else if m.plus then ['+'] else if m.blank then [' '] else []

def integerFor (s : Store) (letter : Char) (v : Value) : Except Fault Int :=
  match v.int? with
  | some n => .ok n
  | none =>
    let needsInteger := letter == 'o' || letter == 'x' || letter == 'X'
    match v with
    | .float x _ => if needsInteger then refuse "an integer" else Num.truncate x
    | _ => refuse (if needsInteger then "an integer" else "a real number")
where
  refuse (what : String) : Except Fault Int :=
    .error (.stated .type ("%" ++ String.ofList [letter] ++ " format: " ++ what
      ++ " is required, not " ++ v.typeName s))

def floatFor (s : Store) (v : Value) : Except Fault Float :=
  match v.num? with
  | some (.complex ..) | none =>
    .error (.stated .type ("must be real number, not " ++ v.typeName s))
  | some n => n.toFloat

def fill (s : Store) (m : PercentMark) (letter : Char) (place : Nat) (v : Value) :
    Except Fault (List Char) := do
  let text (t : String) : List Char :=
    lay m false [] (match m.precision with | some p => t.toList.take p | none => t.toList)
  let number (n : Int) (mark : List Char) (digits : List Char) : List Char :=
    let digits := List.replicate ((m.precision.getD 0) - digits.length) '0' ++ digits
    lay m m.zero (signOf m (n < 0) ++ if m.alternate then mark else []) digits
  let float (code : Char) (big : Bool) : Except Fault (List Char) := do
    let x ← floatFor s v
    let style : Number.PlacesStyle := { keepPoint := m.alternate }
    let body := floatBody style code (m.precision.getD 6) x
    let body := if big then capitals body else body
    pure (lay m m.zero (signOf m (isNegative x && !isNotANumber x)) body.toList)
  match letter with
  | 's' => return text (← v.plain s)
  | 'r' => return text (← v.shown s)
  | 'a' => return text (Text.ascii (← v.shown s))
  | 'd' | 'i' | 'u' =>
    let n ← integerFor s letter v
    return number n [] (← boundedIntText n.natAbs).toList
  | 'o' =>
    let n ← integerFor s letter v
    return number n ['0', 'o'] (Nat.toDigits 8 n.natAbs)
  | 'x' =>
    let n ← integerFor s letter v
    return number n ['0', 'x'] (Nat.toDigits 16 n.natAbs)
  | 'X' =>
    let n ← integerFor s letter v
    return number n ['0', 'X'] ((Nat.toDigits 16 n.natAbs).map Char.toUpper)
  | 'e' => float 'e' false
  | 'E' => float 'e' true
  | 'f' => float 'f' false
  | 'F' => float 'f' true
  | 'g' => float 'g' false
  | 'G' => float 'g' true
  | 'c' =>
    match v with
    | .text t =>
      match t.toList with
      | [c] => return lay m false [] [c]
      | _ => throw (.stated .type "%c requires int or char")
    | v =>
      match v.int? with
      | some n =>
        if !fitsWord n then throw (.stated .type "%c requires int or char")
        else if n < 0 ∨ 0x110000 ≤ n then throw (.stated .overflow "%c arg not in range(0x110000)")
        else return lay m false [] [Char.ofNat n.toNat]
      | none => throw (.stated .type "%c requires int or char")
  | c =>
    throw (.stated .value ("unsupported format character '" ++ String.ofList [c] ++ "' (0x"
      ++ String.ofList (Nat.toDigits 16 c.toNat) ++ ") at index " ++ natText place))

/-- Fills in the marks of a text whose length in whole is `total`. -/
def run (total : Nat) : Nat → List Char → PercentArgs → List Char → Op (List Char × PercentArgs)
  | 0, _, _, _ => throw .outOfFuel
  | _ + 1, [], args, acc => pure (acc.reverse, args)
  | n + 1, '%' :: cs, args, acc => do
    let incomplete : Fault := .stated .value "incomplete format"
    let (named, cs) ← match cs with
      | '(' :: rest =>
        match args.mapping with
        | none => throw (.stated .type "format requires a mapping")
        | some m =>
          match nameOf 0 [] rest with
          | none => throw (.stated .value "incomplete format key")
          | some (key, rest) => do
            let v ← Op.getItem m (.text (String.ofList key))
            pure (some v, rest)
      | cs => pure (none, cs)
    let args := match named with
      | some v => { args with rest := [v], single := true }
      | none => args
    let (m, cs) := flags {} cs
    let (m, cs, args) ← match cs with
      | '*' :: rest => do
        let (w, args) ← starArg args
        let w ← Op.look fun _ ↦ wordOf .sizeTooWide w
        pure ({ m with width := w.natAbs, left := m.left || w < 0 }, rest, args)
      | cs =>
        let (w, rest) ← Op.look fun _ ↦ number (twoTo 63 - 1) "width" cs
        pure ({ m with width := w.getD 0 }, rest, args)
    let (m, cs, args) ← match cs with
      | '.' :: '*' :: rest => do
        let (p, args) ← starArg args
        if p < -(twoTo 31 : Int) ∨ (twoTo 31 : Int) ≤ p then
          throw (.stated .overflow "Python int too large to convert to C int")
        pure ({ m with precision := some p.toNat }, rest, args)
      | '.' :: rest =>
        let (p, rest) ← Op.look fun _ ↦ number (twoTo 31 - 1) "precision" rest
        pure ({ m with precision := some (p.getD 0) }, rest, args)
      | cs => pure (m, cs, args)
    let cs := match cs with
      | c :: rest => if c == 'h' || c == 'l' || c == 'L' then rest else c :: rest
      | [] => []
    match cs with
    | [] => throw incomplete
    | '%' :: rest => run total n rest args ('%' :: acc)
    | c :: rest => do
      let (v, args) ← take args
      Op.look fun _ ↦ checkCapacity m.width
      let t ← Op.look fun s ↦ fill s m c (total - rest.length - 1) v
      run total n rest args (t.reverse ++ acc)
  | n + 1, c :: cs, args, acc => run total n cs args (c :: acc)

end Percent

def percentFormat (format : String) (args : Value) : Op String := do
  let cs := format.toList
  let start := Percent.argsOf args
  let (out, rest) ← Percent.run cs.length (cs.length + 1) cs start []
  if start.mapping.isNone && !rest.rest.isEmpty then
    throw (.stated .type "not all arguments converted during string formatting")
  pure (String.ofList out)

end TriggerScript
