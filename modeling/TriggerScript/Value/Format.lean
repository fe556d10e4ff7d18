import TriggerScript.Number.Places
import TriggerScript.Value.Arithmetic
import TriggerScript.Value.Capacity
import TriggerScript.Value.Text

/-!
# Format specifications

A specification says how a value is laid out: fill and alignment, sign, alternate form, width,
grouping of digits, precision and a code for the form. What a specification may say depends on the
kind of value.
-/

namespace TriggerScript

open Number

structure FormatSpec where
  fill : Char := ' '
  align : Option Char := none
  sign : Option Char := none
  dropNegativeZero : Bool := false
  alternate : Bool := false
  width : Nat := 0
  grouping : Option Char := none
  precision : Option Nat := none
  code : Option Char := none

namespace FormatSpec

def isAlign (c : Char) : Bool := c == '<' || c == '>' || c == '=' || c == '^'

def oneOf (cs : List Char) : List Char → Option Char × List Char
  | c :: rest => if cs.contains c then (some c, rest) else (none, c :: rest)
  | [] => (none, [])

def bounded (ds : List Char) : Except Fault Nat :=
  let n := Text.digitsValue ds
  if fitsWord n then .ok n
  else .error (.stated .value "Too many decimal digits in format string")

def number (cs : List Char) : Except Fault (Option Nat × List Char) := do
  let ds := cs.takeWhile Text.isDigit
  if ds.isEmpty then return (none, cs)
  else return (some (← bounded ds), cs.dropWhile Text.isDigit)

def fillAndAlign : List Char → Option Char × Option Char × List Char
  | f :: a :: rest =>
    if isAlign a then (some f, some a, rest)
    else if isAlign f then (none, some f, a :: rest)
    else (none, none, f :: a :: rest)
  | [a] => if isAlign a then (none, some a, []) else (none, none, [a])
  | [] => (none, none, [])

def read (type : String) (alignsRight : Bool) (text : List Char) : Except Fault FormatSpec := do
  let fail {α : Type} (t : String) : Except Fault α := .error (.stated .value t)
  let (fill, align, cs) := fillAndAlign text
  let (sign, cs) := oneOf ['+', '-', ' '] cs
  let (z, cs) := oneOf ['z'] cs
  let (alt, cs) := oneOf ['#'] cs
  let (zero, cs) := match fill with
    | some _ => (none, cs)
    | none => oneOf ['0'] cs
  let (width, cs) ← number cs
  let (comma, cs) := oneOf [','] cs
  let (under, cs) := oneOf ['_'] cs
  if comma.isSome && under.isSome then fail "Cannot specify both ',' and '_'."
  let (again, cs) := oneOf [','] cs
  if again.isSome then
    if under.isSome then fail "Cannot specify both ',' and '_'."
    else fail "Cannot specify ',' with ','."
  let (dot, cs) := oneOf ['.'] cs
  let (precision, cs) ← if dot.isSome then number cs else pure (none, cs)
  if dot.isSome && precision.isNone then fail "Format specifier missing precision"
  let code ← match cs with
    | [] => pure none
    | [c] => pure (some c)
    | _ =>
      fail ("Invalid format specifier '" ++ String.ofList text ++ "' for object of type '" ++ type
        ++ "'")
  let grouping := comma.orElse fun _ ↦ under
  match grouping, code with
  | some g, some c =>
    let plain := ['d', 'e', 'f', 'g', 'E', 'G', '%', 'F'].contains c
    let based := g == '_' && ['b', 'o', 'x', 'X'].contains c
    if !plain && !based then
      fail ("Cannot specify '" ++ String.ofList [g] ++ "' with '" ++ String.ofList [c] ++ "'.")
  | _, _ => pure ()
  checkCapacity (width.getD 0)
  pure {
    fill := if zero.isSome then '0' else fill.getD ' '
    align := align.orElse fun _ ↦ if zero.isSome && alignsRight then some '=' else none
    sign, dropNegativeZero := z.isSome, alternate := alt.isSome, width := width.getD 0
    grouping, precision, code }

variable (spec : FormatSpec)

def pad (align : Char) (text : List Char) : String :=
  let total := spec.width - text.length
  let left := if align == '>' then total else if align == '^' then total / 2 else 0
  String.ofList (List.replicate left spec.fill ++ text ++ List.replicate (total - left) spec.fill)

/-! ### Numbers -/

def groupDigits (size : Nat) (mark : Char) (ds : List Char) : List Char :=
  let rec go : Nat → List Char → List Char
    | _, [] => []
    | n, c :: cs =>
      if n == size && size > 0 then mark :: c :: go 1 cs else c :: go (n + 1) cs
  (go 0 ds.reverse).reverse

/-- Digits with grouping marks, filled with zeros to a least width. -/
def grouped (size : Nat) (mark : Option Char) (least : Nat) (ds : List Char) : List Char :=
  match mark with
  | none => List.replicate (least - ds.length) '0' ++ ds
  | some m =>
    -- the fewest digits whose grouped form is wide enough
    let widths := (List.range (least + 1)).map (ds.length + ·)
    let n := (widths.find? fun n ↦ n + (n - 1) / size ≥ least).getD ds.length
    groupDigits size m (List.replicate (n - ds.length) '0' ++ ds)

def layNumber (negative : Bool) (mark digits rest : List Char) (size : Nat) : String :=
  let sign : List Char :=
    if negative then ['-']
    else match spec.sign with
      | some '+' => ['+']
      | some ' ' => [' ']
      | _ => []
  let align := spec.align.getD '>'
  let outside := sign.length + mark.length + rest.length
  let least := if spec.fill == '0' && align == '=' then spec.width - outside else 0
  let body := grouped size spec.grouping least digits
  if align == '=' then
    let missing := spec.width - (outside + body.length)
    String.ofList (sign ++ mark ++ List.replicate missing spec.fill ++ body ++ rest)
  else pad spec align (sign ++ mark ++ body ++ rest)

def floatBody (style : Number.PlacesStyle) (code : Char) (precision : Nat) (x : Float) : String :=
  match parts x with
  | .notANumber => "nan"
  | .infinite _ => "inf"
  | .finite .. =>
    match fraction? x.abs with
    | none => "inf"
    | some (num, den) =>
      match code with
      | 'f' => fixedText style num.toNat den precision
      | 'e' => scientificText style num.toNat den precision
      | _ => generalText style num.toNat den precision

def capitals (t : String) : String := String.ofList (t.toList.map Char.toUpper)

def splitDigits (t : String) : List Char × List Char :=
  (t.toList.takeWhile Char.isDigit, t.toList.dropWhile Char.isDigit)

def unknownCode (type : String) (c : Char) : Fault :=
  let shown :=
    if 32 < c.toNat && c.toNat < 128 then String.ofList [c]
    else "\\x" ++ String.ofList (Nat.toDigits 16 c.toNat)
  .stated .value ("Unknown format code '" ++ shown ++ "' for object of type '" ++ type ++ "'")

def checkPrecision : Except Fault Unit :=
  if spec.precision.getD 0 < twoTo 31 then .ok ()
  else .error (.stated .value "precision too big")

def formatFloat (type : String) (x : Float) : Except Fault String := do
  checkPrecision spec
  let negative := isNegative x && !isNotANumber x
  let lay (negative : Bool) (body : String) (suffix : List Char) : String :=
    let (ds, rest) := splitDigits body
    let negative := negative
      && !(spec.dropNegativeZero && body.toList.all fun c ↦ c == '0' || c == '.')
    if ds.isEmpty then layNumber { spec with grouping := none } negative [] body.toList suffix 3
    else layNumber spec negative [] ds (rest ++ suffix) 3
  let style : Number.PlacesStyle := { keepPoint := spec.alternate }
  let precision := spec.precision.getD 6
  match spec.code with
  | none =>
    match spec.precision with
    | none => .ok (lay negative (floatText x.abs) [])
    | some p => .ok (lay negative (floatBody { style with oneZero := true } 'g' p x) [])
  | some c =>
    match c with
    | 'e' => .ok (lay negative (floatBody style 'e' precision x) [])
    | 'E' => .ok (lay negative (capitals (floatBody style 'e' precision x)) [])
    | 'f' => .ok (lay negative (floatBody style 'f' precision x) [])
    | 'F' => .ok (lay negative (capitals (floatBody style 'f' precision x)) [])
    | 'g' | 'n' => .ok (lay negative (floatBody style 'g' precision x) [])
    | 'G' => .ok (lay negative (capitals (floatBody style 'g' precision x)) [])
    | '%' => .ok (lay negative (floatBody style 'f' precision (x * 100)) ['%'])
    | c => .error (unknownCode type c)

def formatComplex (type : String) (re im : Float) : Except Fault String := do
  let fail {α : Type} (t : String) : Except Fault α := .error (.stated .value t)
  match spec.code with
  | some c =>
    if !"eEfFgGn".toList.contains c then throw (unknownCode type c)
  | none => pure ()
  if spec.fill == '0' then fail "Zero padding is not allowed in complex format specifier"
  if spec.align == some '=' then
    fail "'=' alignment flag is not allowed in complex format specifier"
  checkPrecision spec
  let bare := { spec with width := 0, align := none, fill := ' ' }
  let part (spec : FormatSpec) (x : Float) : Except Fault String :=
    match spec.code with
    | none =>
      let body := match spec.precision with
        | none => partText x.abs
        | some p => floatBody { keepPoint := spec.alternate } 'g' p x
      let (ds, rest) := splitDigits body
      let negative := isNegative x && !isNotANumber x
      .ok (if ds.isEmpty then layNumber { spec with grouping := none } negative [] body.toList [] 3
        else layNumber spec negative [] ds rest 3)
    | some _ => formatFloat spec type x
  let alone := spec.code.isNone && re == 0 && !isNegative re
  let first ← if alone then pure "" else part bare re
  let second ← part (if alone then bare else { bare with sign := some '+' }) im
  let text := first ++ second ++ "j"
  let text := if spec.code.isNone && !alone then "(" ++ text ++ ")" else text
  return pad spec (spec.align.getD '>') text.toList

def formatInt (type : String) (n : Int) : Except Fault String := do
  let fail {α : Type} (t : String) : Except Fault α := .error (.stated .value t)
  let code := spec.code.getD 'd'
  if ['e', 'E', 'f', 'F', 'g', 'G', '%'].contains code then
    return ← formatFloat spec type (← Num.floatOfInt n)
  if !"bcdoxXn".toList.contains code then throw (unknownCode type code)
  if spec.precision.isSome then fail "Precision not allowed in integer format specifier"
  if spec.dropNegativeZero then
    fail "Negative zero coercion (z) not allowed in integer format specifier"
  if code == 'c' then
    if spec.sign.isSome then fail "Sign not allowed with integer format specifier 'c'"
    if spec.alternate then fail "Alternate form (#) not allowed with integer format specifier 'c'"
    if !fitsWord n then throw .fieldTooLargeForWord
    if n < 0 ∨ 0x110000 ≤ n then throw (.stated .overflow "%c arg not in range(0x110000)")
    return layNumber { spec with grouping := none } false [] [Char.ofNat n.toNat] [] 3
  let based (base : Nat) : List Char := Nat.toDigits base n.natAbs
  let mark (t : String) : List Char := if spec.alternate then t.toList else []
  match code with
  | 'b' => return layNumber spec (n < 0) (mark "0b") (based 2) [] 4
  | 'o' => return layNumber spec (n < 0) (mark "0o") (based 8) [] 4
  | 'x' => return layNumber spec (n < 0) (mark "0x") (based 16) [] 4
  | 'X' => return layNumber spec (n < 0) (mark "0X") ((based 16).map Char.toUpper) [] 4
  | _ =>
    let t ← boundedIntText n.natAbs
    return layNumber spec (n < 0) [] t.toList [] 3

def formatText (t : String) : Except Fault String := do
  let fail {α : Type} (t : String) : Except Fault α := .error (.stated .value t)
  match spec.code with
  | none | some 's' => pure ()
  | some c => throw (unknownCode "str" c)
  match spec.sign with
  | some ' ' => fail "Space not allowed in string format specifier"
  | some _ => fail "Sign not allowed in string format specifier"
  | none => pure ()
  if spec.dropNegativeZero then
    fail "Negative zero coercion (z) not allowed in string format specifier"
  if spec.alternate then fail "Alternate form (#) not allowed in string format specifier"
  if spec.align == some '=' then fail "'=' alignment not allowed in string format specifier"
  let cs := match spec.precision with
    | some p => t.toList.take p
    | none => t.toList
  return pad spec (spec.align.getD '<') cs

end FormatSpec

def Value.formatted (s : Store) (v : Value) (spec : String) : Except Fault String :=
  if spec.isEmpty then v.plain s
  else
    let type := v.typeName s
    match v with
    | .text t => do (← FormatSpec.read type false spec.toList).formatText t
    | .int n => do (← FormatSpec.read type true spec.toList).formatInt type n
    | .bool b => do (← FormatSpec.read type true spec.toList).formatInt type (if b then 1 else 0)
    | .float x _ => do (← FormatSpec.read type true spec.toList).formatFloat type x
    | .complex re im _ => do (← FormatSpec.read type true spec.toList).formatComplex type re im
    | _ => .error (.noFormat type)

end TriggerScript
