import TriggerScript.Number.Numeral
import TriggerScript.Syntax.Fault
import TriggerScript.Syntax.Tree
import TriggerScript.Text.Cut

/-!
# Literals

What the text of a number or string token stands for. Escapes of a string are undone here; the parts
of a formatted string are left to the grammar, since they hold expressions.
-/

namespace TriggerScript.Syntax

open Text Number

/-! ### Numbers -/

def numberLiteral (text : String) : Except String Literal :=
  let cs := text.toList.filter (· ≠ '_')
  let based (base : Nat) : Literal := .int (ofDigits base ((cs.drop 2).filterMap (baseDigit? base)))
  let float (cs : List Char) : Float := (readFloat? cs).getD 0
  match (cs.take 2).map Char.toLower with
  | ['0', 'x'] => .ok (based 16)
  | ['0', 'o'] => .ok (based 8)
  | ['0', 'b'] => .ok (based 2)
  | _ =>
    match cs.getLast?.map Char.toLower with
    | some 'j' => .ok (.imaginary (float cs.dropLast))
    | _ =>
      if cs.all Char.isDigit then
        if cs.length > digitLimit then
          .error ("Exceeds the limit (4300 digits) for integer string conversion: value has " ++
            toString cs.length ++
            " digits; use sys.set_int_max_str_digits() to increase the limit" ++
            " - Consider hexadecimal for huge integer literals to avoid decimal conversion " ++
            "limits.")
        else .ok (.int (ofDigits 10 (cs.filterMap digit?)))
      else .ok (.float (float cs))

/-! ### Strings -/

structure StringBody where
  isBytes : Bool
  isRaw : Bool
  isFormat : Bool
  /-- The token starts with the mark of a plain text. -/
  isMarked : Bool
  body : List Char
  /-- How many characters precede the body. -/
  offset : Nat

def stringBody (text : String) : StringBody :=
  let cs := text.toList
  let isQuote (c : Char) : Bool := c == '"' || c == '\''
  let letters := cs.takeWhile (! isQuote ·)
  let has (c : Char) : Bool := letters.any (·.toLower == c)
  let rest := cs.drop letters.length
  let q := rest.headD '"'
  let size := if rest.length ≥ 6 && rest.take 3 == [q, q, q] then 3 else 1
  { isBytes := has 'b', isRaw := has 'r', isFormat := has 'f',
    isMarked := letters.head? == some 'u',
    body := (rest.drop size).take (rest.length - 2 * size),
    offset := letters.length + size }

def hexDigit? (c : Char) : Option Nat :=
  if c.isDigit then some (c.toNat - 48)
  else
    let n := c.toLower.toNat
    if 97 ≤ n ∧ n ≤ 102 then some (n - 87) else none

def takeHex (n : Nat) (cs : List Char) : List Nat :=
  ((cs.take n).takeWhile fun c ↦ (hexDigit? c).isSome).filterMap hexDigit?

def takeOctal (n : Nat) (cs : List Char) : List Nat :=
  ((cs.take n).takeWhile fun c ↦ '0' ≤ c && c < '8').map fun c ↦ c.toNat - 48

def simpleEscape? : Char → Option Char
  | '\\' => some '\\'
  | '\'' => some '\''
  | '"' => some '"'
  | 'a' => some '\x07'
  | 'b' => some '\x08'
  | 'f' => some '\x0c'
  | 'n' => some '\n'
  | 'r' => some '\r'
  | 't' => some '\t'
  | 'v' => some '\x0b'
  | _ => none

def escapeFault (first last : Nat) (why : String) : String :=
  "(unicode error) 'unicodeescape' codec can't decode bytes in position " ++ toString first ++ "-"
    ++ toString last ++ ": " ++ why

def unescape : Nat → Nat → List Char → Except String (List Char)
  | 0, _, _ => .ok []
  | _, _, [] => .ok []
  | n + 1, at_, '\\' :: c :: cs =>
    let coded (mark : String) (digits : Nat) : Except String (List Char) :=
      let ds := takeHex digits cs
      let code := ofDigits 16 ds
      if ds.length < digits then .error
        (escapeFault at_ (at_ + 1 + ds.length) ("truncated " ++ mark ++ " escape"))
      else if code > 0x10ffff then .error
        (escapeFault at_ (at_ + 1 + digits) "illegal Unicode character")
      else (unescape n (at_ + 2 + digits) (cs.drop digits)).map (Char.ofNat code :: ·)
    match simpleEscape? c with
    | some d => (unescape n (at_ + 2) cs).map (d :: ·)
    | none =>
      if c = '\n' then unescape n (at_ + 2) cs
      else if c = 'x' then coded "\\xXX" 2
      else if c = 'u' then coded "\\uXXXX" 4
      else if c = 'U' then coded "\\UXXXXXXXX" 8
      else if c = 'N' then
        .error (escapeFault at_ (at_ + 1) "malformed \\N character escape")
      else
        let ds := takeOctal 3 (c :: cs)
        if ds.isEmpty then
          (unescape n (at_ + if c.toNat < 128 then 2 else 11) cs).map ('\\' :: c :: ·)
        else
          (unescape n (at_ + 1 + ds.length) ((c :: cs).drop ds.length)).map
            (Char.ofNat (ofDigits 8 ds) :: ·)
  | n + 1, at_, c :: cs =>
    (unescape n (at_ + if c.toNat < 128 then 1 else 10) cs).map (c :: ·)

def unescapeBytes : Nat → Nat → List Char → Except String (List UInt8)
  | 0, _, _ => .ok []
  | _, _, [] => .ok []
  | n + 1, at_, '\\' :: c :: cs =>
    match simpleEscape? c with
    | some d => (unescapeBytes n (at_ + 2) cs).map (UInt8.ofNat d.toNat :: ·)
    | none =>
      if c = '\n' then unescapeBytes n (at_ + 2) cs
      else if c = 'x' then
        let ds := takeHex 2 cs
        if ds.length < 2 then .error ("(value error) invalid \\x escape at position " ++
          toString at_)
        else (unescapeBytes n (at_ + 4) (cs.drop 2)).map (UInt8.ofNat (ofDigits 16 ds) :: ·)
      else
        let ds := takeOctal 3 (c :: cs)
        if ds.isEmpty then
          (unescapeBytes n (at_ + 2) cs).map fun r ↦ UInt8.ofNat 92 :: UInt8.ofNat c.toNat :: r
        else
          (unescapeBytes n (at_ + 1 + ds.length) ((c :: cs).drop ds.length)).map
            (UInt8.ofNat (ofDigits 8 ds) :: ·)
  | n + 1, at_, c :: cs => (unescapeBytes n (at_ + 1) cs).map (UInt8.ofNat c.toNat :: ·)

def decodeText (isRaw : Bool) (cs : List Char) : Except String (List Char) :=
  if isRaw then .ok cs else unescape (cs.length + 1) 0 cs

def decodeBytes (isRaw : Bool) (cs : List Char) : Except String (List UInt8) :=
  if cs.any (·.toNat ≥ 128) then .error "bytes can only contain ASCII literal characters"
  else if isRaw then .ok (cs.map fun c ↦ UInt8.ofNat c.toNat)
  else unescapeBytes (cs.length + 1) 0 cs

end TriggerScript.Syntax
