import TriggerScript.Fault
import TriggerScript.Text.Blank

/-!
# Reading numbers

Integers and decimal fractions as they are written in texts: blanks around, an optional sign, digits
of any script, and single underscores between digits. A decimal fraction may have a point and an
exponent, or be one of the words for infinity and NaN.

An integer is read only if it is written with at most `digitLimit` digits, zeros at the start
included. So a `Numeral` keeps its digits until the number is asked for. A base that is a power of
two knows no such limit.
-/

namespace TriggerScript.Number

open Text

def signed : List Char → Bool × List Char
  | '-' :: cs => (true, cs)
  | '+' :: cs => (false, cs)
  | cs => (false, cs)

def digitRun (value? : Char → Option Nat) : List Char → List Nat × List Char
  | [] => ([], [])
  | c :: cs =>
    match value? c with
    | none => ([], c :: cs)
    | some d =>
      match cs with
      | '_' :: rest =>
        if (rest.head?.bind value?).isSome then
          let r := digitRun value? rest
          (d :: r.1, r.2)
        else ([d], '_' :: rest)
      | other =>
        let r := digitRun value? other
        (d :: r.1, r.2)

def ofDigits (base : Nat) (ds : List Nat) : Nat := ds.foldl (fun n d ↦ base * n + d) 0

def baseDigit? (base : Nat) (c : Char) : Option Nat :=
  let v := match digit? c with
    | some d => some d
    | none =>
      let n := c.toLower.toNat
      if 97 ≤ n ∧ n ≤ 122 then some (n - 87) else none
  v.filter (· < base)

def digitLimit : Nat := 4300

def checkDigits (count : Nat) : Except Fault Unit :=
  if count ≤ digitLimit then .ok () else .error (.digitLimitOf count)

def readInt? (text : List Char) : Option (Int × Nat) :=
  let (negative, cs) := signed (strip text)
  match digitRun digit? cs with
  | ([], _) => none
  | (ds, []) =>
    let n : Int := ofDigits 10 ds
    some (if negative then -n else n, ds.length)
  | (_, _ :: _) => none

def dropMark (mark : Char) : List Char → List Char
  | '0' :: c :: cs =>
    if c.toLower = mark then
      match cs with
      | '_' :: rest => rest
      | rest => rest
    else '0' :: c :: cs
  | cs => cs

def isPowerOfTwo (n : Nat) : Bool := n.land (n - 1) == 0

def readIntBase? (base : Nat) (text : List Char) : Except Fault (Option Int) :=
  let (negative, cs) := signed (strip text)
  let marked : Nat × List Char :=
    if base = 16 then (16, dropMark 'x' cs)
    else if base = 8 then (8, dropMark 'o' cs)
    else if base = 2 then (2, dropMark 'b' cs)
    else if base = 0 then
      match cs with
      | '0' :: c :: _ =>
        if c.toLower = 'x' then (16, dropMark 'x' cs)
        else if c.toLower = 'o' then (8, dropMark 'o' cs)
        else if c.toLower = 'b' then (2, dropMark 'b' cs)
        else (10, cs)
      | _ => (10, cs)
    else (base, cs)
  match digitRun (baseDigit? marked.1) marked.2 with
  | ([], _) => .ok none
  | (ds, []) => do
    if isPowerOfTwo marked.1 then pure () else checkDigits ds.length
    let n : Int := ofDigits marked.1 ds
    if base = 0 && marked.1 = 10 && marked.2.head? = some '0' && n ≠ 0 then return none
    else return some (if negative then -n else n)
  | (_, _ :: _) => .ok none

def exponentPart (cs : List Char) : Int × List Char :=
  match cs with
  | c :: rest =>
    if c = 'e' ∨ c = 'E' then
      let (negative, digits) := signed rest
      match digitRun digit? digits with
      | ([], _) => (0, cs)
      | (ds, after) =>
        let n : Int := ofDigits 10 ds
        (if negative then -n else n, after)
    else (0, cs)
  | [] => (0, [])

def decimalPart (cs : List Char) : Option (Nat × Int × List Char) :=
  let (whole, cs1) := digitRun digit? cs
  let (frac, cs2) :=
    match cs1 with
    | '.' :: rest => digitRun digit? rest
    | _ => ([], cs1)
  if whole.isEmpty && frac.isEmpty then none
  else
    let (e, cs3) := exponentPart cs2
    some (ofDigits 10 (whole ++ frac), e - frac.length, cs3)

def specialFloat? (negative : Bool) (cs : List Char) : Option Float :=
  let word := String.ofList (cs.map Char.toLower)
  if word = "inf" ∨ word = "infinity" then some (infinity negative)
  else if word = "nan" then some notANumber
  else none

def leadingFloat? (cs : List Char) : Option (Float × List Char) :=
  let (negative, rest) := signed cs
  match decimalPart rest with
  | some (digits, e, rest) => some (ofDecimal negative digits e, rest)
  | none =>
    -- the longest word first, since one begins with another
    [8, 3].findSome? fun n ↦ (specialFloat? negative (rest.take n)).map (·, rest.drop n)

def readFloat? (text : List Char) : Option Float :=
  let (negative, cs) := signed (strip text)
  match decimalPart cs with
  | some (digits, e, []) => some (ofDecimal negative digits e)
  | some (_, _, _ :: _) => none
  | none => specialFloat? negative cs

/-! ### Runs of digits -/

/-- A number as a text writes it: a run of digits of any script. -/
structure Numeral where
  digits : List Char
  deriving Repr, DecidableEq

namespace Numeral

def value (n : Numeral) : Nat := digitsValue n.digits

def length (n : Numeral) : Nat := n.digits.length

def dropZeros : List Char → List Char
  | '0' :: d :: ds => dropZeros (d :: ds)
  | ds => ds

def read (n : Numeral) : Except Fault Nat :=
  if n.length ≤ digitLimit then .ok n.value else .error (.digitLimitOf n.length)

theorem read_of_length_le {n : Numeral} (h : n.length ≤ digitLimit) : n.read = .ok n.value :=
  if_pos h

end Numeral

end TriggerScript.Number
