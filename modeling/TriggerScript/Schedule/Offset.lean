import TriggerScript.Calendar.Duration
import TriggerScript.Number.Numeral
import TriggerScript.Schedule.Reading
import TriggerScript.Text.Word

/-!
# Time offsets

A signed number with a unit, such as `+ 5 min` or `-1.5h`. The number may have a point and an
exponent; a unit that is not known counts seconds. A whole number of seconds is kept exactly as long
as it is below `2 ^ 53`; any other offset is a floating-point number of seconds. Below that bound
floating-point arithmetic on whole numbers is exact, so the two agree.
-/

namespace TriggerScript.Schedule

open Calendar Text

inductive Offset where
  | whole (negative : Bool) (seconds : Nat)
  | fractional (seconds : Float)

namespace Offset

def toFloat : Offset → Float
  | whole negative n => Number.ofRatio negative n 1
  | fractional x => x

def toDuration : Offset → Except Fault Duration
  | whole negative n => Duration.ofWhole (if negative then -(n : Int) else n) second
  | fractional x => Duration.ofSeconds x

/-- Seconds in a unit of time; an unknown unit is a second. -/
def unitSeconds (unit : List Char) : Nat :=
  match String.ofList unit with
  | "m" | "min" | "minutes" => 60
  | "h" | "hr" | "hours" => 60 * 60
  | "d" | "day" | "days" => 60 * 60 * 24
  | "w" | "week" | "weeks" => 60 * 60 * 24 * 7
  | _ => 1

/-! ### Reading -/

def scanExponent (cs : List Char) : List Char × List Char :=
  match cs with
  | e :: rest =>
    if e = 'e' ∨ e = 'E' then
      let (sign, rest) := match rest with
        | '-' :: r => (['-'], r)
        | '+' :: r => (['+'], r)
        | r => ([], r)
      let ds := rest.takeWhile isDigit
      if ds.isEmpty then ([], cs) else (e :: sign ++ ds, rest.dropWhile isDigit)
    else ([], cs)
  | [] => ([], [])

def scanNumber (cs : List Char) : Option (List Char × List Char) :=
  let ds := cs.takeWhile isDigit
  let rest := cs.dropWhile isDigit
  let body := match rest with
    | '.' :: r =>
      let fs := r.takeWhile isDigit
      if !fs.isEmpty then some (ds ++ '.' :: fs, r.dropWhile isDigit)
      else if ds.isEmpty then none else some (ds, rest)
    | _ => if ds.isEmpty then none else some (ds, rest)
  body.map fun (number, rest) ↦
    let (exponent, rest) := scanExponent rest
    (number ++ exponent, rest)

structure Scan where
  sign : List Char
  blanks : List Char
  number : List Char
  unit : List Char

def scan (cs : List Char) : Option (Scan × List Char) :=
  let (sign, cs) := match cs with
    | '-' :: r => (['-'], r)
    | '+' :: r => (['+'], r)
    | r => ([], r)
  let blanks := cs.takeWhile isBlank
  match scanNumber (cs.dropWhile isBlank) with
  | none => none
  | some (number, rest) =>
    let rest := rest.dropWhile isBlank
    some (⟨sign, blanks, number, rest.takeWhile isWord⟩, rest.dropWhile isWord)

def Scan.offset (s : Scan) : Except Fault Offset :=
  let unit := unitSeconds s.unit
  let text := (s.sign ++ s.blanks ++ s.number).filter (· ≠ ' ')
  match Number.readFloat? text with
  | none => .error (.floatText (String.ofList text))
  | some x =>
    let n := digitsValue s.number * unit
    if s.number.all isDigit && n < Number.twoTo 53 then .ok (.whole (s.sign = ['-']) n)
    else .ok (.fractional (x * Number.ofInt unit))

def read? (cs : List Char) : Except Fault (Option Offset) :=
  match sole? scan cs with
  | none => .ok none
  | some s => s.offset.map some

end Offset

end TriggerScript.Schedule
