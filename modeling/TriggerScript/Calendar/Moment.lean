import TriggerScript.Calendar.Date
import TriggerScript.Number.Layout
import TriggerScript.Text.Digit

/-!
# Moments

An instant of local time to the microsecond, kept as the count of microseconds from the start of
year 1, so that order and differences are those of natural numbers. The bound keeps every moment
inside the calendar.
-/

namespace TriggerScript.Calendar

open Number

/-- Microseconds in a second. -/
abbrev second : Nat := 1000000

abbrev minute : Nat := 60 * second

abbrev hour : Nat := 60 * minute

abbrev day : Nat := 24 * hour

/-- A moment of the calendar: microseconds since the start of year 1. -/
structure Moment where
  ticks : Nat
  ticks_lt : ticks < Date.lastDay * day
  deriving DecidableEq

namespace Moment

instance : LT Moment := ⟨fun a b ↦ a.ticks < b.ticks⟩
instance : LE Moment := ⟨fun a b ↦ a.ticks ≤ b.ticks⟩
instance (a b : Moment) : Decidable (a < b) := inferInstanceAs (Decidable (a.ticks < b.ticks))
instance (a b : Moment) : Decidable (a ≤ b) := inferInstanceAs (Decidable (a.ticks ≤ b.ticks))

instance : Inhabited Moment := ⟨⟨0, by decide⟩⟩

def ofTicks? (ticks : Int) : Option Moment :=
  if h : 0 ≤ ticks ∧ ticks < Date.lastDay * day then
    some ⟨ticks.toNat, by have := h.1; have := h.2; omega⟩
  else none

variable (m : Moment)

def add? (micros : Int) : Option Moment := ofTicks? (m.ticks + micros)

def since (m earlier : Moment) : Int := (m.ticks : Int) - earlier.ticks

def dayCount : Nat := m.ticks / day

def timeOfDay : Nat := m.ticks % day

def date : Date := Date.ofDay m.dayCount

def year (m : Moment) : Nat := m.date.year

def month (m : Moment) : Nat := m.date.month

def dayOfMonth : Nat := m.date.day

def hourOfDay : Nat := m.timeOfDay / hour

def minuteOfHour : Nat := m.timeOfDay / minute % 60

def secondOfMinute : Nat := m.timeOfDay / second % 60

def microsecond : Nat := m.timeOfDay % second

def weekday : Nat := weekdayOfDay m.dayCount

/-! ### Written form -/

def dateText : String := padded 4 m.year ++ "-" ++ padded 2 m.month ++ "-" ++ padded 2 m.dayOfMonth

def clockText : String :=
  let hms := padded 2 m.hourOfDay ++ ":" ++ padded 2 m.minuteOfHour ++ ":"
    ++ padded 2 m.secondOfMinute
  if m.microsecond = 0 then hms else hms ++ "." ++ padded 6 m.microsecond

def text (separator : String) (m : Moment) : String := m.dateText ++ separator ++ m.clockText

def numbers : List Char → Option (Nat × Nat) → List (Nat × Nat)
  | [], none => []
  | [], some n => [n]
  | c :: cs, run =>
    match Text.digit? c, run with
    | some d, none => numbers cs (some (d, 1))
    | some d, some (n, len) => numbers cs (some (10 * n + d, len + 1))
    | none, none => numbers cs none
    | none, some n => n :: numbers cs none

def read? (text : String) : Option Moment :=
  let part (i : Nat) (ns : List (Nat × Nat)) : Nat := (ns[i]?.map (·.1)).getD 0
  let ns := numbers text.toList none
  let fraction : Nat := match ns[6]? with
    | some (n, len) => n * tenTo (6 - len) / tenTo (len - 6)
    | none => 0
  let d : Date := ⟨part 0 ns, part 1 ns, part 2 ns⟩
  let clock : Nat := part 3 ns * hour + part 4 ns * minute + part 5 ns * second + fraction
  if d.Valid then ofTicks? ((d.toDay * day + clock : Nat) : Int)
  else none

end Moment

end TriggerScript.Calendar
