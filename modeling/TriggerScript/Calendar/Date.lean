/-!
# Dates

The proleptic Gregorian calendar from 1 January of year 1 to 31 December of year 9999. A day is
counted from the first one, which is day 0 and a Monday; `Date.ofDay` finds the year and the month
of a day as the largest whose days before it do not exceed the count.
-/

namespace TriggerScript.Calendar

def isLeapYear (year : Int) : Bool := (year % 4 == 0 && year % 100 != 0) || year % 400 == 0

def monthLengths : List Nat := [31, 28, 31, 30, 31, 30, 31, 31, 30, 31, 30, 31]

def daysInMonth? (month year : Int) : Option Nat :=
  let i := month - 1
  if i == 1 && isLeapYear year then some 29
  else if 0 ≤ i then monthLengths[i.toNat]?
  else if -12 ≤ i then monthLengths[(i + 12).toNat]?
  else none

def daysBeforeYear (year : Nat) : Nat :=
  let y := year - 1
  365 * y + y / 4 - y / 100 + y / 400

def monthLength (year month : Nat) : Nat :=
  if month == 2 && isLeapYear year then 29
  else if month == 0 then 0
  else monthLengths.getD (month - 1) 0

def daysBeforeMonth (year : Nat) : Nat → Nat
  | 0 => 0
  | m + 1 => daysBeforeMonth year m + monthLength year m

structure Date where
  year : Nat
  month : Nat
  day : Nat
  deriving Repr, DecidableEq

namespace Date

/-- The number of days from year 1 to the end of year 9999. -/
def lastDay : Nat := 3652059

def toDay (d : Date) : Nat := daysBeforeYear d.year + daysBeforeMonth d.year d.month + d.day - 1

/-- The largest year up to `bound` that starts no later than a day. -/
def yearUpTo (day : Nat) : Nat → Nat
  | 0 => 0
  | y + 1 => if daysBeforeYear (y + 1) ≤ day then y + 1 else yearUpTo day y

def monthUpTo (year dayOfYear : Nat) : Nat → Nat
  | 0 => 0
  | m + 1 => if daysBeforeMonth year (m + 1) ≤ dayOfYear then m + 1 else monthUpTo year dayOfYear m

def ofDay (day : Nat) : Date :=
  let year := yearUpTo day (day / 365 + 1)
  let dayOfYear := day - daysBeforeYear year
  let month := monthUpTo year dayOfYear 12
  ⟨year, month, dayOfYear - daysBeforeMonth year month + 1⟩

def Valid (d : Date) : Prop :=
  1 ≤ d.year ∧ d.year ≤ 9999 ∧ 1 ≤ d.month ∧ d.month ≤ 12 ∧ 1 ≤ d.day ∧
    d.day ≤ monthLength d.year d.month

instance (d : Date) : Decidable d.Valid := by unfold Valid; infer_instance

end Date

/-- The weekday of a day count, Sunday being 0. -/
def weekdayOfDay (day : Nat) : Nat := (day + 1) % 7

end TriggerScript.Calendar
