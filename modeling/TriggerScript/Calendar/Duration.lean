import TriggerScript.Calendar.Moment
import TriggerScript.Fault

/-!
# Durations and fields of a moment

A duration is a signed count of microseconds. A number of seconds or days that is a fraction is
rounded to the nearest microsecond, ties to even. A duration has at most 999999999 days either way,
and every sum has to stay inside the calendar.
-/

namespace TriggerScript.Calendar

/-- A duration in microseconds. -/
abbrev Duration := Int

namespace Duration

/-- Refuses a duration with too many days to be counted. -/
def checked (micros : Int) : Except Fault Duration :=
  let days := micros.fdiv day
  if days < -2147483648 ∨ 2147483647 < days then .error .durationOutOfRange
  else if days < -999999999 ∨ 999999999 < days then .error (.durationMagnitude days)
  else .ok micros

/-- So many whole units of the given length in microseconds. -/
def ofWhole (count : Int) (unit : Nat) : Except Fault Duration := checked (count * unit)

def ofUnits (count : Float) (unit : Nat) : Except Fault Duration :=
  match Number.fraction? count, Number.truncate? count with
  | some _, some whole =>
    let fractional := count - Number.ofInt whole
    match Number.fraction? (Number.ofInt unit * fractional) with
    | some (num, den) => checked (Number.roundDivInt (whole * unit * den + num) den)
    | none => .error .infiniteToInteger
  | _, _ =>
    if Number.isNotANumber count then .error .notANumberToInteger else .error .infiniteToInteger

def ofSeconds (seconds : Float) : Except Fault Duration := ofUnits seconds second

def toSeconds (d : Duration) : Float := Number.ofRatio (d < 0) d.natAbs second

end Duration

namespace Moment

def add (m : Moment) (d : Duration) : Except Fault Moment :=
  match m.add? d with
  | some m' => .ok m'
  | none => .error .dateOutOfRange

def checkField (n : Int) : Except Fault Unit :=
  if n < -9223372036854775808 ∨ 9223372036854775807 < n then .error .fieldTooLargeForWord
  else if 2147483647 < n then .error .fieldTooLarge
  else if n < -2147483648 then .error (.stated .overflow "signed integer is less than minimum")
  else .ok ()

def dayOf (year month dayOfMonth : Int) : Except Fault Nat := do
  checkField year
  checkField month
  checkField dayOfMonth
  if year < 1 ∨ 9999 < year then throw (.yearOutOfRange year)
  if month < 1 ∨ 12 < month then throw .monthOutOfRange
  if dayOfMonth < 1 ∨ (monthLength year.toNat month.toNat : Int) < dayOfMonth then
    throw .dayOutOfRange
  pure (Date.toDay ⟨year.toNat, month.toNat, dayOfMonth.toNat⟩)

def ofFields (year month dayOfMonth hourOfDay minuteOfHour : Int) : Except Fault Moment := do
  let days ← dayOf year month dayOfMonth
  if hourOfDay < 0 ∨ 23 < hourOfDay then throw .hourOutOfRange
  if minuteOfHour < 0 ∨ 59 < minuteOfHour then throw .minuteOutOfRange
  match ofTicks? (days * day + hourOfDay * hour + minuteOfHour * minute) with
  | some m => pure m
  | none => throw .dateOutOfRange

def midnightOf (year month dayOfMonth : Int) : Except Fault Moment :=
  ofFields year month dayOfMonth 0 0

end Moment

end TriggerScript.Calendar
