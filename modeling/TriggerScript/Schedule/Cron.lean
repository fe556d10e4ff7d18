import TriggerScript.Calendar.Duration
import TriggerScript.Number.Numeral
import TriggerScript.Schedule.Reading
import TriggerScript.Text.Cut

/-!
# Cron entries

A cron entry has five fields: minute, hour, day of the month, month and weekday (Sunday is 0). A
field is a star or a comma list of numbers and ranges. `Field.atLeast` picks the next number of a
field from a given one on, going back to the least number when there is none; `Cron.next` composes
these picks into the next moment of the entry.

A field is read anew at every pick, and a malformed element is warned of each time it is met; the
pick then is the number that was asked for. An element with a number that is too long ends the
reading, but only when the pick comes to it.
-/

namespace TriggerScript.Schedule

open Calendar Text

/-- An element of a field: a number, or a range with both ends. -/
inductive Element where
  | one (n : Nat)
  | span (first last : Nat)
  deriving Repr, DecidableEq

def atElementEnd (cs : List Char) : Bool := cs == [] || cs == ['\n']

def Element.digits? (cs : List Char) : Option (Number.Numeral × Option Number.Numeral) :=
  let ds := cs.takeWhile isDigit
  if ds.isEmpty then none
  else
    match cs.dropWhile isDigit with
    | '-' :: rest =>
      let es := rest.takeWhile isDigit
      if es.isEmpty then none
      else if atElementEnd (rest.dropWhile isDigit) then some (⟨ds⟩, some ⟨es⟩)
      else none
    | rest => if atElementEnd rest then some (⟨ds⟩, none) else none

def Element.read (cs : List Char) : Except Fault (Option Element) :=
  match Element.digits? cs with
  | none => .ok none
  | some (n, none) => do return some (.one (← n.read))
  | some (first, some last) => do return some (.span (← first.read) (← last.read))

inductive Pick where
  | number (n : Int)
  | malformed (element : List Char)
  deriving Repr, DecidableEq

/-- Numbers from this one on are never picked from a field. -/
def beyond : Int := 1000

def Element.pick (from_ : Int) : List (List Char) → (next least : Int) → Except Fault Pick
  | [], next, least => .ok (.number (if next < beyond then next else least))
  | e :: es, next, least =>
    match Element.read e with
    | .error f => .error f
    | .ok none => .ok (.malformed e)
    | .ok (some (.span first last)) =>
      let least : Int := if (first : Int) < least then (first : Int) else least
      if (first : Int) ≤ from_ ∧ from_ ≤ last then .ok (.number from_)
      else
        Element.pick from_ es (if from_ ≤ first ∧ (first : Int) < next then (first : Int) else next)
          least
    | .ok (some (.one n)) =>
      if from_ = n then .ok (.number from_)
      else
        Element.pick from_ es (if from_ ≤ n ∧ (n : Int) < next then (n : Int) else next)
          (if (n : Int) < least then (n : Int) else least)

abbrev Field := List Char

namespace Field

def star : Field := ['*']

def pick (field : Field) (from_ : Int) : Except Fault Pick :=
  if field = star then .ok (.number from_)
  else Element.pick from_ (splitAtChar ',' field) beyond beyond

def atLeast (field : Field) (from_ : Int) : Reading Int := do
  match ← Reading.lift (field.pick from_) with
  | .number n => pure n
  | .malformed e => do
    warn ("can't parse field " ++ String.ofList e ++ " in cron entry " ++ String.ofList field)
    pure from_

def nth (specs : List Spec) (word : String) (place : Int) : Reading Field :=
  let i := if place < 0 then place + specs.length else place
  if !Number.fitsWord place then throw .indexTooWide
  else if i < 0 then throw (.indexOutOfRange word)
  else
    match specs[i.toNat]? with
    | some (.text s) => pure s.toList
    | some (.other type) => throw (.noAttribute type "split")
    | none => throw (.indexOutOfRange word)

end Field

structure Cron where
  minute : Field
  hour : Field
  day : Field
  month : Field
  weekday : Field
  deriving Repr, DecidableEq

namespace Cron

def daysInMonth (month year : Int) : Reading Int :=
  match daysInMonth? month year with
  | some n => pure n
  | none => throw (if Number.fitsWord (month - 1) then .indexOutOfRange "list" else .indexTooWide)

def seekMonth (c : Cron) (mday : Int) : Nat → (month year : Int) → Reading (Option (Int × Int))
  | 0, _, _ => pure none
  | n + 1, month, year => do
    let next ← c.month.atLeast (month % 12 + 1)
    let year := if next ≤ month then year + 1 else year
    if mday ≤ (← daysInMonth next year) then pure (some (next, year))
    else c.seekMonth mday n next year

def weekdayAhead (today wanted : Int) : Int :=
  if wanted < today then 7 - today + wanted else wanted - today

def candidates {α : Type} (c : Cron) (byDay byWeekday : α) : α × α :=
  let onlyWeekday := c.day = Field.star ∧ c.weekday ≠ Field.star
  let onlyDay := c.day ≠ Field.star ∧ c.weekday = Field.star
  (if onlyWeekday then byWeekday else byDay, if onlyDay then byDay else byWeekday)

def carries (month year tomorrow day : Int) : Reading Bool :=
  if day < tomorrow then pure true
  else do pure (decide ((← daysInMonth month year) < day))

variable (c : Cron) (now : Moment)

def laterMonth (month year : Int) : Reading (Option (Int × Int × Int)) := do
  let firstDay ← c.day.atLeast 1
  match ← c.seekMonth firstDay 96 month year with
  | none => pure none
  | some (month, year) => do
    let first ← Reading.lift (Moment.dayOf year month 1)
    let firstWeekday : Int := weekdayOfDay first
    let wday ← c.weekday.atLeast firstWeekday
    let (day1, day2) := c.candidates firstDay (1 + weekdayAhead firstWeekday wday)
    pure (some (year, month, if day1 < day2 then day1 else day2))

def earlier (first second : Int × Bool) : Int :=
  if !first.2 && !second.2 then (if first.1 < second.1 then first.1 else second.1)
  else if !first.2 then first.1
  else second.1

def laterDate (month : Int) : Reading (Option (Int × Int × Int)) := do
  let thisMonth : Int := now.month
  let thisYear : Int := now.year
  let tomorrow : Int := now.dayOfMonth + 1
  let size ← daysInMonth thisMonth thisYear
  let byDay ← c.day.atLeast ((tomorrow - 1) % size + 1)
  let dayCarries ← carries month thisYear tomorrow byDay
  let nextWeekday : Int := now.weekday + 1
  let wday ← c.weekday.atLeast (nextWeekday % 7)
  let byWeekday := (tomorrow + weekdayAhead nextWeekday wday - 1) % size + 1
  let weekdayCarries ← carries month thisYear tomorrow byWeekday
  let (first, second) := c.candidates (byDay, dayCarries) (byWeekday, weekdayCarries)
  if (first.2 && second.2) || thisMonth != month then c.laterMonth thisMonth thisYear
  else pure (some (thisYear, thisMonth, earlier first second))

def coversToday (month mday wday : Int) : Bool :=
  let dayNow : Int := now.dayOfMonth
  let monthNow : Int := now.month
  let weekdayNow : Int := now.weekday
  !((c.day = Field.star && weekdayNow != wday) || (c.weekday = Field.star && dayNow != mday)
    || (dayNow != mday && weekdayNow != wday) || monthNow != month)

def laterTime : Reading (Int × Int × Bool) := do
  let minuteNow : Int := now.minuteOfHour
  let hourNow : Int := now.hourOfDay
  let hourPick ← c.hour.atLeast hourNow
  let minuteFrom : Int := if hourNow + 1 ≤ hourPick then 0 else minuteNow + 1
  let minute ← c.minute.atLeast (minuteFrom % 60)
  let hourFrom : Int := if minute < minuteFrom then hourNow + 1 else hourNow
  let hour ← c.hour.atLeast (hourFrom % 24)
  pure (hour, minute, hour < hourFrom)

def laterDay (month : Int) : Reading (Option Moment) := do
  let minute ← c.minute.atLeast 0
  let hour ← c.hour.atLeast 0
  match ← c.laterDate now month with
  | none => pure none
  | some (y, m, d) => do
    let t ← Reading.lift (Moment.ofFields y m d hour minute)
    pure (some t)

def next : Reading (Option Moment) := do
  let _ ← c.minute.atLeast now.minuteOfHour
  let month ← c.month.atLeast now.month
  let mday ← c.day.atLeast now.dayOfMonth
  let wday ← c.weekday.atLeast now.weekday
  let (hour, minute, carries) ← c.laterTime now
  if carries || !c.coversToday now month mday wday then c.laterDay now month
  else
    let seconds : Int :=
      3600 * (hour - now.hourOfDay) + 60 * (minute - now.minuteOfHour) - now.secondOfMinute
    let t ← Reading.lift (now.add (seconds * Calendar.second - now.microsecond))
    pure (some t)

def active : Reading Bool :=
  go [(c.minute, (now.minuteOfHour : Int)), (c.hour, now.hourOfDay), (c.day, now.dayOfMonth),
    (c.month, now.month), (c.weekday, now.weekday)]
where
  go : List (Field × Int) → Reading Bool
    | [] => pure true
    | (field, n) :: rest => do
      if (← field.atLeast n) = n then go rest else pure false

end Cron

end TriggerScript.Schedule
