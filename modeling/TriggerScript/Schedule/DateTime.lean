import TriggerScript.Schedule.Offset
import TriggerScript.Text.Case
import TriggerScript.Text.Cut

/-!
# Date-time texts

A date-time text names a day, a time of day and an offset, each of which may be left out: `2020/1/31
8:00`, `tomorrow noon`, `sunset - 30 min`. Reading the text (`DateTime.ofText`) depends on nothing
else; `DateTime.resolve` then finds the moment it names as seen from a given one.

The parts are divided by the first plain space after a part that was recognised. A part that is not
recognised leaves its default: the day in question, midnight, no offset.
-/

namespace TriggerScript.Schedule

open Calendar Text
open Number (Numeral)

/-- The day named by a text. The numbers of a date are kept as they are written. -/
inductive DayPart where
  | date (year : Option Numeral) (month day : Numeral)
  | weekday (n : Nat)
  | today
  | tomorrow
  | unstated
  deriving Repr, DecidableEq

/-- The seconds of a time of day: a whole number below `2 ^ 53`, or any other number. -/
inductive Seconds where
  | whole (n : Nat)
  | fractional (x : Float)

/-- The time of day named by a text. The text of a sun event is kept for the warning. -/
inductive ClockPart where
  | clock (hour minute : Numeral) (seconds : Seconds)
  | sunrise (text : List Char)
  | sunset (text : List Char)
  | noon
  | midnight
  | unstated

structure DateTime where
  day : DayPart
  clock : ClockPart
  offset : Option (List Char)

structure Sun where
  sunrise : Option Moment := none
  sunset : Option Moment := none

inductive Days where
  | whole (n : Int)
  | fractional (x : Float)

namespace Days

def isZero : Days → Bool
  | whole n => n == 0
  | fractional x => x == 0

def toDuration : Days → Except Fault Duration
  | whole n => Duration.ofWhole n Calendar.day
  | fractional x => Duration.ofUnits x Calendar.day

end Days

def weekdayNamed? (word : List Char) : Option Nat :=
  match String.ofList word with
  | "sun" | "sunday" => some 0
  | "mon" | "monday" => some 1
  | "tue" | "tuesday" => some 2
  | "wed" | "wednesday" => some 3
  | "thu" | "thursday" => some 4
  | "fri" | "friday" => some 5
  | "sat" | "saturday" => some 6
  | _ => none

namespace DateTime

/-! ### Reading -/

def digits? (cs : List Char) : Option (Numeral × List Char) :=
  let ds := cs.takeWhile isDigit
  if ds.isEmpty then none else some (⟨Numeral.dropZeros ds⟩, cs.dropWhile isDigit)

def dateMark? : List Char → Option (List Char)
  | '-' :: cs => some cs
  | '/' :: cs => some cs
  | _ => none

def readDate? (cs : List Char) : Option DayPart := do
  let (a, cs) ← digits? cs
  let (b, cs) ← (dateMark? cs).bind digits?
  match (dateMark? cs).bind digits? with
  | some (c, _) => some (.date (some a) b c)
  | none => some (.date none a b)

def readDay (cs : List Char) : DayPart :=
  match readDate? cs with
  | some d => d
  | none =>
    let word := cs.takeWhile isWord
    match weekdayNamed? word with
    | some n => .weekday n
    | none =>
      if word = "today".toList then .today
      else if word = "tomorrow".toList then .tomorrow
      else .unstated

def readSeconds (number : List Char) : Seconds :=
  if number.all isDigit && digitsValue number < Number.twoTo 53 then .whole (digitsValue number)
  else .fractional ((Number.readFloat? number).getD 0)

def scanClock (cs : List Char) : Option (ClockPart × List Char) := do
  let (h, cs) ← digits? cs
  let cs ← after? [':'] cs
  let (m, cs) ← digits? cs
  match (after? [':'] cs).bind Offset.scanNumber with
  | some (s, rest) => some (.clock h m (readSeconds s), rest)
  | none => some (.clock h m (.whole 0), cs)

def readClock (cs : List Char) : ClockPart :=
  match sole? scanClock cs with
  | some c => c
  | none =>
    let starts (word : String) : Bool := (after? word.toList cs).isSome
    if starts "sunrise" then .sunrise cs
    else if starts "sunset" then .sunset cs
    else if starts "noon" then .noon
    else if starts "midnight" then .midnight
    else .unstated

def afterSpace (cs : List Char) : List Char :=
  match cutAt? ' ' cs with
  | some (_, rest) => strip rest
  | none => []

def readOffset (cs : List Char) : Option (List Char) :=
  match cs with
  | '+' :: _ => some cs
  | '-' :: _ => some cs
  | _ => none

def ofText (text : String) : DateTime :=
  let cs := lower (strip text.toList)
  let day := readDay cs
  let cs := if day = .unstated then cs else afterSpace cs
  match readClock cs with
  | .unstated => ⟨day, .unstated, readOffset cs⟩
  | clock => ⟨day, clock, readOffset (afterSpace cs)⟩

/-! ### Resolving -/

def resolveDay (part : DayPart) (dayOffset : Days) (now : Moment) : Except Fault Moment := do
  let midnight (year month day : Int) (shift : Days) : Except Fault Moment := do
    let m ← Moment.midnightOf year month day
    if shift.isZero then pure m else m.add (← shift.toDuration)
  let thisDay (shift : Days) := midnight now.year now.month now.dayOfMonth shift
  match part with
  | .date year month day => do
    let y ← (match year with
      | some y => y.read
      | none => .ok now.year)
    let m ← month.read
    let d ← day.read
    midnight y m d (.whole 0)
  | .weekday n =>
    thisDay (.whole (if now.weekday ≤ n then n - now.weekday else 7 + n - now.weekday))
  | .today => thisDay (.whole 0)
  | .tomorrow => thisDay (.whole 1)
  | .unstated => thisDay dayOffset

def sinceMidnight (hour minute : Nat) (seconds : Seconds) : Except Fault Duration :=
  let base := 60 * (minute + 60 * hour)
  match seconds with
  | .whole n => Duration.ofWhole (n + base : Nat) second
  | .fractional x =>
    let b := Number.ofInt base
    if Number.isFinite b then Duration.ofSeconds (x + b) else .error .integerTooLargeForFloat

def sunClock (event : Moment) : Except Fault Duration :=
  sinceMidnight event.hourOfDay event.minuteOfHour (.whole event.secondOfMinute)

variable (sun : Sun) (dayOffset : Days) (now : Moment)

def resolveClock : ClockPart → Reading (Option Duration)
  | .clock h m s => do
    let hour ← Reading.lift h.read
    let minute ← Reading.lift m.read
    pure (some (← Reading.lift (sinceMidnight hour minute s)))
  | .sunrise text => sunEvent sun.sunrise text
  | .sunset text => sunEvent sun.sunset text
  | .noon => pure (some (12 * hour : Nat))
  | .midnight => pure (some 0)
  | .unstated => pure (some 0)
where
  sunEvent (event : Option Moment) (text : List Char) : Reading (Option Duration) :=
    match event with
    | some m => do pure (some (← Reading.lift (sunClock m)))
    | none => do
      warn ("'" ++ String.ofList text ++ "' not defined at this latitude")
      pure none

def resolve (d : DateTime) : Reading Moment := do
  let midnight ← Reading.lift (resolveDay d.day dayOffset now)
  match ← resolveClock sun d.clock with
  | none => Reading.lift (midnight.add (-(100 * Calendar.day : Nat)))
  | some clock => do
    let m ← Reading.lift (midnight.add clock)
    match d.offset with
    | none => pure m
    | some text =>
      match ← Reading.lift (Offset.read? text) with
      | none => pure m
      | some offset => Reading.lift (do m.add (← offset.toDuration))

def moment (text : String) : Reading Moment := resolve sun dayOffset now (ofText text)

def momentOf : Spec → Reading Moment
  | .text s => moment sun dayOffset now s
  | .other type => throw (.noAttribute type "strip")

end DateTime

end TriggerScript.Schedule
