import TriggerScript.Schedule.DateTime
import TriggerScript.Schedule.Entry

/-!
# The next moment of a trigger specification

A trigger specification is a list of entries. The entries are walked in order with the earliest
moment after `now` found so far; an entry replaces it by an earlier one.
-/

namespace TriggerScript.Schedule

open Calendar DateTime

variable (sun : Sun) (now : Moment)

def sooner (best : Option Moment) (t : Moment) : Option Moment :=
  if now < t then
    match best with
    | none => some t
    | some b => if t < b then some t else some b
  else best

theorem sooner_of_lt {now t : Moment} (h : now < t) : sooner now none t = some t := if_pos h

theorem sooner_of_not_lt {now t : Moment} (h : ¬ now < t) (best : Option Moment) :
    sooner now best t = best :=
  if_neg h

def nextRound (start now : Moment) (interval : Offset) : Except Fault Moment :=
  let float (period : Float) : Except Fault Moment := do
    let rounds := (Duration.toSeconds (now.since start)) / period
    match Number.floor? rounds with
    | none =>
      .error (if Number.isNotANumber rounds then .notANumberToInteger else .infiniteToInteger)
    | some k => start.add (← Duration.ofSeconds (period * (1.0 + Number.ofInt k)))
  match interval with
  | .whole _ n =>
    if now.since start < (Number.twoTo 32 * second : Nat) then do
      let k := (now.since start).fdiv (n * second : Nat)
      start.add (← Duration.ofWhole (n * (1 + k)) second)
    else float interval.toFloat
  | .fractional x => float x

def isPositive : Offset → Bool
  | .whole negative n => !negative && n != 0
  | .fractional x => 0 < x

def periodWindow (startText : String) (stopText : Option String) :
    Reading (Moment × Option Moment) := do
  let start ← moment sun (.whole 0) now startText
  match stopText with
  | none => pure (start, none)
  | some text => do
    let stop ← moment sun (.whole 0) now text
    if stop < start then
      if stop ≤ now then pure (start, some (← moment sun (.whole 1) now text))
      else pure (← moment sun (.whole (-1)) now startText, some stop)
    else pure (start, some stop)

def joinRound (startText : String) (stop : Option Moment) (best : Option Moment) (t : Moment) :
    Reading (Option Moment) :=
  match stop with
  | none => pure (sooner now best t)
  | some stop =>
    let best := if t ≤ stop then sooner now best t else best
    if best.isNone ∨ stop ≤ now then do
      pure (sooner now best (← moment sun (.whole 1) now startText))
    else pure best

def joinRounds (startText : String) (start : Moment) (stop best : Option Moment) :
    Option Offset → Reading (Option Moment)
  | none => pure best
  | some interval =>
    if start ≤ now ∧ isPositive interval then do
      joinRound sun now startText stop best (← Reading.lift (nextRound start now interval))
    else pure best

def nextOfPeriod (startText intervalText : String) (stopText : Option String) (best : Option Moment)
    : Reading (Option Moment) := do
  let (start, stop) ← periodWindow sun now startText stopText
  let interval ← Reading.lift (Offset.read? intervalText.toList)
  joinRounds sun now startText start stop (sooner now best start) interval

def nextOfEntry (best : Option Moment) (text : String) :
    Reading (Option Moment) := do
  match Entry.ofText text with
  | .cron c =>
    match ← c.next now with
    | some t => pure (sooner now best t)
    | none => pure best
  | .once text => do
    let t ← moment sun (.whole 0) now text
    let t ← if t ≤ now then moment sun (.whole 1) now text else pure t
    pure (sooner now best t)
  | .period start interval stop => nextOfPeriod sun now start interval stop best
  | .unknown => do
    warn ("Can't parse " ++ text ++ " in time_trigger check")
    pure best

def nextFrom (sun : Sun) (now : Moment) : List Spec → Option Moment → Reading (Option Moment)
  | [], best => pure best
  | .other type :: _, _ => throw (.textExpected type)
  | .text s :: rest, best => do nextFrom sun now rest (← nextOfEntry sun now best s)

def next (specs : List Spec) (now : Moment) : Reading (Option Moment) := nextFrom sun now specs none

def upcoming (sun : Sun) (specs : List Spec) :
    Nat → Moment → StateM (List String) (List (Except Fault (Option Moment)))
  | 0, _ => pure []
  | n + 1, now => do
    match ← (next sun specs now).run with
    | .ok (some t) => return .ok (some t) :: (← upcoming sun specs n t)
    | outcome => return [outcome]

end TriggerScript.Schedule
