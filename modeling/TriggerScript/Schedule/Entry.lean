import TriggerScript.Schedule.Cron

/-!
# Entries of time specifications

The forms `cron(..)`, `once(..)`, `period(..)` and `range(..)`. A form counts when it stands in
exactly one place of the text; anything may stand around it.
-/

namespace TriggerScript.Schedule

open Text

def scanSolid (cs : List Char) : Option (List Char × List Char) :=
  let word := cs.takeWhile (! isBlank ·)
  if word.isEmpty then none else some (word, cs.dropWhile (! isBlank ·))

def scanBlanks (cs : List Char) : Option (List Char) :=
  match cs with
  | c :: _ => if isBlank c then some (dropBlanks cs) else none
  | [] => none

def scanCron (cs : List Char) : Option (Cron × List Char) := do
  let cs ← after? "cron(".toList cs
  let (minute, cs) ← scanSolid cs
  let (hour, cs) ← (scanBlanks cs).bind scanSolid
  let (day, cs) ← (scanBlanks cs).bind scanSolid
  let (month, cs) ← (scanBlanks cs).bind scanSolid
  let (last, cs) ← (scanBlanks cs).bind scanSolid
  let (weekday, after) ← cutAtLast? ')' last
  if weekday.isEmpty then none
  else some (⟨minute, hour, day, month, weekday⟩, after ++ cs)

def cutLine (cs : List Char) : List Char × List Char :=
  (cs.takeWhile (· ≠ '\n'), cs.dropWhile (· ≠ '\n'))

def scanToLineClose (cs : List Char) : Option (List Char × List Char) :=
  let (line, rest) := cutLine cs
  (cutAtLast? ')' line).map fun (inner, after) ↦ (inner, after ++ rest)

def scanOnce (cs : List Char) : Option (List Char × List Char) :=
  (after? "once(".toList cs).bind scanToLineClose

def scanRange (cs : List Char) : Option ((List Char × List Char) × List Char) := do
  let cs ← after? "range(".toList cs
  let (start, cs) ← cutAt? ',' cs
  let (stop, rest) ← scanToLineClose cs
  some ((start, stop), rest)

def cutComma (cs : List Char) : List Char × List Char :=
  (cs.takeWhile (· ≠ ','), cs.dropWhile (· ≠ ','))

structure Period where
  start : List Char
  interval : List Char
  stop : Option (List Char)

def scanPeriod (cs : List Char) : Option (Period × List Char) := do
  let cs ← after? "period(".toList cs
  let (start, cs) ← cutAt? ',' cs
  let (second, rest) := cutComma cs
  let three : Option (Period × List Char) :=
    match rest with
    | ',' :: more =>
      let (third, rest) := cutComma more
      (cutAtLast? ')' third).map fun (stop, after) ↦ (⟨start, second, some stop⟩, after ++ rest)
    | _ => none
  match three with
  | some p => some p
  | none => (cutAtLast? ')' second).map fun (interval, after) ↦
      (⟨start, interval, none⟩, after ++ rest)

inductive Entry where
  | cron (c : Cron)
  | once (text : String)
  | period (start interval : String) (stop : Option String)
  | unknown

def trimmed (cs : List Char) : String := String.ofList (strip cs)

def Entry.ofText (text : String) : Entry :=
  let cs := text.toList
  match sole? scanCron cs with
  | some c => .cron c
  | none =>
    match sole? scanOnce cs with
    | some t => .once (trimmed t)
    | none =>
      match sole? scanPeriod cs with
      | some p => .period (trimmed p.start) (trimmed p.interval) (p.stop.map trimmed)
      | none => .unknown

inductive Window where
  | cron (c : Cron)
  | range (start stop : String)
  | unknown

def Window.ofText (cs : List Char) : Window :=
  match sole? scanCron cs with
  | some c => .cron c
  | none =>
    match sole? scanRange cs with
    | some (start, stop) => .range (trimmed start) (trimmed stop)
    | none => .unknown

end TriggerScript.Schedule
