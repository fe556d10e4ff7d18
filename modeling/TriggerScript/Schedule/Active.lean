import TriggerScript.Schedule.DateTime
import TriggerScript.Schedule.Entry

/-!
# Active windows

An active specification is a list of windows, some of them negated by a leading `not`. A moment is
active when it lies in some window that is not negated, or there is none of these, and in no negated
window.
-/

namespace TriggerScript.Schedule

open Calendar Text

def Window.contains (sun : Sun) (now : Moment) : Window → Reading Bool
  | .cron c => c.active now
  | .range startText stopText => do
    let start ← DateTime.moment sun (.whole 0) now startText
    let stop ← DateTime.moment sun (.whole 0) start stopText
    if start < stop then pure (start ≤ now && now ≤ stop) else pure (start ≤ now || now ≤ stop)
  | .unknown => pure false

def readWindow (text : String) : Bool × Window :=
  let cs := strip text.toList
  match after? "not".toList cs with
  | some rest => (true, Window.ofText (strip rest))
  | none => (false, Window.ofText cs)

structure Tally where
  positive : Bool := false
  inside : Bool := false
  excluded : Bool := false

def Tally.addAll (sun : Sun) (now : Moment) : Tally → List Spec → Reading Tally
  | t, [] => pure t
  | _, .other type :: _ => throw (.noAttribute type "strip")
  | t, .text s :: rest => do
    let (negated, window) := readWindow s
    let hit ← window.contains sun now
    let t := if negated then { t with excluded := t.excluded || hit }
      else { t with positive := true, inside := t.inside || hit }
    Tally.addAll sun now t rest

def active (sun : Sun) (specs : List Spec) (now : Moment) : Reading Bool := do
  let t ← Tally.addAll sun now {} specs
  pure ((!t.positive || t.inside) && !t.excluded)

end TriggerScript.Schedule
