import TriggerScript.Value.Compare

/-!
# The text of a value

A value has a quoted text, in which texts stand in quotes, and a plain text, which differs from it
only for texts and times. An object inside itself is shown by dots.
-/

namespace TriggerScript

open Number

/-! ### Times -/

/-- A duration: days, if any, then hours, minutes and seconds. -/
def durationText (d : Calendar.Duration) : String :=
  let days := d.fdiv Calendar.day
  let rest := (d - days * Calendar.day).toNat
  let micros := rest % Calendar.second
  let clock := natText (rest / Calendar.hour) ++ ":"
    ++ padded 2 (rest / Calendar.minute % 60) ++ ":"
    ++ padded 2 (rest / Calendar.second % 60)
    ++ if micros == 0 then "" else "." ++ padded 6 micros
  if days == 0 then clock
  else intText days ++ (if days.natAbs == 1 then " day, " else " days, ") ++ clock

def durationShown (d : Calendar.Duration) : String :=
  let days := d.fdiv Calendar.day
  let rest := (d - days * Calendar.day).toNat
  let part (word : String) (n : Int) : List String :=
    if n == 0 then [] else [word ++ "=" ++ intText n]
  let parts := part "days" days ++ part "seconds" (rest / Calendar.second)
    ++ part "microseconds" (rest % Calendar.second)
  "datetime.timedelta(" ++ (if parts.isEmpty then "0" else String.intercalate ", " parts) ++ ")"

def momentShown (m : Calendar.Moment) : String :=
  let fields := [m.year, m.month, m.dayOfMonth, m.hourOfDay, m.minuteOfHour]
    ++ if m.microsecond != 0 then [m.secondOfMinute, m.microsecond]
      else if m.secondOfMinute != 0 then [m.secondOfMinute] else []
  "datetime.datetime(" ++ String.intercalate ", " (fields.map natText) ++ ")"

def dateShown (m : Calendar.Moment) : String :=
  "datetime.date("
    ++ String.intercalate ", " ([m.year, m.month, m.dayOfMonth].map natText) ++ ")"

/-! ### Sets -/

def setOrder (items : List Value) : List Value :=
  let keyed := items.map fun v ↦ (v.int?, v)
  let numbers := (keyed.filter (·.1.isSome)).mergeSort fun a b ↦ a.1.getD 0 ≤ b.1.getD 0
  numbers.map (·.2) ++ (keyed.filter (·.1.isNone)).map (·.2)

/-! ### Functions and types -/

def typeShown (name : String) : String :=
  let full :=
    if name == "EvalFunc" || name == "EvalName" then
      "homeassistant.components.pyscript.eval." ++ name
    else name
  "<class '" ++ full ++ "'>"

def HostFunction.shown : HostFunction → String
  | .log level logger =>
    "<bound method Logger." ++ level.word ++ " of <Logger homeassistant.components.pyscript."
      ++ logger ++ " (DEBUG)>>"
  | .waitUntil _ =>
    "<function TrigTime.__init__.<locals>.wait_until_factory.<locals>.wait_until_call>"
  | .service _ _ => "<function Handler.get.<locals>.service_call>"
  | .getState =>
    "<bound method State.get of <homeassistant.components.pyscript.state.State object>>"
  | .setState =>
    "<bound method State.set of <homeassistant.components.pyscript.state.State object>>"
  | f =>
    "<bound method Handler." ++ f.name
      ++ " of <homeassistant.components.pyscript.handler.Handler object>>"

/-! ### All values -/

def joinShown (sep : String) (parts : List (Except Fault String)) : Except Fault String := do
  return String.intercalate sep (← parts.mapM id)

def Value.shownTo (s : Store) : Nat → List Ref → Value → Except Fault String
  | 0, _, _ => .error .outOfFuel
  | n + 1, inside, v =>
    let show_ := Value.shownTo s n inside
    let commas (vs : List Value) := joinShown ", " (vs.map show_)
    let commasIn (r : Ref) (vs : List Value) :=
      joinShown ", " (vs.map (Value.shownTo s n (r :: inside)))
    match v with
    | .none => .ok "None"
    | .bool b => .ok (if b then "True" else "False")
    | .int i => boundedIntText i
    | .float x _ => .ok (floatText x)
    | .complex re im _ => .ok (Num.complexText re im)
    | .text t => .ok (Text.quoted t)
    | .bytes bs => .ok (Text.quotedBytes bs)
    | .ellipsis => .ok "Ellipsis"
    | .tuple [x] => do return "(" ++ (← show_ x) ++ ",)"
    | .tuple xs => do return "(" ++ (← commas xs) ++ ")"
    | .frozenSet [] => .ok "frozenset()"
    | .frozenSet xs => do return "frozenset(\x7b" ++ (← commas (setOrder xs)) ++ "\x7d)"
    | .range a b c =>
      .ok ("range(" ++ intText a ++ ", " ++ intText b
        ++ (if c == 1 then "" else ", " ++ intText c) ++ ")")
    | .slice a b c => do return "slice(" ++ (← commas [a, b, c]) ++ ")"
    | .list r =>
      if inside.contains r then .ok "[...]"
      else do return "[" ++ (← commasIn r (s.listAt r)) ++ "]"
    | .dict r =>
      if inside.contains r then .ok "\x7b...\x7d"
      else do
        let entry (e : Value × Value) : Except Fault String := do
          let k ← Value.shownTo s n (r :: inside) e.1
          let v ← Value.shownTo s n (r :: inside) e.2
          pure (k ++ ": " ++ v)
        return "\x7b" ++ (← joinShown ", " ((s.dictAt r).map entry)) ++ "\x7d"
    | .set r =>
      if inside.contains r then .ok "set(...)"
      else
        match s.setAt r with
        | [] => .ok "set()"
        | xs => do return "\x7b" ++ (← commasIn r (setOrder xs)) ++ "\x7d"
    | .byteArray r => .ok ("bytearray(" ++ Text.quotedBytes (s.bytesAt r) ++ ")")
    | .view w r =>
      if inside.contains r then .ok "..."
      else do
        let name := (Value.view w r).typeName s
        let vs := (s.dictAt r).map fun e ↦
          match w with
          | .keys => e.1
          | .values => e.2
          | .items => .tuple [e.1, e.2]
        return name ++ "([" ++ (← commasIn r vs) ++ "])"
    | .iterator r => .ok ("<" ++ (s.cursorAt r).typeName ++ " object>")
    | .function _ => .ok "<homeassistant.components.pyscript.eval.EvalFunc object>"
    | .builtin f =>
      match f with
      | .bytesFromHex => .ok "<built-in method fromhex of type object>"
      | .byteArrayFromHex => .ok "<built-in method fromhex of type object>"
      | .now => .ok "<built-in method now of type object>"
      | .uniform => .ok "<bound method Random.uniform of <random.Random object>>"
      | f => .ok ("<built-in function " ++ f.name ++ ">")
    | .type name => .ok (typeShown name)
    | .method (.function _) m =>
      .ok ("<bound method EvalFunc." ++ m.name
        ++ " of <homeassistant.components.pyscript.eval.EvalFunc object>>")
    | .method (.type t) m => .ok ("<method '" ++ m.name ++ "' of '" ++ t ++ "' objects>")
    | .method o m => .ok ("<built-in method " ++ m.name ++ " of " ++ o.typeName s ++ " object>")
    | .module name => .ok ("<module '" ++ name ++ "' (built-in)>")
    | .moment m => .ok (momentShown m)
    | .date m => .ok (dateShown m)
    | .duration d => .ok (durationShown d)
    | .host f => .ok f.shown
    | .registered _ => .ok "<function <lambda>>"
    | .unresolved _ => .ok "<homeassistant.components.pyscript.eval.EvalName object>"
    | .entityState _ _ => .ok "<State object>"

def Value.shown (s : Store) (v : Value) : Except Fault String := Value.shownTo s depthLimit [] v

def Value.plain (s : Store) (v : Value) : Except Fault String :=
  match v with
  | .text t => .ok t
  | .moment m => .ok (m.text " ")
  | .date m => .ok m.dateText
  | .duration d => .ok (durationText d)
  | v => v.shown s

def missingKey (s : Store) (key : Value) : Fault :=
  match key.shown s with
  | .ok t => .missingKey t
  | .error .outOfFuel => .unshownKey .tooDeep
  | .error _ => .unshownKey .tooManyDigits

end TriggerScript
