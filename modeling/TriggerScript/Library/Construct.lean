import TriggerScript.Library.Function

/-!
# Types as functions

Calling a type makes a value of it.
-/

namespace TriggerScript

open Op Number Calendar

/-! ### Numbers -/

def integerOfText (base : Nat) (t : List Char) (shown : String) : Except Fault Int :=
  if base == 10 then
    match readInt? t with
    | some (n, digits) => do
      checkDigits digits
      return n
    | none => .error (.integerText 10 shown)
  else do
    match ← readIntBase? base t with
    | some n => return n
    | none => throw (.integerText base shown)

def lettersOf? (s : Store) : Value → Option (List Char)
  | .text t => some t.toList
  | .bytes bs => some (bs.map fun b ↦ Char.ofNat b.toNat)
  | .byteArray r => some ((s.bytesAt r).map fun b ↦ Char.ofNat b.toNat)
  | _ => none

variable (call : Caller) (a : Arguments)

def makeInt : Op Value := do
  let s ← store
  match a.named.find? fun e ↦ e.1 != "base" with
  | some (k, _) =>
    throw (.stated .type ("'" ++ k ++ "' is an invalid keyword argument for int()"))
  | none => pure ()
  let given := a.args ++ a.named.map (·.2)
  if given.length > 2 then
    throw (.stated .type ("int() takes at most 2 arguments (" ++ natText given.length
      ++ " given)"))
  match a.args, given.drop a.args.length ++ a.args.drop 1 with
  | [], [] => return .int 0
  | [], _ => throw (.stated .type "int() missing string argument")
  | v :: _, [] =>
    match v, lettersOf? s v with
    | v, some cs =>
      let shown ← look v.shown
      return .int (← look fun _ ↦ integerOfText 10 cs shown)
    | v, none =>
      match v.num? with
      | some (.int n) => return .int n
      | some (.float x) => return .int (← look fun _ ↦ Num.truncate x)
      | _ =>
        throw (.stated .type ("int() argument must be a string, a bytes-like object or a real "
          ++ "number, not '" ++ v.typeName s ++ "'"))
  | v :: _, b :: _ => do
    let base ← integerOf b
    match lettersOf? s v with
    | none => throw (.stated .type "int() can't convert non-string with explicit base")
    | some cs =>
      if base != 0 && (base < 2 || 36 < base) then
        throw (.stated .value "int() base must be >= 2 and <= 36, or 0")
      let shown ← look v.shown
      return .int (← look fun _ ↦ integerOfText base.toNat cs shown)

def makeFloat : Op Value := do
  let s ← store
  match ← a.between "float" 0 1 with
  | v :: _ =>
    match v, lettersOf? s v with
    | v, some cs =>
      match readFloat? cs with
      | some x => number (.float x)
      | none =>
        let shown ← look v.shown
        throw (.stated .value ("could not convert string to float: " ++ shown))
    | v, none =>
      match v.num? with
      | some (.complex ..) | none =>
        throw (.stated .type ("float() argument must be a string or a real number, not '"
          ++ v.typeName s ++ "'"))
      | some (.float _) => return v
      | some x => number (.float (← look fun _ ↦ x.toFloat))
  | [] => return .float 0 0

def readComplex? (text : List Char) : Option (Float × Float) :=
  let cs := Text.strip text
  let cs := match cs with
    | '(' :: rest =>
      match rest.reverse with
      | ')' :: body => Text.strip body.reverse
      | _ => cs
    | _ => cs
  let unit (cs : List Char) : Option Float := match cs with
    | ['j'] | ['J'] | ['+', 'j'] | ['+', 'J'] => some 1
    | ['-', 'j'] | ['-', 'J'] => some (-1)
    | _ => none
  match unit cs with
  | some y => some (0, y)
  | none =>
    match leadingFloat? cs with
    | some (x, []) => some (x, 0)
    | some (x, ['j']) | some (x, ['J']) => some (0, x)
    | some (x, c :: rest) =>
      if c == '+' || c == '-' then
        match unit (c :: rest) with
        | some y => some (x, y)
        | none =>
          match leadingFloat? (c :: rest) with
          | some (y, ['j']) | some (y, ['J']) => some (x, y)
          | _ => none
      else none
    | none => none

def makeComplex : Op Value := do
  let s ← store
  match ← a.bind "complex" ["real", "imag"] 0 with
  | [some (.text t), im] =>
    if im.isSome then
      throw (.stated .type "complex() can't take second arg if first is a string")
    match readComplex? t.toList with
    | some (x, y) => number (.complex x y)
    | none => throw (.stated .value "complex() arg is a malformed string")
  | [_, some (.text _)] => throw (.stated .type "complex() second arg can't be a string")
  | [re, im] => do
    let re := re.getD (.int 0)
    match re.num?, im with
    | none, _ =>
      throw (.stated .type ("complex() first argument must be a string or a number, not '"
        ++ re.typeName s ++ "'"))
    | some (.complex ..), none => return re
    | some x, none =>
      let (x, y) ← look fun _ ↦ x.toComplex
      number (.complex x y)
    | some x, some im =>
      match im.num? with
      | none =>
        throw (.stated .type ("complex() second argument must be a number, not '"
          ++ im.typeName s ++ "'"))
      | some y =>
        let (a, b) ← look fun _ ↦ x.toComplex
        let (c, d) ← look fun _ ↦ y.toComplex
        -- nothing is added to the imaginary part if the first number is real
        match x with
        | .complex .. => number (.complex (a - d) (b + c))
        | _ => number (.complex (a - d) c)
  | _ => return .none

/-! ### Sequences -/

def makeBytes (type : String) (a : Arguments) : Op (List UInt8) := do
  let s ← store
  match ← a.bind type ["source", "encoding", "errors"] 0 with
  | none :: _ => pure []
  | some (.text t) :: encoding :: _ =>
    if encoding.isNone then throw (.stated .type "string argument without an encoding")
    pure t.toUTF8.toList
  | some (.bytes bs) :: _ => pure bs
  | some (.byteArray r) :: _ => pure (s.bytesAt r)
  | some v :: _ =>
    match v.int? with
    | some n => do
      let n ← look fun _ ↦ wordOf .countTooWide n
      if n < 0 then throw (.stated .value "negative count")
      look fun _ ↦ checkCapacity n.toNat
      pure (List.replicate n.toNat 0)
    | none =>
      match v, v.cursor? s with
      | .iterator _, _ | _, some _ => do
        let step (bs : List UInt8) (v : Value) : Op (Bool × List UInt8) := do
          let n ← integerOf v
          if n < 0 ∨ 255 < n then
            throw (.stated .value ((if type == "bytes" then "bytes" else "byte")
              ++ " must be in range(0, 256)"))
          return (true, UInt8.ofNat n.toNat :: bs)
        return (← walk call step [] v).reverse
      | v, none => throw (.stated .type ("cannot convert '" ++ v.typeName s ++ "' object to bytes"))
  | [] => pure []

def optionalElements (type : String) (a : Arguments) : Op (List Value) := do
  match ← a.between type 0 1 with
  | v :: _ => elements call v
  | [] => pure []

def setElements (type : String) (a : Arguments) : Op (List Value) := do
  let step (vs : List Value) (v : Value) : Op (Bool × List Value) := do
    look fun _ ↦ v.checkKey
    return (true, v :: vs)
  match ← a.between type 0 1 with
  | v :: _ =>
    let vs ← walk call step [] v
    return setOf (← store) vs.reverse
  | [] => return []

def makeRange : Op Value := do
  match ← a.between "range" 1 3 with
  | [stop] => return .range 0 (← integerOf stop) 1
  | [start, stop] => return .range (← integerOf start) (← integerOf stop) 1
  | [start, stop, step] =>
    let start ← integerOf start
    let stop ← integerOf stop
    let step ← integerOf step
    if step == 0 then throw (.stated .value "range() arg 3 must not be zero")
    return .range start stop step
  | _ => return .none

def makeReversed : Op Value := do
  let s ← store
  match ← a.between "reversed" 1 1 with
  | v :: _ =>
    match v with
    | .list r => newCursor (.reverse r (s.listAt r).length)
    | .tuple xs => newCursor (.over "reversed" xs.reverse)
    | .text t => newCursor (.over "reversed" (chars t).reverse)
    | .bytes bs => newCursor (.over "reversed" (byteValues bs).reverse)
    | .byteArray r => newCursor (.over "reversed" (byteValues (s.bytesAt r)).reverse)
    | .range start stop step =>
      let len : Int := rangeLength start stop step
      newCursor (.range (start + step * (len - 1)) (start - step) (-step))
    | .dict r => newCursor (.over "dict_reversekeyiterator" ((s.dictAt r).map (·.1)).reverse)
    | .view w r =>
      let type := match w with
        | .keys => "dict_reversekeyiterator"
        | .values => "dict_reversevalueiterator"
        | .items => "dict_reverseitemiterator"
      newCursor (.over type ((s.dictAt r).map w.pick).reverse)
    | v => throw (.stated .type ("'" ++ v.typeName s ++ "' object is not reversible"))
  | [] => return .none

/-! ### Times -/

def dateFields (type : String) (params : List String) (a : Arguments) : Op (List Int) := do
  let given ← a.bind type params 0
  let missing := (params.zip given).take 3 |>.zip [1, 2, 3] |>.find? fun e ↦ e.1.2.isNone
  match missing with
  | some ((p, _), i) =>
    throw (.stated .type ("function missing required argument '" ++ p ++ "' (pos "
      ++ natText i ++ ")"))
  | none => given.mapM fun v ↦ integerOf (v.getD (.int 0))

def makeMoment : Op Value := do
  let fields ← dateFields "function"
    ["year", "month", "day", "hour", "minute", "second", "microsecond"] a
  match fields with
  | [y, m, d, h, mi, s, us] =>
    let start ← look fun _ ↦ Calendar.Moment.ofFields y m d h mi
    if s < 0 ∨ 59 < s then throw .secondOutOfRange
    if us < 0 ∨ 999999 < us then
      throw (.stated .value "microsecond must be in 0..999999")
    return .moment (← look fun _ ↦ start.add (s * second + us))
  | _ => return .none

def makeDate : Op Value := do
  match ← dateFields "function" ["year", "month", "day"] a with
  | [y, m, d] => return .date (← look fun _ ↦ Calendar.Moment.midnightOf y m d)
  | _ => return .none

def durationUnits : List (String × Nat) :=
  [("days", day), ("seconds", second), ("microseconds", 1),
    ("milliseconds", 1000), ("minutes", minute), ("hours", hour),
    ("weeks", 7 * day)]

def makeDuration : Op Value := do
  let given ← a.bind "timedelta" (durationUnits.map (·.1)) 0
  let parts ← (durationUnits.zip given).mapM fun (unit, v) ↦ do
    match v with
    | none => pure (0 : Int)
    | some v =>
      match v.num? with
      | some (.int n) => pure (n * unit.2)
      | some (.float x) => look fun _ ↦ Calendar.Duration.ofUnits x unit.2
      | _ =>
        throw (.stated .type ("unsupported type for timedelta " ++ unit.1 ++ " component: "
          ++ v.typeName (← store)))
  return .duration (← look fun _ ↦ Calendar.Duration.checked (parts.foldl (· + ·) 0))

/-! ### All types -/

def construct (type : String) (a : Arguments) : Op Value := do
  let s ← store
  match type with
  | "int" => makeInt a
  | "float" => makeFloat a
  | "complex" => makeComplex a
  | "bool" => do
    match ← a.between "bool" 0 1 with
    | v :: _ => return .bool (v.truth s)
    | [] => return .bool false
  | "str" => do
    match ← a.bind "str" ["object", "encoding", "errors"] 0 with
    | some v :: _ => return .text (← look v.plain)
    | _ => return .text ""
  | "list" => do newList (← optionalElements call "list" a)
  | "tuple" => do return .tuple (← optionalElements call "tuple" a)
  | "set" => do newSet (← setElements call "set" a)
  | "frozenset" => do return .frozenSet (← setElements call "frozenset" a)
  | "dict" => do
    let start ← match ← Arguments.checkCount "dict" 0 1 a.args with
      | v :: _ => do merge [] (← pairsOf call v)
      | [] => pure []
    newDict (← merge start (a.named.map fun (k, v) ↦ (.text k, v)))
  | "bytes" => do return .bytes (← makeBytes call "bytes" a)
  | "bytearray" => do return .byteArray (← alloc (.byteArray (← makeBytes call "bytearray" a)))
  | "range" => makeRange a
  | "slice" => do
    match ← a.between "slice" 1 3 with
    | [stop] => return .slice .none stop .none
    | [start, stop] => return .slice start stop .none
    | [start, stop, step] => return .slice start stop step
    | _ => return .none
  | "enumerate" => do
    match ← a.bind "enumerate" ["iterable", "start"] 1 with
    | [some v, start] =>
      let count ← integerOf (start.getD (.int 0))
      newCursor (.enumerate (← iterate v) count)
    | _ => return .none
  | "zip" => do
    let vs ← a.positional "zip"
    newCursor (.zip (← vs.mapM iterate))
  | "map" => do
    match ← a.positional "map" with
    | f :: v :: vs => newCursor (.map f (← (v :: vs).mapM iterate))
    | _ => throw (.stated .type "map() must have at least two arguments.")
  | "filter" => do
    match ← a.between "filter" 2 2 with
    | [f, v] => newCursor (.filter f (← iterate v))
    | _ => return .none
  | "reversed" => makeReversed a
  | "type" => do
    match a.args with
    | [v] => return .type (v.typeName s)
    | _ => throw (.stated .type "type() takes 1 or 3 arguments")
  | "datetime.datetime" => makeMoment a
  | "datetime.date" => makeDate a
  | "datetime.timedelta" => makeDuration a
  | "EvalName" => do
    match a.args, a.named with
    | [.text t], [] => return .unresolved t
    | [], [("name", .text t)] => return .unresolved t
    | [], _ =>
      throw (.stated .type "EvalName.__init__() missing 1 required positional argument: 'name'")
    | args, _ =>
      throw (.stated .type ("EvalName.__init__() takes 2 positional arguments but "
        ++ natText (args.length + 1) ++ " were given"))
  | "NoneType" => do
    if a.args.isEmpty && a.named.isEmpty then return .none
    throw (.stated .type "NoneType takes no arguments")
  | "ellipsis" => return .ellipsis
  | t => throw (.stated .type ("cannot create '" ++ t ++ "' instances"))

end TriggerScript
