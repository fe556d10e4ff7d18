import TriggerScript.Library.Arguments
import TriggerScript.Library.Sorting
import TriggerScript.Value.Operator

/-!
# Functions of the library

The functions that a script can name without importing them, and those of the modules.
-/

namespace TriggerScript

open Op Number

def Value.size? (s : Store) : Value → Option Nat
  | .text t => some t.length
  | .bytes bs => some bs.length
  | .byteArray r => some (s.bytesAt r).length
  | .list r => some (s.listAt r).length
  | .tuple xs => some xs.length
  | .dict r | .view _ r => some (s.dictAt r).length
  | .set r => some (s.setAt r).length
  | .frozenSet xs => some xs.length
  | .range a b c => some (rangeLength a b c)
  | _ => .none

def Value.isCallable : Value → Bool
  | .builtin _ | .type _ | .method _ _ | .host _ | .registered _ => true
  | _ => false

def isSubtype (sub super : String) : Bool :=
  sub == super || super == "object" || (sub == "bool" && super == "int")
    || (sub == "datetime.datetime" && super == "datetime.date")

def subtypeAmong (fault : Fault) (sub : String) : Nat → Value → Except Fault Bool
  | _, .type t => .ok (isSubtype sub t)
  | n + 1, .tuple ts => anyOf n ts
  | _, _ => .error fault
where
  anyOf (n : Nat) : List Value → Except Fault Bool
    | [] => .ok false
    | t :: ts => do if ← subtypeAmong fault sub n t then return true else anyOf n ts

def markedDigits (mark : String) (base : Nat) (n : Int) : String :=
  (if n < 0 then "-" else "") ++ mark ++ String.ofList (Nat.toDigits base n.natAbs)

def integerHash (n : Int) : Int :=
  let h : Int := n.natAbs % (twoTo 61 - 1 : Nat)
  let h := if n < 0 then -h else h
  if h == -1 then -2 else h

def powerMod (m : Nat) : Nat → Nat → Nat → Nat → Nat
  | 0, _, _, acc => acc
  | fuel + 1, base, e, acc =>
    if e == 0 then acc
    else powerMod m fuel (base * base % m) (e / 2) (if e % 2 == 1 then acc * base % m else acc)

def complexRoot (re im : Float) : Float × Float :=
  if re == 0 && im == 0 then (0, im)
  else
    let hypot (x y : Float) : Float :=
      if x == 0 then y.abs else if y == 0 then x.abs else Float.sqrt (x * x + y * y)
    let ax := re.abs / 8
    let ay := im.abs
    let s := 2 * Float.sqrt (ax + hypot ax (ay / 8))
    let d := ay / (2 * s)
    if re ≥ 0 then (s, withSignOf d im) else (d, withSignOf s im)

def realOf (v : Value) : Op Float := do
  match v.num? with
  | some (.complex ..) | none =>
    throw (.stated .type ("must be real number, not " ++ v.typeName (← store)))
  | some x => look fun _ ↦ x.toFloat

namespace Builtin

def keyed (call : Caller) (key : Option Value) (v : Value) : Op Value :=
  match key with
  | none | some .none => pure v
  | some f => call f [v]

def better (call : Caller) (key : Option Value) (op : Syntax.Comparison)
    (best : Option (Value × Value)) (v : Value) : Op (Bool × Option (Value × Value)) := do
  let k ← keyed call key v
  match best with
  | none => return (true, some (k, v))
  | some b =>
    if ← look fun s ↦ Value.order s op k b.1 then return (true, some (k, v))
    else return (true, some b)

def extremeOf (call : Caller) (name : String) (op : Syntax.Comparison) (a : Arguments) :
    Op Value := do
  if a.args.isEmpty then
    throw (.stated .type (name ++ " expected at least 1 argument, got 0"))
  match a.named.find? fun e ↦ e.1 != "key" && e.1 != "default" with
  | some (k, _) =>
    throw (.stated .type ("'" ++ k ++ "' is an invalid keyword argument for " ++ name ++ "()"))
  | none => pure ()
  let key := a.named? "key"
  let fallback := a.named? "default"
  let best ← match a.args with
    | [v] => walk call (better call key op) none v
    | vs =>
      if fallback.isSome then
        throw (.stated .type ("Cannot specify a default for " ++ name
          ++ "() with multiple positional arguments"))
      else walkList (better call key op) none vs
  match best, fallback with
  | some (_, v), _ => pure v
  | none, some v => pure v
  | none, none => throw (.stated .value (name ++ "() arg is an empty sequence"))

def powerModulo (b e m : Int) : Except Fault Int :=
  if m == 0 then .error (.stated .value "pow() 3rd argument cannot be 0")
  else
    let size := m.natAbs
    let base := (b.emod size).toNat
    let result (base e : Nat) : Int :=
      ((powerMod size (e.log2 + 2) base e (1 % size) : Nat) : Int).fmod m
    if 0 ≤ e then .ok (result base e.toNat)
    else
      match (List.range size).find? fun i ↦ i * base % size == 1 % size with
      | some inverse => .ok (result inverse e.natAbs)
      | none => .error (.stated .value "base is not invertible for the given modulus")

def rounded (v places : Value) : Op Value := do
  let s ← store
  match v.num?, places with
  | some (.int n), .none => pure (.int n)
  | some (.int n), p => do return .int (Num.roundInt n (← integerOf p))
  | some (.float x), .none => do return .int (← look fun _ ↦ Num.nearest x)
  | some (.float x), p => do
    let p ← integerOf p
    number (.float (← look fun _ ↦ Num.roundFloat x p))
  | _, _ =>
    throw (.stated .type ("type " ++ v.typeName s ++ " doesn't define __round__ method"))

def stepInteger (pick : Float → Option Int) (v : Value) : Op Value := do
  match v.int? with
  | some n => pure (.int n)
  | none =>
    let x ← realOf v
    match pick x with
    | some n => pure (.int n)
    | none => do return .int (← look fun _ ↦ Num.truncate x)

def hexBytes : Nat → List Char → Except Nat (List UInt8)
  | _, [] => .ok []
  | at_, c :: cs =>
    if Text.isBlank c && c.toNat < 128 then hexBytes (at_ + 1) cs
    else
      match baseDigit? 16 c, cs with
      | some hi, d :: rest =>
        match baseDigit? 16 d with
        | some lo => do return UInt8.ofNat (16 * hi + lo) :: (← hexBytes (at_ + 2) rest)
        | none => .error (at_ + 1)
      | some _, [] => .error (at_ + 1)
      | none, _ => .error at_

def fromHex (v : Value) : Op (List UInt8) := do
  match v with
  | .text t =>
    match hexBytes 0 t.toList with
    | .ok bs => pure bs
    | .error i =>
      throw (.stated .value ("non-hexadecimal number found in fromhex() arg at position "
        ++ natText i))
  | v =>
    throw (.stated .type ("fromhex() argument must be str, not " ++ v.typeName (← store)))

def run (call : Caller) (f : Builtin) (a : Arguments) : Op Value := do
  match f with
  | .abs => do
    match ← a.one "abs" with
    | .duration d => return .duration d.natAbs
    | v =>
      match v.num? with
      | some x => number x.abs
      | none => throw (.badOperand "abs()" (v.typeName (← store)))
  | .all => do
    let step (_ : Bool) (v : Value) : Op (Bool × Bool) := do
      let holds := v.truth (← store)
      return (holds, holds)
    return .bool (← walk call step true (← a.one "all"))
  | .any => do
    let step (_ : Bool) (v : Value) : Op (Bool × Bool) := do
      let holds := v.truth (← store)
      return (!holds, holds)
    return .bool (← walk call step false (← a.one "any"))
  | .ascii => do
    let v ← a.one "ascii"
    return .text (Text.ascii (← look v.shown))
  | .bin => do return .text (markedDigits "0b" 2 (← integerOf (← a.one "bin")))
  | .oct => do return .text (markedDigits "0o" 8 (← integerOf (← a.one "oct")))
  | .hex => do return .text (markedDigits "0x" 16 (← integerOf (← a.one "hex")))
  | .callable => do return .bool (← a.one "callable").isCallable
  | .chr => do
    let n ← integerOf (← a.one "chr")
    if n < -(twoTo 31 : Int) ∨ (twoTo 31 : Int) ≤ n then
      throw (.stated .overflow "Python int too large to convert to C int")
    if n < 0 ∨ 0x110000 ≤ n then
      throw (.stated .value "chr() arg not in range(0x110000)")
    return .text (String.ofList [Char.ofNat n.toNat])
  | .divmod => do
    let vs ← a.between "divmod" 2 2
    match vs with
    | [x, y] =>
      let s ← store
      let refuse : Op Value := throw (.unsupportedOperands "divmod()" (x.typeName s) (y.typeName s))
      match x.num?, y.num? with
      | some (.complex ..), _ | _, some (.complex ..) => refuse
      | some m, some n => do
        let (q, r) ← look fun _ ↦
          Num.divide "integer division or modulo by zero" "float divmod()" m n
        return .tuple [← number q, ← number r]
      | _, _ => refuse
    | _ => return .none
  | .format => do
    match ← a.between "format" 1 2 with
    | v :: rest =>
      match rest with
      | [] => return .text (← look v.plain)
      | .text spec :: _ => return .text (← look fun s ↦ v.formatted s spec)
      | w :: _ =>
        throw (.stated .type ("format() argument 2 must be str, not " ++ w.typeName (← store)))
    | [] => return .none
  | .hash => do
    let v ← a.one "hash"
    look fun _ ↦ v.checkKey
    return .int (integerHash (v.int?.getD 0))
  | .isinstance => do
    match ← a.between "isinstance" 2 2 with
    | [v, types] =>
      let fault : Fault :=
        .stated .type "isinstance() arg 2 must be a type, a tuple of types, or a union"
      return .bool (← look fun s ↦ subtypeAmong fault (v.typeName s) depthLimit types)
    | _ => return .none
  | .issubclass => do
    match ← a.between "issubclass" 2 2 with
    | [.type t, types] =>
      let fault : Fault :=
        .stated .type "issubclass() arg 2 must be a class, a tuple of classes, or a union"
      return .bool (← look fun _ ↦ subtypeAmong fault t depthLimit types)
    | _ => throw (.stated .type "issubclass() arg 1 must be a class")
  | .iter => do
    match ← a.between "iter" 1 2 with
    | [v] => return .iterator (← iterate v)
    | _ => throw (.stated .type "iter(v, w): v must be callable")
  | .len => do
    let v ← a.one "len"
    let s ← store
    match v.size? s with
    | some n => return .int (← look fun _ ↦ wordOf .sizeTooWide n)
    | none => throw (.noLength (v.typeName s))
  | .max => extremeOf call "max" .gt a
  | .min => extremeOf call "min" .lt a
  | .next => do
    match ← a.between "next" 1 2 with
    | .iterator r :: rest =>
      match ← Op.next call r, rest with
      | some v, _ => return v
      | none, v :: _ => return v
      | none, [] => throw .exhausted
    | v :: _ => throw (.notIterator (v.typeName (← Op.store)))
    | [] => return .none
  | .ord => do
    let v ← a.one "ord"
    match v with
    | .text t =>
      match t.toList with
      | [c] => return .int c.toNat
      | cs =>
        throw (.stated .type ("ord() expected a character, but string of length "
          ++ natText cs.length ++ " found"))
    | .bytes [b] => return .int b.toNat
    | v =>
      throw (.stated .type ("ord() expected string of length 1, but " ++ v.typeName (← store)
        ++ " found"))
  | .pow => do
    match ← a.bind "pow" ["base", "exp", "mod"] 2 with
    | [some b, some e, m] =>
      match m with
      | none | some .none => binary call .pow b e
      | some m =>
        match b.int?, e.int?, m.int? with
        | some b, some e, some m => return .int (← look fun _ ↦ powerModulo b e m)
        | _, _, _ =>
          throw (.stated .type "pow() 3rd argument not allowed unless all arguments are integers")
    | _ => return .none
  | .repr => do
    let v ← a.one "repr"
    return .text (← look v.shown)
  | .round => do
    match ← a.bind "round" ["number", "ndigits"] 1 with
    | [some v, places] => rounded v (places.getD .none)
    | _ => return .none
  | .sorted => do
    let vs ← Arguments.checkCount "sorted" 1 1 a.args
    match a.named.find? fun e ↦ e.1 != "key" && e.1 != "reverse" with
    | some (k, _) =>
      throw (.stated .type ("'" ++ k ++ "' is an invalid keyword argument for sort()"))
    | none => pure ()
    let items ← elements call (vs.headD .none)
    let reverse := (a.named? "reverse").getD .none
    let items := if reverse.truth (← store) then items.reverse else items
    let keys ← items.mapM fun v ↦ keyed call (a.named? "key") v
    let sorted ← look fun s ↦ sortBy (fun x y ↦ Value.order s .lt x y) (keys.zip items)
    newList (if reverse.truth (← store) then sorted.reverse else sorted)
  | .sum => do
    match a.args with
    | [] => throw (.stated .type "sum() takes at least 1 positional argument (0 given)")
    | v :: rest =>
      let start := match rest with
        | w :: _ => w
        | [] => (a.named? "start").getD (.int 0)
      let r ← iterate v
      let next (acc v : Value) : Op (Bool × Value) := do return (true, ← binary call .add acc v)
      match start with
      | .text _ => throw (.stated .type "sum() can't sum strings [use ''.join(seq) instead]")
      | .bytes _ => throw (.stated .type "sum() can't sum bytes [use b''.join(seq) instead]")
      | .byteArray _ =>
        throw (.stated .type "sum() can't sum bytearray [use b''.join(seq) instead]")
      | start => walkCursor call r next 10000000 start
  | .bytesFromHex => do return .bytes (← fromHex (← a.one "bytes.fromhex"))
  | .byteArrayFromHex => do
    return .byteArray (← alloc (.byteArray (← fromHex (← a.one "bytearray.fromhex"))))
  | .floor => do stepInteger floor? (← a.one "math.floor")
  | .ceil => do stepInteger ceil? (← a.one "math.ceil")
  | .sqrt => do
    let x ← realOf (← a.one "math.sqrt")
    if x < 0 then throw (.stated .value "math domain error")
    number (.float (Float.sqrt x))
  | .factorial => do
    let n ← integerOf (← a.one "math.factorial")
    if n < 0 then throw (.stated .value "factorial() not defined for negative values")
    if !fitsWord n then
      throw (.stated .overflow "factorial() argument should not exceed 9223372036854775807")
    let product : Nat := (List.range n.toNat).foldl (fun acc i ↦ acc * (i + 1)) 1
    return .int product
  | .gcd => do
    let ns ← (← a.positional "math.gcd").mapM integerOf
    let divisor : Nat := ns.foldl (fun acc n ↦ Nat.gcd acc n.natAbs) 0
    return .int divisor
  | .complexSqrt => do
    let v ← a.one "cmath.sqrt"
    match v.num? with
    | some x =>
      let (re, im) ← look fun _ ↦ x.toComplex
      let (re, im) := complexRoot re im
      number (.complex re im)
    | none => throw (.stated .type ("must be complex number, not " ++ v.typeName (← store)))
  | .uniform => do
    match a.args with
    | [lo, hi] =>
      -- the interval is a single point
      let width ← binary call .sub hi lo
      binary call .add lo (← binary call .mult width (.float 0 0))
    | _ =>
      throw (.stated .type "Random.uniform() missing 2 required positional arguments: 'a' and 'b'")
  | .now => throw (.stated .notImplemented "now() is not available")

end Builtin

end TriggerScript
