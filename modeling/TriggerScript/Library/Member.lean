import TriggerScript.Library.Method

/-!
# Members of values

What a dotted name finds on a value: operations, a few fields, and what the modules hold.
-/

namespace TriggerScript

def importable : List String :=
  ["cmath", "datetime", "decimal", "fractions", "homeassistant.const", "math", "number", "random",
    "re", "statistics", "string", "time"]

def moduleMember? (module name : String) : Option Value :=
  match module, name with
  | "math", "floor" => some (.builtin .floor)
  | "math", "ceil" => some (.builtin .ceil)
  | "math", "sqrt" => some (.builtin .sqrt)
  | "math", "factorial" => some (.builtin .factorial)
  | "math", "gcd" => some (.builtin .gcd)
  | "math", "pi" => some (.float (Number.ofDecimal false 3141592653589793 (-15)) 0)
  | "math", "e" => some (.float (Number.ofDecimal false 2718281828459045 (-15)) 0)
  | "math", "inf" => some (.float (Number.infinity false) 0)
  | "math", "nan" => some (.float Number.notANumber 0)
  | "cmath", "sqrt" => some (.builtin .complexSqrt)
  | "random", "uniform" => some (.builtin .uniform)
  | "datetime", "datetime" => some (.type "datetime.datetime")
  | "datetime", "date" => some (.type "datetime.date")
  | "datetime", "timedelta" => some (.type "datetime.timedelta")
  | "string", "digits" => some (.text "0123456789")
  | "homeassistant.const", "SUN_EVENT_SUNRISE" => some (.text "sunrise")
  | "homeassistant.const", "SUN_EVENT_SUNSET" => some (.text "sunset")
  | "homeassistant.const", "EVENT_HOMEASSISTANT_STARTED" => some (.text "homeassistant_started")
  | "homeassistant.const", "EVENT_HOMEASSISTANT_STOP" => some (.text "homeassistant_stop")
  | "homeassistant.const", "EVENT_STATE_CHANGED" => some (.text "state_changed")
  | "homeassistant.const", "SERVICE_RELOAD" => some (.text "reload")
  | module, "__name__" => some (.text module)
  | _, _ => none

def lastPart (name : String) : String :=
  match Text.cutAtLast? '.' name.toList with
  | some (_, last) => String.ofList last
  | none => name

def builtinNamed? (name : String) : Option Value :=
  let functions : List Builtin :=
    [.abs, .all, .any, .ascii, .bin, .callable, .chr, .divmod, .format, .hash, .hex, .isinstance,
      .issubclass, .iter, .len, .max, .min, .next, .oct, .ord, .pow, .repr, .round, .sorted, .sum]
  let types : List String :=
    ["bool", "bytearray", "bytes", "complex", "dict", "enumerate", "filter", "float", "frozenset",
      "int", "list", "map", "range", "reversed", "set", "slice", "str", "tuple", "type", "zip"]
  match functions.find? (·.name == name) with
  | some f => some (.builtin f)
  | none =>
    if types.contains name then some (.type name)
    else if name == "bytes.fromhex" then some (.builtin .bytesFromHex)
    else if name == "bytearray.fromhex" then some (.builtin .byteArrayFromHex)
    else none

def momentField? (m : Calendar.Moment) : String → Option Nat
  | "year" => some m.year
  | "month" => some m.month
  | "day" => some m.dayOfMonth
  | "hour" => some m.hourOfDay
  | "minute" => some m.minuteOfHour
  | "second" => some m.secondOfMinute
  | "microsecond" => some m.microsecond
  | _ => none

def durationField? (d : Calendar.Duration) (name : String) : Option Int :=
  let rest := d.fmod Calendar.day
  match name with
  | "days" => some (d.fdiv Calendar.day)
  | "seconds" => some (rest / Calendar.second)
  | "microseconds" => some (rest % Calendar.second)
  | _ => none

def functionField? (r : Ref) (f : Function) (name : String) : Option (Op Value) :=
  match name with
  | "name" => some (pure (.text f.name))
  | "doc_string" => some (pure ((f.doc.map Value.text).getD .none))
  | "defaults" => some (Op.newOwn f.defaults)
  | "decorators" => some (Method.decoratorList f)
  | "num_posn_arg" =>
    some (pure (.int ((Method.positionalNames f).length - (f.defaults.length : Int))))
  | "global_names" => some (Op.newNames r .global)
  | "nonlocal_names" => some (Op.newNames r .nonlocal)
  | _ => none

def field? (s : Store) (v : Value) (name : String) : Option (Op Value) :=
  match v, name with
  | v, "__class__" => some (pure (.type (v.typeName s)))
  | .module m, name => (moduleMember? m name).map pure
  | .unresolved n, "name" => some (pure (.text n))
  | .type t, "__name__" => some (pure (.text (lastPart t)))
  | .type "bytes", "fromhex" => some (pure (.builtin .bytesFromHex))
  | .type "bytearray", "fromhex" => some (pure (.builtin .byteArrayFromHex))
  | .type "datetime.datetime", "now" => some (pure (.builtin .now))
  | .builtin f, "__name__" => some (pure (.text f.name))
  | .method _ m, "__name__" => some (pure (.text m.name))
  | .host f, "__name__" => some (pure (.text f.name))
  | .moment m, name => (momentField? m name).map fun n ↦ pure (.int n)
  | .date m, name =>
    if name == "year" || name == "month" || name == "day" then
      (momentField? m name).map fun n ↦ pure (.int n)
    else none
  | .duration d, name => (durationField? d name).map fun n ↦ pure (.int n)
  | .slice a _ _, "start" => some (pure a)
  | .slice _ b _, "stop" => some (pure b)
  | .slice _ _ c, "step" => some (pure c)
  | .range a _ _, "start" => some (pure (.int a))
  | .range _ b _, "stop" => some (pure (.int b))
  | .range _ _ c, "step" => some (pure (.int c))
  | .complex re _ _, "real" => some (Op.number (.float re))
  | .complex _ im _, "imag" => some (Op.number (.float im))
  | .float x mark, "real" => some (pure (.float x mark))
  | .float _ _, "imag" => some (pure (.float 0 0))
  | .int n, "real" | .int n, "numerator" => some (pure (.int n))
  | .int _, "imag" => some (pure (.int 0))
  | .int _, "denominator" => some (pure (.int 1))
  | .bool b, "real" => some (pure (.int (if b then 1 else 0)))
  | .bool _, "imag" => some (pure (.int 0))
  | .entityState t _, "state" => some (pure (.text t))
  | .entityState _ r, "attributes" => some (pure (.dict r))
  | .function r, name => (s.functionAt? r).bind fun f ↦ functionField? r f name
  | _, _ => none

/-- Whether a member of a value leads into the interpreter, beyond what is described here. -/
def leadsInside (s : Store) (v : Value) (name : String) : Bool :=
  (field? s v name).isNone && (['_', '_'].isPrefixOf name.toList || match v with
    | .function _ =>
      ["call", "eval_decorators", "eval_defaults", "func_def", "kw_defaults"].contains name
    | _ => false)

def member? (v : Value) (name : String) : Op (Option Value) := do
  let s ← Op.store
  match field? s v name with
  | some get => do return some (← get)
  | none =>
    match v with
    | .type t =>
      return ((methodsOf t).find? (·.name == name)).map (.method v)
    | v => return ((methodsOf (v.typeName s)).find? (·.name == name)).map (.method v)

def missingMember (s : Store) (v : Value) (name : String) : Fault :=
  match v with
  | .module m => .noModuleAttribute m name
  | .type t =>
    .stated .attr ("type object '" ++ t ++ "' has no attribute '" ++ name ++ "'")
  | v => .noAttribute (v.typeName s) name

def getMember : Reader := fun v name ↦ do
  match ← member? v name with
  | some w => pure w
  | none => throw (missingMember (← Op.store) v name)

end TriggerScript
