import TriggerScript.Calendar.Duration
import TriggerScript.Syntax.Tree

/-!
# Values and objects

A value is what an expression of a script evaluates to. Values that cannot change hold their parts;
those that can are references into a `Store` of objects, which only grows. So two values that refer
to one object see each other's changes, and a value stays meaningful for as long as its store does.

NaN is the one value that is not equal to itself, so two of them can be told apart only by where
they come from. For this a `Float` and a complex number carry a mark, which is drawn from the store
when NaN arises and means nothing for any other number.
-/

namespace TriggerScript

abbrev Ref := Nat

/-- Replaces or adds what is kept under a key. -/
def assign {κ α : Type} [BEq κ] : List (κ × α) → κ → α → List (κ × α)
  | [], k, a => [(k, a)]
  | (k', a') :: rest, k, a => if k' == k then (k', a) :: rest else (k', a') :: assign rest k a

inductive Level where
  | debug | info | warning | error
  deriving Repr, DecidableEq

def Level.word : Level → String
  | debug => "debug" | info => "info" | warning => "warning" | error => "error"

def Level.title : Level → String
  | debug => "DEBUG" | info => "INFO" | warning => "WARNING" | error => "ERROR"

/-- The functions that a script can name without importing them, and those of the modules that it
can import. Types are not among them. -/
inductive Builtin where
  | abs | all | any | ascii | bin | callable | chr | divmod | format | hash | hex | isinstance
  | issubclass | iter | len | max | min | next | oct | ord | pow | repr | round | sorted | sum
  | bytesFromHex | byteArrayFromHex
  | floor | ceil | sqrt | factorial | gcd | complexSqrt | uniform | now
  deriving Repr, DecidableEq

def Builtin.name : Builtin → String
  | abs => "abs" | all => "all" | any => "any" | ascii => "ascii" | bin => "bin"
  | callable => "callable" | chr => "chr" | divmod => "divmod" | format => "format"
  | hash => "hash" | hex => "hex" | isinstance => "isinstance" | issubclass => "issubclass"
  | iter => "iter" | len => "len" | max => "max" | min => "min" | next => "next" | oct => "oct"
  | ord => "ord" | pow => "pow" | repr => "repr" | round => "round" | sorted => "sorted"
  | sum => "sum" | bytesFromHex => "fromhex" | byteArrayFromHex => "fromhex"
  | floor => "floor" | ceil => "ceil" | sqrt => "sqrt" | factorial => "factorial" | gcd => "gcd"
  | complexSqrt => "sqrt" | uniform => "uniform" | now => "now"

inductive Method where
  | upper | lower | capitalize | find | index | format | join | split | strip | startsWith | zfill
  | isAlpha
  | append | pop
  | get | keys | values | items
  | add | remove
  | bitLength | isInteger
  | getName | getDocString | getDecorators | getPositionalArgs
  deriving Repr, DecidableEq

def Method.name : Method → String
  | upper => "upper" | lower => "lower" | capitalize => "capitalize" | find => "find"
  | index => "index" | format => "format" | join => "join" | split => "split" | strip => "strip"
  | startsWith => "startswith" | zfill => "zfill" | isAlpha => "isalpha" | append => "append"
  | pop => "pop" | get => "get" | keys => "keys" | values => "values" | items => "items"
  | add => "add" | remove => "remove" | bitLength => "bit_length" | isInteger => "is_integer"
  | getName => "get_name" | getDocString => "get_doc_string" | getDecorators => "get_decorators"
  | getPositionalArgs => "get_positional_args"

/-- Where a name that a function declares is bound instead of in the table of the call. -/
inductive Scoping where
  | global | nonlocal
  deriving Repr, DecidableEq

/-- A function of what is around scripts. -/
inductive HostFunction where
  | log (level : Level) (logger : String)
  | waitUntil (context : Nat)
  | sleep
  | unique
  | fire
  | callService
  | hasService
  | getState
  | setState
  | service (domain name : String)
  /-- Declares a name for a function, or withdraws it. -/
  | declare (f : Ref) (scoping : Scoping) (inForce : Bool)
  /-- Changes something of the interpreter's own. -/
  | interfere
  deriving Repr, DecidableEq

def HostFunction.name : HostFunction → String
  | log level _ => level.word
  | waitUntil _ => "wait_until_call"
  | sleep => "async_sleep"
  | unique => "task_unique"
  | fire => "event_fire"
  | callService => "service_call"
  | hasService => "service_has_service"
  | getState => "get"
  | setState => "set"
  | service _ _ => "service_call"
  | declare _ _ inForce => if inForce then "add" else "remove"
  | interfere => "interfere"

def HostFunction.isPrompt : HostFunction → Bool
  | log .. | hasService | getState | setState | declare .. | interfere => true
  | _ => false

inductive View where
  | keys | values | items
  deriving Repr, DecidableEq

inductive Value where
  | none
  | bool (b : Bool)
  | int (n : Int)
  | float (x : Float) (mark : Nat)
  | complex (re im : Float) (mark : Nat)
  | text (s : String)
  | bytes (bs : List UInt8)
  | ellipsis
  | tuple (items : List Value)
  | frozenSet (items : List Value)
  | range (start stop step : Int)
  | slice (start stop step : Value)
  | list (r : Ref)
  | dict (r : Ref)
  | set (r : Ref)
  | byteArray (r : Ref)
  | view (what : View) (r : Ref)
  | iterator (r : Ref)
  | function (r : Ref)
  | builtin (f : Builtin)
  /-- A type, known by its name. -/
  | type (name : String)
  | method (owner : Value) (m : Method)
  | module (name : String)
  | moment (m : Calendar.Moment)
  | date (m : Calendar.Moment)
  | duration (d : Calendar.Duration)
  | host (f : HostFunction)
  /-- A function made from outside, which answers with a value, its arguments and its keywords. -/
  | registered (answer : Value)
  /-- A name that stands for nothing yet. -/
  | unresolved (name : String)
  | entityState (text : String) (attributes : Ref)

instance : Inhabited Value := ⟨.none⟩

/-- Entries in the order in which their keys were first stored. -/
abbrev Entries := List (Value × Value)

/-- A position in something that is gone through one element at a time. -/
inductive Cursor where
  /-- Elements that cannot change any more. -/
  | over (type : String) (rest : List Value)
  | range (next stop step : Int)
  /-- The place in a list, which is looked at again for every element. -/
  | list (r : Ref) (at_ : Nat)
  /-- Backwards through a list: how many elements are left. -/
  | reverse (r : Ref) (left : Nat)
  /-- The place in a dictionary that had so many entries. -/
  | dict (what : View) (r : Ref) (at_ size : Nat)
  /-- The remaining elements of a set that had so many. -/
  | set (r : Ref) (rest : List Value) (size : Nat)
  | enumerate (inner : Ref) (count : Int)
  | zip (inners : List Ref)
  | map (f : Value) (inners : List Ref)
  | filter (f : Value) (inner : Ref)
  | finished (type : String)

/-- Names, each with whether it is declared still. One that was withdrawn stays listed. -/
abbrev Declarations := List (String × Bool)

def Declarations.inForce (ds : Declarations) : List String :=
  ds.filterMap fun d ↦ if d.2 then some d.1 else none

structure Function where
  name : String
  params : Syntax.Parameters
  body : List Syntax.Stmt
  doc : Option String
  defaults : List Value := []
  keywordDefaults : List (Option Value) := []
  decorators : List (String × Option (List Value)) := []
  globals : Declarations := []
  nonlocals : Declarations := []

namespace Function

def globalNames (f : Function) : List String := f.globals.inForce

def nonlocalNames (f : Function) : List String := f.nonlocals.inForce

def declare (f : Function) (name : String) (inForce : Bool) : Scoping → Function
  | .global => { f with globals := assign f.globals name inForce }
  | .nonlocal => { f with nonlocals := assign f.nonlocals name inForce }

end Function

inductive Object where
  | list (items : List Value)
  | dict (entries : Entries)
  | set (items : List Value)
  | byteArray (bs : List UInt8)
  | cursor (c : Cursor)
  /-- A list of the interpreter's own. -/
  | own (items : List Value)
  /-- The set of the names that a function declares, which changes with them. -/
  | names (f : Ref) (scoping : Scoping)

def Object.isNames (r : Ref) (scoping : Scoping) : Object → Bool
  | .names f s => f == r && s == scoping
  | _ => false

/-- What a function of the host answered, with the store there was then. -/
structure Answer where
  value : Value
  objects : Array Object
  functions : Array Function
  marks : Nat

/-- All objects that were made so far, and the functions that scripts defined. -/
structure Store where
  objects : Array Object := #[]
  functions : Array Function := #[]
  /-- How many marks were drawn. -/
  marks : Nat := 0
  /-- What functions of the host will answer to the computation that is going on. -/
  answers : List Answer := []
  /-- The function of the host whose answer it lacks, and its arguments. -/
  wanted : Option (HostFunction × List Value) := none

namespace Store

variable (s : Store)

def get? (r : Ref) : Option Object := s.objects[r]?

def put (r : Ref) (o : Object) : Store := { s with objects := s.objects.setIfInBounds r o }

def push (s : Store) (o : Object) : Store := { s with objects := s.objects.push o }

def listAt (r : Ref) : List Value :=
  match s.get? r with
  | some (.list items) | some (.own items) => items
  | _ => []

def dictAt (r : Ref) : Entries :=
  match s.get? r with
  | some (.dict entries) => entries
  | _ => []

def functionAt? (r : Ref) : Option Function := s.functions[r]?

def namesOf (r : Ref) : Scoping → List String
  | .global => ((s.functionAt? r).map (·.globalNames)).getD []
  | .nonlocal => ((s.functionAt? r).map (·.nonlocalNames)).getD []

def setAt (r : Ref) : List Value :=
  match s.get? r with
  | some (.set items) => items
  | some (.names f scoping) => (s.namesOf f scoping).map .text
  | _ => []

def bytesAt (r : Ref) : List UInt8 :=
  match s.get? r with
  | some (.byteArray bs) => bs
  | _ => []

def cursorAt (r : Ref) : Cursor :=
  match s.get? r with
  | some (.cursor c) => c
  | _ => .finished "iterator"

end Store

abbrev Op (α : Type) : Type := ExceptT Fault (StateM Store) α

namespace Op

def store : Op Store := get

def alloc (o : Object) : Op Ref := do
  let s ← get
  set (s.push o)
  pure s.objects.size

def newMark : Op Nat := do
  let s ← get
  set { s with marks := s.marks + 1 }
  pure (s.marks + 1)

def consult (f : HostFunction) (args : List Value) : Op Value := do
  let s ← get
  match s.answers with
  | a :: answers =>
    set { s with objects := a.objects, functions := a.functions, marks := a.marks, answers }
    pure a.value
  | [] =>
    set { s with wanted := some (f, args) }
    throw .outOfFuel

def put (r : Ref) (o : Object) : Op Unit := do
  match (← get).get? r with
  | some (.own _) =>
    let _ ← consult .interfere []
  | _ => modify (·.put r o)

def newList (items : List Value) : Op Value := do return .list (← alloc (.list items))

def newOwn (items : List Value) : Op Value := do return .list (← alloc (.own items))

def newDict (entries : Entries) : Op Value := do return .dict (← alloc (.dict entries))

def newSet (items : List Value) : Op Value := do return .set (← alloc (.set items))

def newNames (f : Ref) (scoping : Scoping) : Op Value := do
  match (← get).objects.findIdx? (·.isNames f scoping) with
  | some r => pure (.set r)
  | none => return .set (← alloc (.names f scoping))

def newCursor (c : Cursor) : Op Value := do return .iterator (← alloc (.cursor c))

def look {α : Type} (f : Store → Except Fault α) : Op α := do
  match f (← get) with
  | .ok a => pure a
  | .error e => throw e

end Op

def Cursor.typeName : Cursor → String
  | .over type _ => type
  | .range .. => "range_iterator"
  | .list .. => "list_iterator"
  | .reverse .. => "list_reverseiterator"
  | .dict .keys .. => "dict_keyiterator"
  | .dict .values .. => "dict_valueiterator"
  | .dict .items .. => "dict_itemiterator"
  | .set .. => "set_iterator"
  | .enumerate .. => "enumerate"
  | .zip .. => "zip"
  | .map .. => "map"
  | .filter .. => "filter"
  | .finished type => type

def Value.typeName (s : Store) : Value → String
  | .none => "NoneType"
  | .bool _ => "bool"
  | .int _ => "int"
  | .float _ _ => "float"
  | .complex _ _ _ => "complex"
  | .text _ => "str"
  | .bytes _ => "bytes"
  | .ellipsis => "ellipsis"
  | .tuple _ => "tuple"
  | .frozenSet _ => "frozenset"
  | .range _ _ _ => "range"
  | .slice _ _ _ => "slice"
  | .list _ => "list"
  | .dict _ => "dict"
  | .set _ => "set"
  | .byteArray _ => "bytearray"
  | .view .keys _ => "dict_keys"
  | .view .values _ => "dict_values"
  | .view .items _ => "dict_items"
  | .iterator r => (s.cursorAt r).typeName
  | .function _ => "EvalFunc"
  | .builtin _ => "builtin_function_or_method"
  | .type _ => "type"
  | .method (.function _) _ => "method"
  | .method (.type _) _ => "method_descriptor"
  | .method _ _ => "builtin_function_or_method"
  | .module _ => "module"
  | .moment _ => "datetime.datetime"
  | .date _ => "datetime.date"
  | .duration _ => "datetime.timedelta"
  | .host (.service _ _) | .host (.waitUntil _) => "function"
  | .host _ => "method"
  | .registered _ => "function"
  | .unresolved _ => "EvalName"
  | .entityState _ _ => "State"

end TriggerScript
