import TriggerScript.Host.Action

/-!
# What names stand for

A name that a function declared global is looked up among the globals only; one that it declared
nonlocal, in the tables of suspended calls only. Any other name is looked up in the current table,
in what was given from outside, among the globals, among the values of the library, the functions of
the host, the services and the entities, in this order. A name that stands for nothing yields
itself.
-/

namespace TriggerScript.World

variable (w : World) (c : Context)

def functionOf? : Option Function := c.function.bind w.store.functionAt?

def isGlobal (name : String) : Bool :=
  match w.functionOf? c with
  | some f => f.globalNames.contains name
  | none => false

def isNonlocal (name : String) : Bool :=
  match w.functionOf? c with
  | some f => f.nonlocalNames.contains name
  | none => false

/-- The latest suspended table in which a key is bound. -/
def suspendedWith? (key : Key) : Option TableId :=
  c.suspended.find? fun t ↦ (w.table t).contains key

def bound? (key : Key) : Option Value :=
  ((w.table c.current).get? key).or
    (((w.table c.locals).get? key).or ((w.table c.globals).get? key))

def outer (name : String) : Value :=
  match builtinNamed? name with
  | some v => v
  | none =>
    match w.hostFunction? name with
    | some v => v
    | none =>
      match w.variableValue? name with
      | none => .unresolved name
      | some v => if w.variableExists name then v else .unresolved name

def nameValue (name : String) : Except Fault Value :=
  if w.isGlobal c name then
    match (w.table c.globals).get? (some name) with
    | some v => .ok v
    | none => .error (.undefinedGlobal name)
  else if w.isNonlocal c name then
    match (w.suspendedWith? c (some name)).bind fun t ↦ (w.table t).get? (some name) with
    | some v => .ok v
    | none => .error (.undefinedNonlocal name)
  else
    match w.bound? c (some name) with
    | some v => .ok v
    | none => .ok (w.outer name)

def bindingTable (name : String) : Except Fault TableId :=
  if w.isGlobal c name then .ok c.globals
  else if w.isNonlocal c name then
    match w.suspendedWith? c (some name) with
    | some t => .ok t
    | none => .error (.nonlocalNotFound name)
  else .ok c.current

def bind (t : TableId) (key : Key) (v : Value) : World := w.updateTable t (·.put key v)

def bindCurrent (c : ContextId) (key : Key) (v : Value) : World :=
  w.bind (w.context c).current key v

def give (c : ContextId) (entries : List (Key × Value)) : World :=
  { w with tables :=
      if c < w.contexts.size then w.tables.modify (w.context c).locals (·.putAll entries)
      else w.tables }

theorem give_cases (c : ContextId) (entries : List (Key × Value)) :
    w.give c entries = w ∨
      c < w.contexts.size ∧
        w.give c entries = w.updateTable (w.context c).locals (·.putAll entries) := by
  unfold give
  split
  · exact .inr ⟨‹_›, rfl⟩
  · exact .inl rfl

@[simp] theorem contexts_give (c : ContextId) (entries : List (Key × Value)) :
    (w.give c entries).contexts = w.contexts := rfl

@[simp] theorem context_give (c : ContextId) (entries : List (Key × Value)) (d : ContextId) :
    (w.give c entries).context d = w.context d := rfl

def assign (name : String) (v : Value) : Except Fault World := do
  return w.bind (← w.bindingTable c name) (some name) v

/-- Removes a name, which has to be bound unless it was declared. -/
def unbind (name : String) : Except Fault World :=
  if w.isGlobal c name then .ok (w.updateTable c.globals (·.erase (some name)))
  else if w.isNonlocal c name then
    match w.suspendedWith? c (some name) with
    | some t => .ok (w.updateTable t (·.erase (some name)))
    | none => .ok w
  else if (w.table c.current).contains (some name) then
    .ok (w.updateTable c.current (·.erase (some name)))
  else .error (.undefinedInDelete name)

end TriggerScript.World
