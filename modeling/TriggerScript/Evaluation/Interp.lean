import TriggerScript.Evaluation.Binding
import TriggerScript.Evaluation.Scope
import TriggerScript.Syntax.Script

/-!
# Evaluation, given how parts are evaluated

Evaluating an expression or a statement is described for one layer of the tree at a time, given an
`Interp` that evaluates its parts. A part that fails is logged, its context remembers the error, and
what is around the part goes on with an empty value. Only a missing key that cannot be put into
words cannot be logged: the attempt is an error of what is around the part.
-/

namespace TriggerScript

open Syntax (Position Expr Stmt)

/-- What a statement comes to: a value, or a change in the flow of control. -/
inductive Flow where
  | value (v : Value)
  | exit
  | next
  | answer (v : Value)

def Flow.stops : Flow → Bool
  | value _ => false
  | _ => true

/-- How expressions and statements are evaluated in a context, before errors are dealt with. -/
structure Interp where
  node : ContextId → Expr → Activity Value
  statement : ContextId → Stmt → Activity Flow

namespace Activity

def context (c : ContextId) : Activity Context := read (·.context c)

/-! ### Errors -/

def errorPlace (function : Option String) (file : String) (pos : Option Position) : String :=
  "Exception in " ++ (match function with
    | some f => f ++ "(), "
    | none => "") ++ file ++ (match pos with
    | some p => " line " ++ Number.natText p.line ++ " column " ++ Number.natText p.column
    | none => "") ++ ": "

def errorText : Fault → String
  | .exhausted => Fault.exhaustedInTask.message
  | f => f.message

def errorTextLong : Fault → String
  | .exhausted =>
    Fault.exhausted.line ++ "\n\nThe above exception was the direct cause of the following "
      ++ "exception:\n\n" ++ Fault.exhaustedInTask.line ++ "\n"
  | .unworded why =>
    (Fault.unshownKey why).line ++ "\n\nDuring handling of the above exception, another exception "
      ++ "occurred:\n\n" ++ (Fault.unworded why).line ++ "\n"
  | f => f.line ++ "\n"

variable (c : ContextId)

def recordError (pos : Option Position) (f : Fault) : Activity Unit := do
  let w ← world
  let ctx ← context c
  let place := errorPlace ((w.functionOf? ctx).map (·.name)) ctx.file pos
  let text := place ++ errorText f
  modify fun w ↦
    (w.updateContext c fun ctx ↦
      { ctx with error := some text, errorLong := some (place ++ errorTextLong f) }).say
        "eval" .error text

def standIn {α : Type} (c : ContextId) (pos : Option Position) (fallback : α) :
    Except Fault α → Activity α
  | .ok a => return a
  | .error (.unshownKey why) => raise (.unworded why)
  | .error f => do
    recordError c pos f
    return fallback

/-- Does something; for an error another result stands in. -/
def guarded {α : Type} (c : ContextId) (pos : Option Position) (fallback : α) (x : Activity α) :
    Activity α := do
  standIn c pos fallback (← x.attempt)

def defined (v : Value) : Activity Value :=
  match v with
  | .unresolved name => raise (.undefinedName name)
  | v => result v

/-! ### Tables -/

def bindCurrent (c : ContextId) (key : Key) (v : Value) : Activity Unit :=
  modify (·.bindCurrent c key v)

def newContext (name : String) (globals : TableId) : Activity ContextId :=
  modifyGet (·.addContext name globals)

def newContextBeside (name : String) : Activity ContextId :=
  modifyGet fun w ↦ w.addContext name (w.context c).globals

def loggerOf (name : String) : String := "func." ++ name

def contextValue (name : String) : ContextFunction → Activity Value
  | .log level => do
    modify fun w ↦
      if w.loggers.contains name then w else { w with loggers := w.loggers ++ [name] }
    return .host (.log level (loggerOf name))
  | .waitUntil => return .host (.waitUntil c)
  | .answer v => op (Op.newList [.text name, v])

def installFunctions : Activity Unit := do
  let ctx ← context c
  let functions ← read (·.contextFunctions)
  let entries ← collect (fun (e : String × ContextFunction) ↦ do
    return (some e.1, ← contextValue c ctx.name e.2)) functions
  modify fun w ↦
    let (t, w) := w.addTable (Table.putAll {} entries)
    w.updateContext c fun ctx ↦ { ctx with locals := t }

def furnished (new : Activity ContextId) : Activity ContextId := do
  let c ← new
  installFunctions c
  return c

def freshContext (name : String) (globals : TableId) : Activity ContextId :=
  furnished (newContext name globals)

def sourceOf (v : Value) : Activity Syntax.Source.Given := do
  let s ← read (·.store)
  match v with
  | .text t => return .text t
  | .list r =>
    return .lines ((s.listAt r).map fun
      | .text t => .inl t
      | v => .inr (v.typeName s))
  | _ => return .other

def readScript (source : Syntax.Source.Given) (file : String) : Activity Bool := do
  match Syntax.Module.read source with
  | .ok tree =>
    modify (·.updateContext c fun ctx ↦ { ctx with file, tree := some tree })
    return true
  | .error refusal =>
    modify (·.updateContext c fun ctx ↦
      { ctx with
        file
        tree := none
        error := some (refusal.summary file)
        errorLong := some refusal.text })
    say "eval" .error (refusal.logLine file)
    return false

def noFile : String := "<unknown>"

def expressionContext (new : Activity ContextId) (source : Value) : Activity ContextId := do
  let c ← furnished new
  let _ ← readScript c (← sourceOf source) noFile
  return c

def mentioned : Activity (List (Option String)) := do
  return ((← context c).tree.map (·.names)).getD []

end Activity

namespace Interp

open Activity

variable (I : Interp) (c : ContextId)

def evaluate (e : Expr) : Activity Value := guarded c (some e.pos) .none (do defined (← I.node c e))

def evaluateOpen (e : Expr) : Activity Value := guarded c (some e.pos) .none (I.node c e)

def execute (s : Stmt) : Activity Flow := guarded c (some s.pos) (.value .none) (I.statement c s)

def sequence (I : Interp) (c : ContextId) : Flow → List Stmt → Activity Flow
  | last, [] => result last
  | _, s :: rest => do
    let flow ← I.execute c s
    if flow.stops then return flow else I.sequence c flow rest

def body (I : Interp) (c : ContextId) : List Stmt → Activity Value
  | [] => return .none
  | s :: rest => do
    match ← I.execute c s with
    | .answer v => return v
    | _ => I.body c rest

def enter (f : Ref) (t : Table) : Activity Unit :=
  modify fun w ↦
    let (id, w) := w.addTable t
    w.updateContext c fun ctx ↦
      { ctx with suspended := ctx.current :: ctx.suspended, current := id, function := some f }

def leave (caller : Option Ref) : Activity Unit := do
  match (← context c).suspended with
  | [] => raise (.stated .index "pop from empty list")
  | t :: rest =>
    modify (·.updateContext c fun ctx ↦
      { ctx with suspended := rest, current := t, function := caller })

def openingTable (f : Function) (args : List Value) (named : Named) : Activity Table := do
  let b ← lift (f.bindGiven args named)
  match f.untaken with
  | some p =>
    let d ← op (Op.newDict b.named)
    lift (f.bindSurplus args (b.table.put (some p) d))
  | none => lift (f.bindSurplus args b.table)

def openingTableBeside (f : Function) (args items : List Value) : Activity Table := do
  let names := items.filterMap fun
    | .text t => some t
    | _ => none
  let b ← lift (f.bindBeside args names)
  match f.untaken with
  | some p =>
    let l ← op (Op.newList items)
    lift (f.bindSurplus args (b.table.put (some p) l))
  | none => lift (f.bindSurplus args b.table)

def callBody (r : Ref) (t : Table) (stmts : List Stmt) :
    Activity Value := do
  let caller := (← context c).function
  enter c r t
  let v ← I.body c stmts
  leave c caller
  return v

def callOpening (r : Ref) (opening : Function → Activity Table) :
    Activity Value := do
  match (← read fun w ↦ w.store.functionAt? r) with
  | none => return .none
  | some f =>
    let t ← opening f
    I.callBody c r t f.body

def callFunction (r : Ref) (args : List Value) (named : Named) : Activity Value :=
  I.callOpening c r fun f ↦ openingTable f args named

def tableEntries (entries : Entries) : List (Key × Value) :=
  entries.filterMap fun
    | (.text k, v) => some (some k, v)
    | (.none, v) => some (none, v)
    | _ => none

/-- Gives values to names from outside. An empty value gives none. -/
def give (c : ContextId) (values : Value) : Activity Unit := do
  if values.truth (← read (·.store)) then
    let entries ← op (Op.pairsOf caller values)
    modify (·.give c (tableEntries entries))

def runTree : Activity Value := do
  match (← context c).tree with
  | none => return .none
  | some tree =>
    match ← guarded c none (.value .none) (I.sequence c (.value .none) tree.body) with
    | .value v => return v
    | _ => return .none

def run (values : Value) : Activity Value := do
  modify (·.updateContext c fun ctx ↦ { ctx with error := none, errorLong := none })
  give c values
  I.runTree c

end Interp

end TriggerScript
