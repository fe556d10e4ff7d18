import TriggerScript.Evaluation.HostCall

/-!
# Expressions

The value of one layer of an expression, given how its parts are evaluated.

The operands of `and` and `or` are compared with zero: only a number that is zero decides. The
middle of a chain of comparisons is evaluated once for each comparison it stands in. In a call,
values by name are evaluated before those by position; in a dictionary, each value before its key.
-/

namespace TriggerScript

open Syntax (Expr Literal Access Keyword DictItem Operator Comparison)

def Syntax.Literal.toValue : Literal → Value
  | .none => .none
  | .bool b => .bool b
  | .int n => .int n
  | .float x => .float x 0
  | .imaginary x => .complex 0 x 0
  | .text s => .text s
  | .bytes bs => .bytes bs
  | .ellipsis => .ellipsis

def makesObject (v : Value) (e : Expr) : Bool :=
  !v.isUnique && match e with
    | .constant .. | .tuple .. => true
    | .unaryOp _ .uAdd _ => false
    | .binOp .. | .unaryOp .. => v.num?.isSome
    | _ => false

namespace Interp

open Activity

variable (I : Interp) (c : ContextId)

def unsupported {α : Type} (node : String) : Activity α := do
  raise (.unsupportedNode (← context c).name (foldName node))

def keyValue (key : Key) : Activity Value := do
  let w ← world
  let ctx ← context c
  match key with
  | some name => lift (w.nameValue ctx name)
  | none =>
    match w.bound? ctx none with
    | some v => return v
    | none => raise Notify.StateTable.noParts

def nameNode (name : String) (access : Access) : Activity Value :=
  match access with
  | .load => keyValue c (some name)
  | _ => return .text name

/-- Reads a member of a value, unless it leads into the interpreter, where the account ends. -/
def memberOf {α : Type} (v : Value) (attr : String) (read : Value → Op α) : Activity α := do
  if leadsInside (← Activity.read (·.store)) v attr then outOfFuel else op (read v)

def memberNode (e value : Expr) (attr : String) (access : Access) : Activity Value := do
  match e.dottedName?, value.dottedName? with
  | some full, some owner =>
    match ← nameNode c full access with
    | .unresolved _ => do
      let v ← nameNode c owner access
      memberOf v attr (getMember · attr)
    | v => return v
  | _, _ =>
    match ← I.evaluateOpen c value with
    | .unresolved name => nameNode c (name ++ "." ++ attr) access
    | v => do return (← memberOf v attr (member? · attr)).getD .none

def elements : List Expr → Activity (List Value)
  | [] => return []
  | .starred _ e _ :: rest => do
    let v ← I.evaluate c e
    let xs ← calling (Op.elements caller v)
    let ys ← elements rest
    return xs ++ ys
  | e :: rest => do
    let x ← I.evaluate c e
    let xs ← elements rest
    return x :: xs

/-- The last of the operands, or zero if one of them is zero. -/
def conjunction : Value → List Expr → Activity Value
  | last, [] => return last
  | _, e :: rest => do
    let v ← I.evaluate c e
    if Value.equal (← read (·.store)) v (.int 0) then return .int 0 else conjunction v rest

/-- The first of the operands that is not zero, or zero. -/
def disjunction : List Expr → Activity Value
  | [] => return .int 0
  | e :: rest => do
    let v ← I.evaluate c e
    if Value.equal (← read (·.store)) v (.int 0) then disjunction rest else return v

def comparison (op : Comparison) (apart : Bool) (a b : Value) : Activity Bool :=
  match op, apart with
  | .is, true => return false
  | .isNot, true => return true
  | op, _ => calling (Op.compare caller op a b)

def chain : Expr → List Comparison → List Expr → Activity Value
  | left, op :: ops, right :: rights => do
    let a ← I.evaluate c left
    let b ← I.evaluate c right
    if ← comparison op (makesObject a left || makesObject b right) a b then chain right ops rights
    else return .bool false
  | _, _, _ => return .bool true

/-- Applies an operator. One of sets may go through an operand. -/
def operate (o : Operator) (a b : Value) : Activity Value :=
  if o.ofSets then calling (Op.binary caller o a b) else op (Op.binary caller o a b)

def binary (leftName : String) (left : Activity Value) (op : Operator) (right : Expr) :
    Activity Value := do
  match op with
  | .matMult => unsupported c leftName
  | op => do
    let a ← left
    let b ← I.evaluate c right
    operate op a b

def entries : List DictItem → Entries → Activity Entries
  | [], es => return es
  | .spread e :: rest, es => do
    let v ← I.evaluate c e
    let es ← calling (do Op.merge es (← Op.pairsOf caller v))
    entries rest es
  | .pair k e :: rest, es => do
    let v ← I.evaluate c e
    let k ← I.evaluate c k
    let es ← op (do
      Op.look fun _ ↦ k.checkKey
      return Entries.put (← Op.store) es k v)
    entries rest es

def namedArguments : List Keyword → Entries → Activity Entries
  | [], es => return es
  | .keyword none e :: rest, es => do
    let v ← I.evaluate c e
    let es ← calling (do Op.merge es (← Op.pairsOf caller v))
    namedArguments rest es
  | .keyword (some name) e :: rest, es => do
    let v ← I.evaluate c e
    let es ← op (do return Entries.put (← Op.store) es (.text name) v)
    namedArguments rest es

def bound : Option Expr → Activity Value
  | none => return .none
  | some e => I.evaluate c e

def sliceValue (lower upper step : Option Expr) : Activity Value := do
  let a ← bound I c lower
  let b ← bound I c upper
  let s ← bound I c step
  return .slice a b s

def itemOf (v : Value) (index : Expr) : Activity Value := do
  let shape ← read (·.shape)
  match index with
  | .slice _ lower upper step => do op (Op.getItem v (← sliceValue I c lower upper step))
  | index =>
    if index.subscriptName shape == "Index" then
      let i ← guarded c none .none (I.evaluate c index)
      op (Op.getItem v i)
    else return .none

def calledName : Expr → String
  | .name _ id _ => id
  | .member _ _ attr _ => attr
  | _ => "<other>"

def apply (func : Expr) (f : Value) (args : List Value) (named : Entries) : Activity Value := do
  match f with
  | .function r => I.callFunction c r args named
  | .host h => do
    let a ← op (Arguments.ofEntries args named)
    I.callHost h a
  | f =>
    if f.isCallable then calling (do callValue f (← Arguments.ofEntries args named))
    else
      let shown ← op (Op.look f.plain)
      raise (.notAFunction (calledName func) shown)

def callNode (func : Expr) (args : List Expr) (keywords : List Keyword) : Activity Value := do
  let f ← I.evaluate c func
  let named ← namedArguments I c keywords []
  let args ← elements I c args
  each args fun v ↦ do
    let _ ← op (Op.look v.plain)
  apply I c func f args named

def joinedText : List Expr → String → Activity Value
  | [], t => return .text t
  | e :: rest, t => do
    let v ← I.evaluate c e
    let part ← op (Op.look v.plain)
    joinedText rest (t ++ part)

def formattedText (value : Expr) (spec : Option Expr) : Activity Value := do
  let v ← I.evaluate c value
  match spec with
  | none => return .text (← op (Op.look v.plain))
  | some e =>
    let spec ← I.evaluate c e
    let spec ← op (Op.look spec.plain)
    return .text (← op (Op.look fun s ↦ v.formatted s spec))

def literalNode (value : Literal) : Activity Value := do
  let shape ← read (·.shape)
  match shape.literalsByKind, value with
  | true, .bytes _ | true, .ellipsis => unsupported c value.nodeName
  | _, value => return value.toValue

def expression (e : Expr) : Activity Value := do
  match e with
  | .boolOp _ .and values => conjunction I c (.int 1) values
  | .boolOp _ .or values => disjunction I c values
  | .binOp _ left op right => do
    let shape ← read (·.shape)
    binary I c (left.nodeName shape) (I.evaluate c left) op right
  | .unaryOp _ op operand => do
    let v ← I.evaluate c operand
    Activity.op (Op.unary op v)
  | .ifExp _ test body orelse => do
    let v ← I.evaluate c test
    if v.truth (← read (·.store)) then I.evaluate c body else I.evaluate c orelse
  | .dict _ items => do op (Op.newDict (← entries I c items []))
  | .set _ elts => do
    let vs ← elements I c elts
    op (do
      for v in vs do Op.look fun _ ↦ v.checkKey
      Op.newSet (setOf (← Op.store) vs))
  | .compare _ left ops comparators => chain I c left ops comparators
  | .call _ func args keywords => callNode I c func args keywords
  | .formattedValue _ value _ spec => formattedText I c value spec
  | .joinedStr _ values => joinedText I c values ""
  | .constant _ value _ => literalNode c value
  | .member _ value attr access => memberNode I c e value attr access
  | .subscript _ value index access => do
    let v ← I.evaluate c value
    match access with
    | .load => itemOf I c v index
    | _ => return .none
  | .name _ id access => nameNode c id access
  | .list _ elts access => do
    match access with
    | .load => do
      let vs ← elements I c elts
      op (Op.newList vs)
    | _ => return .none
  | .tuple _ elts access => do
    match access with
    | .load => do return .tuple (← elements I c elts)
    | _ => return .none
  | e => do unsupported c (e.nodeName (← read (·.shape)))

end Interp

end TriggerScript
