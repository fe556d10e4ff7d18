import TriggerScript.Evaluation.Expression
import TriggerScript.Text.Outdent

/-!
# Statements

What one layer of a statement does, given how its parts are evaluated.

A loop over nothing at all fails, because it asks how its last round ended. In the `else` part of a
loop only `return` is heeded. An augmented assignment evaluates a binary operation that stands
nowhere in the script, so its errors have no line.
-/

namespace TriggerScript

open Syntax (Expr Stmt Operator Alias)

namespace Interp

open Activity

variable (I : Interp) (c : ContextId)

/-! ### Imports -/

def importModule (wording : String) (name : Option String) : Activity String := do
  let shown := name.getD "None"
  match name with
  | some n =>
    if !importable.contains n then raise (.importRefused wording shown)
    else if n == "number" then raise (.noSuchModule n)
    else return n
  | none => raise (.importRefused wording shown)

def importNames (names : List Alias) : Activity Unit :=
  each names fun a ↦ do
    let m ← importModule "of" (some a.name)
    bindCurrent c (some (a.asName.getD a.name)) (.module m)

def importFrom (module : Option String) (names : List Alias) : Activity Unit := do
  let m ← importModule "from" module
  each names fun a ↦ do
    let v ← memberOf (.module m) a.name (getMember · a.name)
    bindCurrent c (some (a.asName.getD a.name)) v

/-! ### Loops -/

abbrev LastRound := Option Flow

def round (stmts : List Stmt) : Activity Flow := I.sequence c (.value .none) stmts

def otherwise : List Stmt → Activity Flow
  | [] => return .value .none
  | s :: rest => do
    match ← I.execute c s with
    | .answer v => return .answer v
    | _ => otherwise rest

def finishLoop (last : Flow) (orelse : List Stmt) : Activity Flow :=
  match last with
  | .exit => return .value .none
  | .answer v => return .answer v
  | _ => otherwise I c orelse

def forRounds (target : Key) (stmts : List Stmt) (r : Ref) : Nat → LastRound → Activity LastRound
  | 0, _ => outOfFuel
  | n + 1, last => do
    match ← calling (Op.next caller r) with
    | none => return last
    | some v =>
      bindCurrent c target v
      let flow ← round I c stmts
      match flow with
      | .exit | .answer _ => return some flow
      | _ => forRounds target stmts r n (some flow)

def whileRounds (test : Expr) (stmts : List Stmt) : Nat → Activity Flow
  | 0 => outOfFuel
  | n + 1 => do
    let v ← I.evaluate c test
    if v.truth (← read (·.store)) then
      let flow ← round I c stmts
      match flow with
      | .exit | .answer _ => return flow
      | _ => whileRounds test stmts n
    else return .value v

def targetKey (v : Value) : Key :=
  match v with
  | .text t => some t
  | _ => none

def forLoop (target iter : Expr) (stmts orelse : List Stmt) : Activity Flow := do
  let key := targetKey (← I.evaluate c target)
  let v ← I.evaluate c iter
  let r ← op (Op.iterate v)
  match ← forRounds I c key stmts r roundLimit none with
  | none => raise .noRound
  | some last => finishLoop I c last orelse

/-! ### Assignment -/

def assignItem (base index : Expr) (value : Value) : Activity Unit := do
  let shape ← read (·.shape)
  let v ← I.evaluate c base
  match index with
  | .slice _ lower upper step => do
    let i ← sliceValue I c lower upper step
    calling (Op.setItem caller v i value)
  | index =>
    if index.subscriptName shape == "Index" then
      let i ← I.evaluate c index
      calling (Op.setItem caller v i value)

def bindName (name : String) (value : Value) : Activity Unit :=
  amend fun w ↦ w.assign (w.context c) name value

def assignTarget (value : Value) (target : Expr) : Activity Unit := do
  match target with
  | .subscript _ base index _ => assignItem I c base index value
  | target =>
    match ← I.evaluate c target with
    | .text name =>
      if name.toList.contains '.' then setVariable name value .none
      else bindName c name value
    | v => raise (missingMember (← read (·.store)) v "find")

def rebind (name value : Value) : Activity Unit := do
  let w ← world
  let ctx ← context c
  match name with
  | .text name =>
    if !w.isGlobal ctx name && !w.isNonlocal ctx name && w.variableExists name then
      setVariable name value .none
    else bindName c name value
  | v => raise (missingMember w.store v "split")

def targetNode (name : Value) : Activity Value := do
  match name with
  | .text t => defined (← keyValue c (some t))
  | .none => defined (← keyValue c none)
  | v => raise (missingMember (← read (·.store)) v "split")

def targetValue (name : Value) : Activity Value := guarded c none .none (targetNode c name)

def augAssign (target : Expr) (operator : Operator) (value : Expr) : Activity Unit := do
  let name ← I.evaluate c target
  let v ← guarded c none .none
    (do defined (← binary I c "Name" (targetValue c name) operator value))
  rebind c name v

/-! ### Deletion -/

def deleteEach (v : Value) (r : Ref) : Nat → Activity Unit
  | 0 => outOfFuel
  | n + 1 => do
    match ← op (Op.next caller r) with
    | none => return ()
    | some i =>
      calling (Op.deleteItem v i)
      deleteEach v r n

def deleteItem (base index : Expr) : Activity Unit := do
  let shape ← read (·.shape)
  let v ← I.evaluate c base
  match index with
  | .slice _ lower upper step => do
    let i ← sliceValue I c lower upper step
    calling (Op.deleteItem v i)
  | index =>
    let kind := index.subscriptName shape
    if kind == "Index" then
      match ← I.evaluate c index with
      | .list r => do
        let cursor ← op (Op.iterate (.list r))
        deleteEach v cursor roundLimit
      | i => calling (Op.deleteItem v i)
    else
      raise (.stated .notImplemented ((← context c).name ++ ": not implemented slice type <ast."
        ++ kind ++ " object> in del"))

def unbindName (name : String) : Activity Unit := amend fun w ↦ w.unbind (w.context c) name

def deleteTarget (target : Expr) : Activity Unit := do
  match target with
  | .subscript _ base index _ => deleteItem I c base index
  | .name _ id _ => unbindName c id
  | target =>
    let kind := target.nodeName (← read (·.shape))
    raise (.stated .notImplemented ("unknown target type <ast." ++ kind ++ " object> in del"))

/-! ### Functions -/

def docOf (stmts : List Stmt) : Option String :=
  match stmts with
  | .expr _ (.constant _ (.text t) _) :: _ => some (String.ofList (Text.outdent t.toList))
  | _ => none

def decorators (name : String) : List Expr → Activity (List (String × Option (List Value)))
  | [] => return []
  | .call _ (.name _ id _) args _ :: rest => do
    let vs ← collect (I.evaluate c) args
    let others ← decorators name rest
    return (id, some vs) :: others
  | .name _ id _ :: rest => do
    let others ← decorators name rest
    return (id, none) :: others
  | e :: rest => do
    let kind := e.nodeName (← read (·.shape))
    say "eval" .error ("function " ++ name ++ " has unexpected decorator type <ast." ++ kind
      ++ " object>")
    decorators name rest

def defaultValue (e : Option Expr) : Activity (Option Value) := do
  match e with
  | none => return none
  | some e => return some (← I.evaluate c e)

def defineFunction (name : String) (params : Syntax.Parameters) (stmts : List Stmt)
    (decs : List Expr) : Activity Unit := do
  match params with
  | .params _ _ _ _ kwDefaults _ defaults =>
    let defaults ← collect (I.evaluate c) defaults
    let keywordDefaults ← collect (defaultValue I c) kwDefaults
    let decorators ← decorators I c name decs
    let f : Function :=
      { name, params, body := stmts, doc := docOf stmts, defaults, keywordDefaults, decorators }
    let r ← modifyGet (·.addFunction f)
    bindCurrent c (some name) (.function r)

def declare (scoping : Scoping) (names : List String) : Activity Unit := do
  match (← context c).function with
  | none => return ()
  | some r => each names fun name ↦ modify (·.updateFunction r (·.declare name true scoping))

/-! ### All statements -/

def statementNode (s : Stmt) : Activity Flow := do
  let done : Flow := .value .none
  match s with
  | .functionDef _ false name params stmts decs _ => do
    defineFunction I c name params stmts decs
    return done
  | .ret _ value => do
    match value with
    | some e => return .answer (← I.evaluate c e)
    | none => do
      guarded c none () (unsupported c "NoneType")
      return .answer .none
  | .delete _ targets => do
    each targets (deleteTarget I c)
    return done
  | .assign _ targets value => do
    let v ← I.evaluate c value
    each targets (assignTarget I c v)
    return done
  | .augAssign _ target operator value => do
    augAssign I c target operator value
    return done
  | .forLoop _ false target iter stmts orelse => forLoop I c target iter stmts orelse
  | .whileLoop _ test stmts orelse => do
    finishLoop I c (← whileRounds I c test stmts roundLimit) orelse
  | .cond _ test stmts orelse => do
    let v ← I.evaluate c test
    I.sequence c (.value .none) (if v.truth (← read (·.store)) then stmts else orelse)
  | .importNames _ names => do
    importNames c names
    return done
  | .importFrom _ module names _ => do
    importFrom c module names
    return done
  | .globalNames _ names => do
    declare c .global names
    return done
  | .nonlocalNames _ names => do
    declare c .nonlocal names
    return done
  | .expr _ e => do return .value (← I.evaluate c e)
  | .pass _ => return done
  | .breakLoop _ => return .exit
  | .continueLoop _ => return .next
  | s => unsupported c s.nodeName

/-! ### The whole tree -/

/-- Evaluation that goes so many layers deep. What happens at the limit is not described: an error
there is not dealt with where it arises, since dealing with it fails for want of depth as well. -/
def upTo : Nat → Interp
  | 0 => ⟨fun _ _ ↦ outOfFuel, fun _ _ ↦ outOfFuel⟩
  | n + 1 => ⟨fun c e ↦ (upTo n).expression c e, fun c s ↦ (upTo n).statementNode c s⟩

def depth : Nat := 200

def full : Interp := upTo depth

end Interp

end TriggerScript
