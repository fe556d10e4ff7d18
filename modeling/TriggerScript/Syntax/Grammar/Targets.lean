import TriggerScript.Syntax.Grammar.Expression

/-!
# Targets of assignments, loops and deletions
-/

namespace TriggerScript.Syntax.Grammar

open Rule

variable (R : Rules)

def moreAhead : Rule Unit := ahead (op "(" <|> op "[" <|> op ".")

def nothingAhead : Rule Unit := notAhead (op "(" <|> op "[" <|> op ".")

def targetPrimary : Rule Expr := keep 11 do
  let p ← here
  let e ← atom R
  moreAhead
  chain (fun e ↦ do
    let e' ← trailer R p e
    moreAhead
    pure e') e

def memberTarget (access : Access) : Rule Expr :=
  (do
    let p ← here
    let e ← targetPrimary R
    let _ ← op "."
    let t ← name
    nothingAhead
    pure (.member p e t.text access))
  <|> (do
    let p ← here
    let e ← targetPrimary R
    let _ ← op "["
    let s ← slices R
    let _ ← op "]"
    nothingAhead
    pure (.subscript p e s access))

def starTargetsListSeq : Rule (List Expr) := do
  let es ← sepBy1 R.starTarget (op ",")
  maybeComma
  pure es

def starTargetsTupleSeq : Rule (List Expr) := do
  let e ← R.starTarget
  (do
    let es ← many1 (do let _ ← op ","; R.starTarget)
    maybeComma
    pure (e :: es))
  <|> (do let _ ← op ","; pure [e])

def starAtom : Rule Expr :=
  nameExpr .store
  <|> (do
    let _ ← op "("
    let e ← R.targetWithStarAtom
    let _ ← op ")"
    pure (e.withAccess .store))
  <|> (do
    let p ← here
    let _ ← op "("
    let es ← opt (starTargetsTupleSeq R)
    let _ ← op ")"
    pure (.tuple p (es.getD []) .store))
  <|> (do
    let p ← here
    let _ ← op "["
    let es ← opt (starTargetsListSeq R)
    let _ ← op "]"
    pure (.list p (es.getD []) .store))

def targetWithStarAtom : Rule Expr := keep 12 (memberTarget R .store <|> starAtom R)

def starTarget : Rule Expr := keep 13
  ((do
    let p ← here
    let _ ← op "*"
    notAhead (op "*")
    let e ← R.starTarget
    pure (.starred p (e.withAccess .store) .store))
  <|> targetWithStarAtom R)

def starTargets : Rule Expr :=
  (do let e ← starTarget R; notAhead (op ","); pure e)
  <|> (do
    let p ← here
    let e ← starTarget R
    let es ← many (do let _ ← op ","; starTarget R)
    maybeComma
    pure (.tuple p (e :: es) .store))

def singleTarget : Rule Expr :=
  memberTarget R .store
  <|> nameExpr .store
  <|> (do let _ ← op "("; let e ← R.singleTarget; let _ ← op ")"; pure e)

def delTargets : Rule (List Expr) := do
  let es ← sepBy1 R.delTarget (op ",")
  maybeComma
  pure es

def delTarget : Rule Expr := keep 14
  (memberTarget R .delete
  <|> nameExpr .delete
  <|> (do
    let _ ← op "("
    let e ← R.delTarget
    let _ ← op ")"
    pure (e.withAccess .delete))
  <|> (do
    let p ← here
    let _ ← op "("
    let es ← opt (delTargets R)
    let _ ← op ")"
    pure (.tuple p (es.getD []) .delete))
  <|> (do
    let p ← here
    let _ ← op "["
    let es ← opt (delTargets R)
    let _ ← op "]"
    pure (.list p (es.getD []) .delete)))

end TriggerScript.Syntax.Grammar
