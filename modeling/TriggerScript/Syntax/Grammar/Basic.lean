import TriggerScript.Syntax.Rule
import TriggerScript.Syntax.Target

/-!
# The recursive rules of the grammar

The rules of the grammar refer to each other. `Rules` holds those that a rule may use for a part
nested inside its own text; the grammar is a function from such a record to the next one, and
`Parser` iterates it as often as parts can be nested.
-/

namespace TriggerScript.Syntax

structure Rules where
  expression : Rule Expr
  disjunction : Rule Expr
  inversion : Rule Expr
  bitwiseOr : Rule Expr
  factor : Rule Expr
  namedExpression : Rule Expr
  starNamedExpression : Rule Expr
  starExpressions : Rule Expr
  yieldExpr : Rule Expr
  starTargets : Rule Expr
  starTarget : Rule Expr
  targetWithStarAtom : Rule Expr
  singleTarget : Rule Expr
  delTarget : Rule Expr
  pattern : Rule Pattern
  closedPattern : Rule Pattern
  statements : Rule (List Stmt)
  elifStmt : Rule Stmt

/-- The rules below the deepest nesting that is read. -/
def Rules.exhausted : Rules where
  expression := Rule.stopHere "too many nested parts"
  disjunction := Rule.stopHere "too many nested parts"
  inversion := Rule.stopHere "too many nested parts"
  bitwiseOr := Rule.stopHere "too many nested parts"
  factor := Rule.stopHere "too many nested parts"
  namedExpression := Rule.stopHere "too many nested parts"
  starNamedExpression := Rule.stopHere "too many nested parts"
  starExpressions := Rule.stopHere "too many nested parts"
  yieldExpr := Rule.stopHere "too many nested parts"
  starTargets := Rule.stopHere "too many nested parts"
  starTarget := Rule.stopHere "too many nested parts"
  targetWithStarAtom := Rule.stopHere "too many nested parts"
  singleTarget := Rule.stopHere "too many nested parts"
  delTarget := Rule.stopHere "too many nested parts"
  pattern := Rule.stopHere "too many nested parts"
  closedPattern := Rule.stopHere "too many nested parts"
  statements := Rule.stopHere "too many nested parts"
  elifStmt := Rule.stopHere "too many nested parts"

namespace Grammar

open Rule

def lineOf (e : Expr) : Nat := e.pos.line

def withoutMistakes {α : Type} (r : Rule α) : Rule α := fun s m ↦ r { s with diagnosing := false } m

def softKeyword : Rule Token :=
  token fun t ↦ t.kind == .name && ["_", "case", "match"].contains t.text

def nameExpr (access : Access) : Rule Expr := do
  let t ← name
  pure (.name t.pos t.text access)

def stopAtTarget {α : Type} (use : TargetUse) (e : Expr) : Rule α :=
  match e.invalidTarget? use with
  | some bad =>
    stopAt (lineOf bad)
      ((if use = .delete then "cannot delete " else "cannot assign to ") ++ bad.describe)
  | none => fail

def maybeComma : Rule Unit := do let _ ← opt (op ","); pure ()

end Grammar

end TriggerScript.Syntax
