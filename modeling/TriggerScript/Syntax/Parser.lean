import TriggerScript.Syntax.Grammar.Statement

/-!
# Reading a script

The grammar ties a record of rules for nested parts to the record for the parts around them.
Iterating it once for every token is enough, because each nesting reads at least one token.
-/

namespace TriggerScript.Syntax

open Grammar

/-- The rules for parts whose nested parts are read with `R`. -/
def Rules.around (R : Rules) : Rules where
  expression := Grammar.expression R
  disjunction := Grammar.disjunction R
  inversion := Grammar.inversion R
  bitwiseOr := Grammar.bitwiseOr R
  factor := Grammar.factor R
  namedExpression := Grammar.namedExpression R
  starNamedExpression := Grammar.starNamedExpression R
  starExpressions := Grammar.starExpressions R
  yieldExpr := Grammar.yieldExpr R
  starTargets := Grammar.starTargets R
  starTarget := Grammar.starTarget R
  targetWithStarAtom := Grammar.targetWithStarAtom R
  singleTarget := Grammar.singleTarget R
  delTarget := Grammar.delTarget R
  pattern := Grammar.pattern R
  closedPattern := Grammar.closedPattern R
  statements := Grammar.statements R
  elifStmt := Grammar.elifStmt R

def Rules.upTo : Nat → Rules
  | 0 => .exhausted
  | n + 1 => (Rules.upTo n).around

def scriptRule (R : Rules) : Rule (List Stmt) := do
  let ss ← Rule.opt (Grammar.statements R)
  let _ ← Rule.kind .endMarker
  pure (ss.getD [])

def Module.parse (text : String) : Except Fault Module :=
  let cs := text.toList
  if cs.contains (Char.ofNat 0) then
    .error { message := "source code string cannot contain null bytes", line := none }
  else
    (Rule.parse (scriptRule (.upTo (cs.length + 10))) (tokenize cs ⟨1, 0⟩) false).map fun body ↦
      ⟨body⟩

end TriggerScript.Syntax
