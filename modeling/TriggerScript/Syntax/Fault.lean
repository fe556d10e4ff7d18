/-!
# Syntax faults

Why a text is not a script: a class, a wording and, in nearly all cases, a line.
-/

namespace TriggerScript.Syntax

inductive FaultKind where
  | plain
  | indentation
  | tabs
  deriving Repr, DecidableEq

def FaultKind.title : FaultKind → String
  | plain => "SyntaxError"
  | indentation => "IndentationError"
  | tabs => "TabError"

structure Fault where
  kind : FaultKind := .plain
  message : String
  line : Option Nat
  deriving Repr, DecidableEq

end TriggerScript.Syntax
