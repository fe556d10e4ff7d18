import TriggerScript.Scope.Table

/-!
# Contexts

A context is what a script is evaluated in: the tables in which its names are looked up, the
function it is in, the tree it was given and the last error that was met.
-/

namespace TriggerScript

abbrev TableId := Nat

abbrev ContextId := Nat

structure Context where
  name : String
  /-- The table that scripts of one file share. -/
  globals : TableId
  /-- The table in which assignments bind. -/
  current : TableId
  /-- The table of what is given to an evaluation from outside. -/
  locals : TableId
  suspended : List TableId := []
  function : Option Ref := none
  file : String := ""
  tree : Option Syntax.Module := none
  /-- The last error that was met, in a short and in a long wording. -/
  error : Option String := none
  errorLong : Option String := none

end TriggerScript
