import TriggerScript.Syntax.Tree

/-!
# Targets

Which expressions can be bound or deleted, and how an expression is called in a message.
-/

namespace TriggerScript.Syntax

def Expr.describe : Expr → String
  | .member .. => "attribute"
  | .subscript .. => "subscript"
  | .starred .. => "starred"
  | .name .. => "name"
  | .list .. => "list"
  | .tuple .. => "tuple"
  | .lambda .. => "lambda"
  | .call .. => "function call"
  | .boolOp .. | .binOp .. | .unaryOp .. => "expression"
  | .generatorExp .. => "generator expression"
  | .yield .. | .yieldFrom .. => "yield expression"
  | .await .. => "await expression"
  | .listComp .. => "list comprehension"
  | .setComp .. => "set comprehension"
  | .dictComp .. => "dict comprehension"
  | .dict .. => "dict literal"
  | .set .. => "set display"
  | .joinedStr .. | .formattedValue .. => "f-string expression"
  | .constant _ v _ =>
    match v with
    | .none => "None"
    | .bool true => "True"
    | .bool false => "False"
    | .ellipsis => "ellipsis"
    | _ => "literal"
  | .compare .. => "comparison"
  | .ifExp .. => "conditional expression"
  | .namedExpr .. => "named expression"
  | .slice .. => "slice"

inductive TargetUse where
  | assign
  | loop
  | delete
  deriving DecidableEq

mutual

def Expr.invalidTarget? (use : TargetUse) : Expr → Option Expr
  | .list _ elts _ => invalidTargetIn? use elts
  | .tuple _ elts _ => invalidTargetIn? use elts
  | .starred p value access =>
    if use = .delete then some (.starred p value access) else value.invalidTarget? use
  | .compare p left ops comparators =>
    if use = .loop then
      match ops with
      | .isIn :: _ => left.invalidTarget? use
      | _ => none
    else some (.compare p left ops comparators)
  | .name .. | .subscript .. | .member .. => none
  | e => some e

def invalidTargetIn? (use : TargetUse) : List Expr → Option Expr
  | [] => none
  | e :: es =>
    match e.invalidTarget? use with
    | some bad => some bad
    | none => invalidTargetIn? use es

end

mutual

def Expr.withAccess (access : Access) : Expr → Expr
  | .name p id _ => .name p id access
  | .tuple p elts _ => .tuple p (withAccessAll access elts) access
  | .list p elts _ => .list p (withAccessAll access elts) access
  | .subscript p value slice _ => .subscript p value slice access
  | .member p value attr _ => .member p value attr access
  | .starred p value _ => .starred p (value.withAccess access) access
  | e => e

def withAccessAll (access : Access) : List Expr → List Expr
  | [] => []
  | e :: es => e.withAccess access :: withAccessAll access es

end

end TriggerScript.Syntax
