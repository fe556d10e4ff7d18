import TriggerScript.Number.Layout
import TriggerScript.Syntax.Tree
import TriggerScript.Text.Quoted

/-!
# Outlines

A uniform view of a tree: kinds of nodes with named fields. What is told about a whole tree, its
text and the names in it, is read off its outline.
-/

namespace TriggerScript.Syntax

inductive Outline where
  | node (kind : String) (fields : List (String × Outline))
  /-- A node that stands for a name; an attribute of something that is not a name has none. -/
  | reference (name : Option String) (kind : String) (fields : List (String × Outline))
  | items (elements : List Outline)
  | leaf (text : String)
  | absent

namespace Outline

def word (s : String) : Outline := .leaf (Text.quoted s)

def word? : Option String → Outline
  | some s => word s
  | none => .absent

def mark (kind : String) : Outline := .node kind []

end Outline

def Literal.render : Literal → String
  | .none => "None"
  | .bool b => if b then "True" else "False"
  | .int n => Number.intText n
  | .float x => Number.floatText x
  | .imaginary x => Number.partText x ++ "j"
  | .text s => Text.quoted s
  | .bytes bs => Text.quotedBytes bs
  | .ellipsis => "Ellipsis"

open Outline (word word? mark)

mutual

def Expr.outline : Expr → Outline
  | .boolOp _ op values =>
    .node "BoolOp" [("op", mark op.nodeName), ("values", .items (outlines values))]
  | .namedExpr _ target value =>
    .node "NamedExpr" [("target", target.outline), ("value", value.outline)]
  | .binOp _ left op right =>
    .node "BinOp" [("left", left.outline), ("op", mark op.nodeName), ("right", right.outline)]
  | .unaryOp _ op operand =>
    .node "UnaryOp" [("op", mark op.nodeName), ("operand", operand.outline)]
  | .lambda _ params body => .node "Lambda" [("args", params.outline), ("body", body.outline)]
  | .ifExp _ test body orelse =>
    .node "IfExp" [("test", test.outline), ("body", body.outline), ("orelse", orelse.outline)]
  | .dict _ items =>
    .node "Dict" [("keys", .items (keyOutlines items)), ("values", .items (valueOutlines items))]
  | .set _ elts => .node "Set" [("elts", .items (outlines elts))]
  | .listComp _ elt generators =>
    .node "ListComp" [("elt", elt.outline), ("generators", .items (clauseOutlines generators))]
  | .setComp _ elt generators =>
    .node "SetComp" [("elt", elt.outline), ("generators", .items (clauseOutlines generators))]
  | .dictComp _ key value generators =>
    .node "DictComp" [("key", key.outline), ("value", value.outline),
      ("generators", .items (clauseOutlines generators))]
  | .generatorExp _ elt generators =>
    .node "GeneratorExp" [("elt", elt.outline), ("generators", .items (clauseOutlines generators))]
  | .await _ value => .node "Await" [("value", value.outline)]
  | .yield _ value => .node "Yield" [("value", outline? value)]
  | .yieldFrom _ value => .node "YieldFrom" [("value", value.outline)]
  | .compare _ left ops comparators =>
    .node "Compare" [("left", left.outline), ("ops", .items (ops.map fun o ↦ mark o.nodeName)),
      ("comparators", .items (outlines comparators))]
  | .call _ func args keywords =>
    .node "Call" [("func", func.outline), ("args", .items (outlines args)),
      ("keywords", .items (keywordOutlines keywords))]
  | .formattedValue _ value conversion spec =>
    .node "FormattedValue" [("value", value.outline),
      ("conversion", .leaf (Number.intText conversion)), ("format_spec", outline? spec)]
  | .joinedStr _ values => .node "JoinedStr" [("values", .items (outlines values))]
  | .constant _ value kind =>
    .node "Constant" [("value", .leaf value.render), ("kind", word? kind)]
  | .member p value attr access =>
    .reference (Expr.member p value attr access).dottedName? "Attribute"
      [("value", value.outline), ("attr", word attr), ("ctx", mark access.nodeName)]
  | .subscript _ value slice access =>
    .node "Subscript" [("value", value.outline), ("slice", slice.outline),
      ("ctx", mark access.nodeName)]
  | .starred _ value access =>
    .node "Starred" [("value", value.outline), ("ctx", mark access.nodeName)]
  | .name _ id access =>
    .reference (some id) "Name" [("id", word id), ("ctx", mark access.nodeName)]
  | .list _ elts access =>
    .node "List" [("elts", .items (outlines elts)), ("ctx", mark access.nodeName)]
  | .tuple _ elts access =>
    .node "Tuple" [("elts", .items (outlines elts)), ("ctx", mark access.nodeName)]
  | .slice _ lower upper step =>
    .node "Slice" [("lower", outline? lower), ("upper", outline? upper), ("step", outline? step)]

def outlines : List Expr → List Outline
  | [] => []
  | e :: es => e.outline :: outlines es

def outline? : Option Expr → Outline
  | none => .absent
  | some e => e.outline

def keyOutlines : List DictItem → List Outline
  | [] => []
  | .pair key _ :: items => key.outline :: keyOutlines items
  | .spread _ :: items => .leaf "None" :: keyOutlines items

def valueOutlines : List DictItem → List Outline
  | [] => []
  | .pair _ value :: items => value.outline :: valueOutlines items
  | .spread value :: items => value.outline :: valueOutlines items

def clauseOutlines : List Comprehension → List Outline
  | [] => []
  | .clause target iter ifs isAsync :: rest =>
    .node "comprehension" [("target", target.outline), ("iter", iter.outline),
      ("ifs", .items (outlines ifs)), ("is_async", .leaf (if isAsync then "1" else "0"))]
      :: clauseOutlines rest

def keywordOutlines : List Keyword → List Outline
  | [] => []
  | .keyword name value :: rest =>
    .node "keyword" [("arg", word? name), ("value", value.outline)] :: keywordOutlines rest

def Parameter.outline : Parameter → Outline
  | .param name typeHint =>
    .node "arg" [("arg", word name), ("annotation", outline? typeHint)]

def parameterOutlines : List Parameter → List Outline
  | [] => []
  | p :: ps => p.outline :: parameterOutlines ps

def parameterOutline? : Option Parameter → Outline
  | none => .absent
  | some p => p.outline

def defaultOutlines : List (Option Expr) → List Outline
  | [] => []
  | none :: rest => .leaf "None" :: defaultOutlines rest
  | some e :: rest => e.outline :: defaultOutlines rest

def Parameters.outline : Parameters → Outline
  | .params posOnly regular varArg kwOnly kwDefaults kwArg defaults =>
    .node "arguments" [("posonlyargs", .items (parameterOutlines posOnly)),
      ("args", .items (parameterOutlines regular)), ("vararg", parameterOutline? varArg),
      ("kwonlyargs", .items (parameterOutlines kwOnly)),
      ("kw_defaults", .items (defaultOutlines kwDefaults)), ("kwarg", parameterOutline? kwArg),
      ("defaults", .items (outlines defaults))]

end

def Alias.outline (a : Alias) : Outline :=
  .node "alias" [("name", word a.name), ("asname", word? a.asName)]

def WithItem.outline (i : WithItem) : Outline :=
  .node "withitem" [("context_expr", i.context.outline), ("optional_vars", outline? i.target)]

mutual

def Pattern.outline : Pattern → Outline
  | .value _ e => .node "MatchValue" [("value", e.outline)]
  | .singleton _ value => .node "MatchSingleton" [("value", .leaf value.render)]
  | .sequence _ patterns => .node "MatchSequence" [("patterns", .items (patternOutlines patterns))]
  | .mapping _ keys patterns rest =>
    .node "MatchMapping" [("keys", .items (outlines keys)),
      ("patterns", .items (patternOutlines patterns)), ("rest", word? rest)]
  | .construct _ cls patterns names named =>
    .node "MatchClass" [("cls", cls.outline), ("patterns", .items (patternOutlines patterns)),
      ("kwd_attrs", .items (names.map word)), ("kwd_patterns", .items (patternOutlines named))]
  | .star _ name => .node "MatchStar" [("name", word? name)]
  | .capture _ pattern name =>
    .node "MatchAs" [("pattern", patternOutline? pattern), ("name", word? name)]
  | .alternatives _ patterns => .node "MatchOr" [("patterns", .items (patternOutlines patterns))]

def patternOutlines : List Pattern → List Outline
  | [] => []
  | p :: ps => p.outline :: patternOutlines ps

def patternOutline? : Option Pattern → Outline
  | none => .absent
  | some p => p.outline

end

mutual

def Stmt.outline : Stmt → Outline
  | .functionDef _ isAsync name params body decorators returns =>
    .node (if isAsync then "AsyncFunctionDef" else "FunctionDef")
      [("name", word name), ("args", params.outline), ("body", .items (stmtOutlines body)),
       ("decorator_list", .items (outlines decorators)), ("returns", outline? returns)]
  | .classDef _ name bases keywords body decorators =>
    .node "ClassDef" [("name", word name), ("bases", .items (outlines bases)),
      ("keywords", .items (keywordOutlines keywords)), ("body", .items (stmtOutlines body)),
      ("decorator_list", .items (outlines decorators))]
  | .ret _ value => .node "Return" [("value", outline? value)]
  | .delete _ targets => .node "Delete" [("targets", .items (outlines targets))]
  | .assign _ targets value =>
    .node "Assign" [("targets", .items (outlines targets)), ("value", value.outline)]
  | .augAssign _ target op value =>
    .node "AugAssign" [("target", target.outline), ("op", mark op.nodeName),
      ("value", value.outline)]
  | .annAssign _ target typeHint value simple =>
    .node "AnnAssign" [("target", target.outline), ("annotation", typeHint.outline),
      ("value", outline? value), ("simple", .leaf (if simple then "1" else "0"))]
  | .forLoop _ isAsync target iter body orelse =>
    .node (if isAsync then "AsyncFor" else "For") [("target", target.outline),
      ("iter", iter.outline), ("body", .items (stmtOutlines body)),
      ("orelse", .items (stmtOutlines orelse))]
  | .whileLoop _ test body orelse =>
    .node "While" [("test", test.outline), ("body", .items (stmtOutlines body)),
      ("orelse", .items (stmtOutlines orelse))]
  | .cond _ test body orelse =>
    .node "If" [("test", test.outline), ("body", .items (stmtOutlines body)),
      ("orelse", .items (stmtOutlines orelse))]
  | .withBlock _ isAsync items body =>
    .node (if isAsync then "AsyncWith" else "With")
      [("items", .items (items.map WithItem.outline)), ("body", .items (stmtOutlines body))]
  | .matchBlock _ subject cases =>
    .node "Match" [("subject", subject.outline), ("cases", .items (caseOutlines cases))]
  | .raiseError _ exc cause => .node "Raise" [("exc", outline? exc), ("cause", outline? cause)]
  | .tryBlock _ isStar body handlers orelse finalBody =>
    .node (if isStar then "TryStar" else "Try") [("body", .items (stmtOutlines body)),
      ("handlers", .items (handlerOutlines handlers)), ("orelse", .items (stmtOutlines orelse)),
      ("finalbody", .items (stmtOutlines finalBody))]
  | .assertion _ test msg => .node "Assert" [("test", test.outline), ("msg", outline? msg)]
  | .importNames _ names => .node "Import" [("names", .items (names.map Alias.outline))]
  | .importFrom _ module names level =>
    .node "ImportFrom" [("module", word? module), ("names", .items (names.map Alias.outline)),
      ("level", .leaf (Number.natText level))]
  | .globalNames _ names => .node "Global" [("names", .items (names.map word))]
  | .nonlocalNames _ names => .node "Nonlocal" [("names", .items (names.map word))]
  | .expr _ value => .node "Expr" [("value", value.outline)]
  | .pass _ => .node "Pass" []
  | .breakLoop _ => .node "Break" []
  | .continueLoop _ => .node "Continue" []

def stmtOutlines : List Stmt → List Outline
  | [] => []
  | s :: ss => s.outline :: stmtOutlines ss

def caseOutlines : List MatchCase → List Outline
  | [] => []
  | .mk pattern guard body :: rest =>
    .node "match_case" [("pattern", pattern.outline), ("guard", outline? guard),
      ("body", .items (stmtOutlines body))] :: caseOutlines rest

def handlerOutlines : List Handler → List Outline
  | [] => []
  | .mk _ type name body :: rest =>
    .node "ExceptHandler" [("type", outline? type), ("name", word? name),
      ("body", .items (stmtOutlines body))] :: handlerOutlines rest

end

def Module.outline (m : Module) : Outline :=
  .node "Module" [("body", .items (stmtOutlines m.body)), ("type_ignores", .items [])]

namespace Outline

/-! ### The text of a tree -/

/-- The text of a field that is present. -/
def isAbsent : Outline → Bool
  | .absent => true
  | _ => false

mutual

def render : Outline → String
  | .node kind fields => kind ++ "(" ++ String.intercalate ", " (renderFields fields) ++ ")"
  | .reference _ kind fields => kind ++ "(" ++ String.intercalate ", " (renderFields fields) ++ ")"
  | .items elements => "[" ++ String.intercalate ", " (renderAll elements) ++ "]"
  | .leaf text => text
  | .absent => "None"

def renderFields : List (String × Outline) → List String
  | [] => []
  | (name, field) :: rest =>
    if field.isAbsent then renderFields rest
    else (name ++ "=" ++ field.render) :: renderFields rest

def renderAll : List Outline → List String
  | [] => []
  | o :: os => o.render :: renderAll os

end

/-! ### The names in a tree -/

mutual

def references : Outline → List (Option String)
  | .node _ fields => fieldReferences fields
  | .reference name _ _ => [name]
  | .items elements => allReferences elements
  | .leaf _ => []
  | .absent => []

def fieldReferences : List (String × Outline) → List (Option String)
  | [] => []
  | (_, field) :: rest => field.references ++ fieldReferences rest

def allReferences : List Outline → List (Option String)
  | [] => []
  | o :: os => o.references ++ allReferences os

end

end Outline

def Module.dump (m : Module) : String := m.outline.render

def Module.names (m : Module) : List (Option String) := m.outline.references.eraseDups

end TriggerScript.Syntax
