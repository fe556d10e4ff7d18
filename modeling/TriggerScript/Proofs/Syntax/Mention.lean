import TriggerScript.Syntax.Outline

/-!
# The names that a tree mentions

A name or an attribute is *mentioned* in a phrase if it can be reached through parts, but not
through those of another attribute: `a.b.c` is one mention, and `a.b` and `a` within it are none.
What is listed is what is mentioned, by induction over the tree (`Phrase.mem_references_iff`,
`Module.mem_names_iff`).
-/

namespace TriggerScript.Syntax

open Syntax.Expr

/-! ### Parts -/

def DictItem.key? : DictItem → Option Expr
  | pair key _ => some key
  | spread _ => none

def DictItem.value : DictItem → Expr
  | pair _ value | spread value => value

def Comprehension.parts : Comprehension → List Expr
  | clause target iter ifs _ => target :: iter :: ifs

def Keyword.value : Keyword → Expr
  | keyword _ value => value

def Parameter.typeHint? : Parameter → Option Expr
  | param _ typeHint => typeHint

def Parameters.parts : Parameters → List Expr
  | params posOnly regular varArg kwOnly kwDefaults kwArg defaults =>
    posOnly.flatMap (·.typeHint?.toList) ++ (regular.flatMap (·.typeHint?.toList) ++
      (varArg.toList.flatMap (·.typeHint?.toList) ++ (kwOnly.flatMap (·.typeHint?.toList) ++
        (kwDefaults.flatMap (·.toList) ++
          (kwArg.toList.flatMap (·.typeHint?.toList) ++ defaults)))))

def Expr.parts : Expr → List Expr
  | boolOp _ _ values | joinedStr _ values => values
  | namedExpr _ target value => [target, value]
  | binOp _ left _ right => [left, right]
  | unaryOp _ _ operand => [operand]
  | lambda _ params body => params.parts ++ [body]
  | ifExp _ test body orelse => [test, body, orelse]
  | dict _ items => items.flatMap (·.key?.toList) ++ items.map (·.value)
  | set _ elts | list _ elts _ | tuple _ elts _ => elts
  | listComp _ elt generators | setComp _ elt generators | generatorExp _ elt generators =>
    elt :: generators.flatMap (·.parts)
  | dictComp _ key value generators => key :: value :: generators.flatMap (·.parts)
  | await _ value | yieldFrom _ value | member _ value _ _ | starred _ value _ => [value]
  | yield _ value => value.toList
  | compare _ left _ comparators => left :: comparators
  | call _ func args keywords => func :: (args ++ keywords.map (·.value))
  | formattedValue _ value _ spec => value :: spec.toList
  | subscript _ value index _ => [value, index]
  | slice _ lower upper step => lower.toList ++ (upper.toList ++ step.toList)
  | constant .. | name .. => []

/-- An expression, a statement or a pattern. -/
inductive Phrase where
  | expr (e : Expr)
  | stmt (s : Stmt)
  | pattern (p : Pattern)

namespace Phrase

def ofItem (i : WithItem) : List Phrase := expr i.context :: i.target.toList.map expr

def ofCase : MatchCase → List Phrase
  | .mk p guard body => pattern p :: (guard.toList.map expr ++ body.map stmt)

def ofHandler : Handler → List Phrase
  | .mk _ type _ body => type.toList.map expr ++ body.map stmt

def ofStmt : Stmt → List Phrase
  | .functionDef _ _ _ params body decorators returns =>
    params.parts.map expr ++ (body.map stmt ++ (decorators.map expr ++ returns.toList.map expr))
  | .classDef _ _ bases keywords body decorators =>
    bases.map expr ++ (keywords.map (expr ·.value) ++ (body.map stmt ++ decorators.map expr))
  | .ret _ value => value.toList.map expr
  | .delete _ targets => targets.map expr
  | .assign _ targets value => targets.map expr ++ [expr value]
  | .augAssign _ target _ value => [expr target, expr value]
  | .annAssign _ target typeHint value _ => expr target :: expr typeHint :: value.toList.map expr
  | .forLoop _ _ target iter body orelse =>
    expr target :: expr iter :: (body.map stmt ++ orelse.map stmt)
  | .whileLoop _ test body orelse | .cond _ test body orelse =>
    expr test :: (body.map stmt ++ orelse.map stmt)
  | .withBlock _ _ items body => items.flatMap ofItem ++ body.map stmt
  | .matchBlock _ subject cases => expr subject :: cases.flatMap ofCase
  | .raiseError _ exc cause => exc.toList.map expr ++ cause.toList.map expr
  | .tryBlock _ _ body handlers orelse finalBody =>
    body.map stmt ++ (handlers.flatMap ofHandler ++ (orelse.map stmt ++ finalBody.map stmt))
  | .assertion _ test msg => expr test :: msg.toList.map expr
  | .expr _ value => [expr value]
  | .importNames .. | .importFrom .. | .globalNames .. | .nonlocalNames .. | .pass _ | .breakLoop _
  | .continueLoop _ => []

def ofPattern : Pattern → List Phrase
  | .value _ e => [expr e]
  | .sequence _ patterns | .alternatives _ patterns => patterns.map pattern
  | .mapping _ keys patterns _ => keys.map expr ++ patterns.map pattern
  | .construct _ cls patterns _ named => expr cls :: (patterns.map pattern ++ named.map pattern)
  | .capture _ p _ => p.toList.map pattern
  | .singleton .. | .star .. => []

def parts : Phrase → List Phrase
  | expr e => e.parts.map expr
  | stmt s => ofStmt s
  | pattern p => ofPattern p

def outline : Phrase → Outline
  | expr e => e.outline
  | stmt s => s.outline
  | pattern p => p.outline

end Phrase

def Expr.isReference : Expr → Bool
  | name .. | member .. => true
  | _ => false

def Phrase.isReference : Phrase → Bool
  | expr e => e.isReference
  | _ => false

/-- The name or attribute is reached through parts, and not inside another one. -/
inductive Phrase.Mentions : Phrase → Expr → Prop
  | self {e : Expr} (h : e.isReference = true) : Mentions (.expr e) e
  | part {p q : Phrase} {e : Expr} (hp : p.isReference = false) (hq : q ∈ p.parts)
      (h : Mentions q e) : Mentions p e

def Module.Mentions (m : Module) (e : Expr) : Prop := ∃ s ∈ m.body, Phrase.Mentions (.stmt s) e

/-! ### References of outlines -/

namespace Outline

@[simp] theorem references_node (kind : String) (fields : List (String × Outline)) :
    (node kind fields).references = fieldReferences fields := rfl

@[simp] theorem references_items (elements : List Outline) :
    (items elements).references = allReferences elements := rfl

@[simp] theorem references_leaf (text : String) : (leaf text).references = [] := rfl

@[simp] theorem references_absent : absent.references = [] := rfl

@[simp] theorem fieldReferences_nil : fieldReferences [] = [] := rfl

@[simp] theorem fieldReferences_cons (name : String) (field : Outline)
    (rest : List (String × Outline)) :
    fieldReferences ((name, field) :: rest) = field.references ++ fieldReferences rest := rfl

@[simp] theorem allReferences_nil : allReferences [] = [] := rfl

@[simp] theorem allReferences_cons (o : Outline) (os : List Outline) :
    allReferences (o :: os) = o.references ++ allReferences os := rfl

@[simp] theorem references_word (s : String) : (word s).references = [] := references_leaf _

@[simp] theorem references_word? (s : Option String) : (word? s).references = [] := by
  cases s with
  | none => exact references_absent
  | some s => exact references_word s

@[simp] theorem references_mark (kind : String) : (mark kind).references = [] := by
  rw [mark, references_node, fieldReferences_nil]

theorem allReferences_map_eq_nil {α : Type} {f : α → Outline} (h : ∀ x, (f x).references = [])
    (xs : List α) : allReferences (xs.map f) = [] := by
  induction xs with
  | nil => exact allReferences_nil
  | cons x rest ih => rw [List.map_cons, allReferences_cons, h, ih, List.append_nil]

end Outline

open Outline (allReferences)

section Lists

@[simp] theorem allReferences_outlines (es : List Expr) :
    allReferences (outlines es) = es.flatMap (·.outline.references) := by
  induction es with
  | nil => simp [outlines]
  | cons e rest ih => simp [outlines, ih]

@[simp] theorem references_outline? (e : Option Expr) :
    (outline? e).references = e.toList.flatMap (·.outline.references) := by
  cases e <;> simp [outline?]

@[simp] theorem allReferences_keyOutlines (items : List DictItem) :
    allReferences (keyOutlines items) =
      (items.flatMap (·.key?.toList)).flatMap (·.outline.references) := by
  induction items with
  | nil => simp [keyOutlines]
  | cons i rest ih => cases i <;> simp [keyOutlines, DictItem.key?, ih]

@[simp] theorem allReferences_valueOutlines (items : List DictItem) :
    allReferences (valueOutlines items) = items.flatMap (·.value.outline.references) := by
  induction items with
  | nil => simp [valueOutlines]
  | cons i rest ih => cases i <;> simp [valueOutlines, DictItem.value, ih]

@[simp] theorem allReferences_clauseOutlines (generators : List Comprehension) :
    allReferences (clauseOutlines generators) =
      (generators.flatMap (·.parts)).flatMap (·.outline.references) := by
  induction generators with
  | nil => simp [clauseOutlines]
  | cons g rest ih =>
    cases g
    simp [clauseOutlines, Comprehension.parts, ih]

@[simp] theorem allReferences_keywordOutlines (keywords : List Keyword) :
    allReferences (keywordOutlines keywords) = keywords.flatMap (·.value.outline.references) := by
  induction keywords with
  | nil => simp [keywordOutlines]
  | cons k rest ih =>
    cases k
    simp [keywordOutlines, Keyword.value, ih]

@[simp] theorem references_parameter (p : Parameter) :
    p.outline.references = p.typeHint?.toList.flatMap (·.outline.references) := by
  cases p
  simp [Parameter.outline, Parameter.typeHint?]

@[simp] theorem allReferences_parameterOutlines (ps : List Parameter) :
    allReferences (parameterOutlines ps) =
      (ps.flatMap (·.typeHint?.toList)).flatMap (·.outline.references) := by
  induction ps with
  | nil => simp [parameterOutlines]
  | cons p rest ih => simp [parameterOutlines, ih]

@[simp] theorem references_parameterOutline? (p : Option Parameter) :
    (parameterOutline? p).references =
      (p.toList.flatMap (·.typeHint?.toList)).flatMap (·.outline.references) := by
  cases p <;> simp [parameterOutline?]

@[simp] theorem allReferences_defaultOutlines (es : List (Option Expr)) :
    allReferences (defaultOutlines es) =
      (es.flatMap (·.toList)).flatMap (·.outline.references) := by
  induction es with
  | nil => simp [defaultOutlines]
  | cons e rest ih => cases e <;> simp [defaultOutlines, ih]

@[simp] theorem references_parameters (p : Parameters) :
    p.outline.references = p.parts.flatMap (·.outline.references) := by
  cases p
  simp [Parameters.outline, Parameters.parts]

variable {e : Expr} {p : Phrase}

theorem Expr.references_eq (h : e.isReference = false) :
    e.outline.references = e.parts.flatMap (·.outline.references) := by
  cases e with
  | name | member => cases h
  | compare _ left ops comparators =>
    have hops : allReferences (ops.map fun o ↦ Outline.mark o.nodeName) = [] :=
      Outline.allReferences_map_eq_nil (fun _ ↦ Outline.references_mark _) ops
    simp [outline, parts, hops]
  | _ => simp [outline, parts, List.flatMap_map]

namespace Phrase

@[simp] theorem outline_expr (e : Expr) : (expr e).outline = e.outline := rfl

@[simp] theorem outline_stmt (s : Stmt) : (stmt s).outline = s.outline := rfl

@[simp] theorem outline_pattern (p : Pattern) : (pattern p).outline = p.outline := rfl

end Phrase

@[simp] theorem allReferences_patternOutlines (ps : List Pattern) :
    allReferences (patternOutlines ps) = ps.flatMap (·.outline.references) := by
  induction ps with
  | nil => simp [patternOutlines]
  | cons p rest ih => simp [patternOutlines, ih]

@[simp] theorem references_patternOutline? (p : Option Pattern) :
    (patternOutline? p).references = p.toList.flatMap (·.outline.references) := by
  cases p <;> simp [patternOutline?]

@[simp] theorem allReferences_stmtOutlines (ss : List Stmt) :
    allReferences (stmtOutlines ss) = ss.flatMap (·.outline.references) := by
  induction ss with
  | nil => simp [stmtOutlines]
  | cons s rest ih => simp [stmtOutlines, ih]

@[simp] theorem allReferences_caseOutlines (ks : List MatchCase) :
    allReferences (caseOutlines ks) =
      (ks.flatMap Phrase.ofCase).flatMap (·.outline.references) := by
  induction ks with
  | nil => simp [caseOutlines]
  | cons k rest ih =>
    cases k
    simp [caseOutlines, Phrase.ofCase, List.flatMap_map, ih]

@[simp] theorem allReferences_handlerOutlines (hs : List Handler) :
    allReferences (handlerOutlines hs) =
      (hs.flatMap Phrase.ofHandler).flatMap (·.outline.references) := by
  induction hs with
  | nil => simp [handlerOutlines]
  | cons h rest ih =>
    cases h
    simp [handlerOutlines, Phrase.ofHandler, List.flatMap_map, ih]

@[simp] theorem allReferences_itemOutlines (items : List WithItem) :
    allReferences (items.map WithItem.outline) =
      (items.flatMap Phrase.ofItem).flatMap (·.outline.references) := by
  induction items with
  | nil => simp
  | cons i rest ih => simp [WithItem.outline, Phrase.ofItem, List.flatMap_map, ih]

theorem references_pattern (p : Pattern) :
    p.outline.references = (Phrase.ofPattern p).flatMap (·.outline.references) := by
  cases p with
  | construct _ cls patterns names named =>
    have hnames : allReferences (names.map Outline.word) = [] :=
      Outline.allReferences_map_eq_nil Outline.references_word names
    simp [Pattern.outline, Phrase.ofPattern, List.flatMap_map, hnames]
  | _ => simp [Pattern.outline, Phrase.ofPattern, List.flatMap_map]

theorem references_stmt (s : Stmt) :
    s.outline.references = (Phrase.ofStmt s).flatMap (·.outline.references) := by
  have hwords (names : List String) : allReferences (names.map Outline.word) = [] :=
    Outline.allReferences_map_eq_nil Outline.references_word names
  have haliases (names : List Alias) : allReferences (names.map Alias.outline) = [] :=
    Outline.allReferences_map_eq_nil (fun a ↦ by simp [Alias.outline]) names
  cases s <;> simp [Stmt.outline, Phrase.ofStmt, List.flatMap_map, hwords, haliases]

theorem Phrase.references_eq (h : p.isReference = false) :
    p.outline.references = p.parts.flatMap (·.outline.references) := by
  cases p with
  | expr e => simpa [Phrase.parts, List.flatMap_map] using e.references_eq h
  | stmt s => exact references_stmt s
  | pattern p => exact references_pattern p

theorem Expr.references_of_isReference (h : e.isReference = true) :
    e.outline.references = [e.dottedName?] := by
  cases e with
  | name => simp [outline, Outline.references, dottedName?]
  | member => simp [outline, Outline.references]
  | _ => cases h

/-! ### The induction over a tree -/

@[grind →]
theorem sizeOf_lt_of_mem_toList {α : Type} [SizeOf α] {x : α} {o : Option α} (h : x ∈ o.toList) :
    sizeOf x < sizeOf o := by
  cases o with
  | none => cases h
  | some y =>
    obtain rfl : x = y := by simpa using h
    simp

@[grind →]
theorem DictItem.sizeOf_key?_lt {i : DictItem} (h : e ∈ i.key?.toList) : sizeOf e < sizeOf i := by
  cases i with
  | pair key value =>
    obtain rfl : e = key := by simpa [key?] using h
    simp +arith
  | spread value => cases h

theorem DictItem.sizeOf_value_lt (i : DictItem) : sizeOf i.value < sizeOf i := by
  cases i <;> simp +arith [value]

theorem Keyword.sizeOf_value_lt (k : Keyword) : sizeOf k.value < sizeOf k := by
  cases k
  simp +arith [value]

@[grind →]
theorem Comprehension.sizeOf_lt {g : Comprehension} (h : e ∈ g.parts) : sizeOf e < sizeOf g := by
  cases g
  simp only [parts, List.mem_cons, clause.sizeOf_spec] at h ⊢
  grind [→ List.sizeOf_lt_of_mem]

@[grind →]
theorem Parameter.sizeOf_lt {p : Parameter} (h : e ∈ p.typeHint?.toList) : sizeOf e < sizeOf p := by
  cases p
  simp only [typeHint?, param.sizeOf_spec] at h ⊢
  grind

@[grind →]
theorem Parameters.sizeOf_lt {p : Parameters} (h : e ∈ p.parts) : sizeOf e < sizeOf p := by
  cases p
  simp only [parts, List.mem_append, List.mem_flatMap, params.sizeOf_spec] at h ⊢
  grind [→ List.sizeOf_lt_of_mem]

theorem Expr.sizeOf_lt_of_mem_parts {p : Expr} (h : p ∈ e.parts) : sizeOf p < sizeOf e := by
  -- a part stands in a field of the expression, or in what an element of a field is made of
  cases e <;> simp only [parts, List.mem_append, List.mem_cons, List.mem_map,
    List.mem_flatMap] at h <;>
    simp <;> grind [DictItem.sizeOf_value_lt, Keyword.sizeOf_value_lt, → List.sizeOf_lt_of_mem]

namespace Phrase

variable {q : Phrase}

@[grind →]
theorem sizeOf_lt_of_mem_item {i : WithItem} (h : q ∈ ofItem i) : sizeOf q < 1 + sizeOf i := by
  cases i
  simp only [ofItem, List.mem_cons, List.mem_map, WithItem.mk.sizeOf_spec] at h ⊢
  grind [expr.sizeOf_spec]

@[grind →]
theorem sizeOf_lt_of_mem_case {k : MatchCase} (h : q ∈ ofCase k) : sizeOf q < 1 + sizeOf k := by
  cases k
  simp only [ofCase, List.mem_cons, List.mem_append, List.mem_map, MatchCase.mk.sizeOf_spec] at h ⊢
  grind [expr.sizeOf_spec, stmt.sizeOf_spec, pattern.sizeOf_spec, → List.sizeOf_lt_of_mem]

@[grind →]
theorem sizeOf_lt_of_mem_handler {k : Handler} (h : q ∈ ofHandler k) : sizeOf q < 1 + sizeOf k := by
  cases k
  simp only [ofHandler, List.mem_append, List.mem_map, Handler.mk.sizeOf_spec] at h ⊢
  grind [expr.sizeOf_spec, stmt.sizeOf_spec, → List.sizeOf_lt_of_mem]

theorem sizeOf_lt_of_mem_parts {p : Phrase} (h : q ∈ p.parts) : sizeOf q < sizeOf p := by
  cases p with
  | expr e =>
    obtain ⟨e', he, rfl⟩ := List.mem_map.1 h
    simpa using sizeOf_lt_of_mem_parts he
  | stmt s =>
    cases s <;> simp only [parts, ofStmt, List.mem_append, List.mem_cons, List.mem_map,
      List.mem_flatMap] at h <;>
      simp <;> grind [expr.sizeOf_spec, stmt.sizeOf_spec, Keyword.sizeOf_value_lt, →
        List.sizeOf_lt_of_mem]
  | pattern p =>
    cases p <;> simp only [parts, ofPattern, List.mem_append, List.mem_cons, List.mem_map] at h <;>
      simp <;> grind [expr.sizeOf_spec, pattern.sizeOf_spec, → List.sizeOf_lt_of_mem]

end Phrase

variable {n : Option String}

theorem Phrase.mem_references_iff : n ∈ p.outline.references ↔ ∃ e, p.Mentions e ∧
    e.dottedName? = n := by
  constructor
  · intro h
    induction hsize : sizeOf p using Nat.strongRecOn generalizing p with
    | ind size ih =>
      cases hp : p.isReference with
      | true =>
        cases p with
        | expr e =>
          rw [outline_expr, references_of_isReference hp, List.mem_singleton] at h
          exact ⟨e, .self hp, h.symm⟩
        | stmt | pattern => cases hp
      | false =>
        rw [references_eq hp, List.mem_flatMap] at h
        obtain ⟨q, hq, hn⟩ := h
        obtain ⟨e, he, hname⟩ := ih (sizeOf q) (hsize ▸ sizeOf_lt_of_mem_parts hq) hn rfl
        exact ⟨e, .part hp hq he, hname⟩
  · rintro ⟨e, h, rfl⟩
    induction h with
    | self h => simp [references_of_isReference h]
    | part hp hq _ ih =>
      rw [references_eq hp, List.mem_flatMap]
      exact ⟨_, hq, ih⟩

theorem Module.mem_names_iff {m : Module} :
    n ∈ m.names ↔ ∃ e, m.Mentions e ∧ e.dottedName? = n := by
  have hreferences : m.outline.references = m.body.flatMap (·.outline.references) := by
    simp [Module.outline]
  rw [Module.names, List.mem_eraseDups, hreferences, List.mem_flatMap]
  constructor
  · rintro ⟨s, hs, hn⟩
    obtain ⟨e, he, hname⟩ := (Phrase.mem_references_iff (p := .stmt s)).1 hn
    exact ⟨e, ⟨s, hs, he⟩, hname⟩
  · rintro ⟨e, ⟨s, hs, he⟩, hname⟩
    exact ⟨s, hs, (Phrase.mem_references_iff (p := .stmt s)).2 ⟨e, he, hname⟩⟩

end Lists

end TriggerScript.Syntax
