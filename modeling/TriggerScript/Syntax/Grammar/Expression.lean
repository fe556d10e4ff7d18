import TriggerScript.Syntax.Grammar.Parameters
import TriggerScript.Syntax.Grammar.Text

/-!
# Expressions

The rules for expressions, from atoms up to lists of starred expressions. Operators of one
precedence associate to the left, except for the power. The rules for common mistakes stand beside
the rules whose place they take.
-/

namespace TriggerScript.Syntax.Grammar

open Rule

variable (R : Rules)

/-! ### Comprehensions -/

variable {α : Type}

def invalidForTarget : Rule α := do
  let _ ← opt (kw "async")
  let _ ← kw "for"
  let e ← R.starExpressions
  stopAtTarget .loop e

def forIfClause : Rule Comprehension :=
  let rest (isAsync : Bool) (target : Expr) : Rule Comprehension := do
    let iter ← R.disjunction
    let ifs ← many (do let _ ← kw "if"; R.disjunction)
    pure (.clause target iter ifs isAsync)
  commit (do let _ ← kw "async"; let _ ← kw "for"; let t ← R.starTargets; let _ ← kw "in"; pure t)
    (rest true)
    (commit (do let _ ← kw "for"; let t ← R.starTargets; let _ ← kw "in"; pure t) (rest false)
      (mistake (invalidForTarget R)))

def forIfClauses : Rule (List Comprehension) := many1 (forIfClause R)

def starredExpression : Rule Expr := do
  let p ← here
  let _ ← op "*"
  let e ← R.expression
  pure (.starred p e .load)

/-- Elements with commas between, and perhaps one after the last. -/
def starNamedExpressions : Rule (List Expr) := do
  let es ← sepBy1 R.starNamedExpression (op ",")
  maybeComma
  pure es

def invalidComprehension : Rule α :=
  (do
    let _ ← op "[" <|> op "(" <|> op "\x7b"
    let e ← starredExpression R
    let _ ← forIfClauses R
    stopAt (lineOf e) "iterable unpacking cannot be used in comprehension")
  <|> (do
    let _ ← op "[" <|> op "\x7b"
    let e ← R.starNamedExpression
    let _ ← op ","
    let _ ← starNamedExpressions R
    let _ ← forIfClauses R
    stopAt (lineOf e) "did you forget parentheses around the comprehension target?")
  <|> (do
    let _ ← op "[" <|> op "\x7b"
    let e ← R.starNamedExpression
    let _ ← op ","
    let _ ← forIfClauses R
    stopAt (lineOf e) "did you forget parentheses around the comprehension target?")

def assignmentExpression : Rule Expr := do
  let p ← here
  let t ← name
  let _ ← op ":="
  let e ← R.expression
  pure (.namedExpr p (.name t.pos t.text .store) e)

def plainArgument : Rule Expr :=
  assignmentExpression R <|> (do let e ← R.expression; notAhead (op ":="); pure e)

/-! ### Displays -/

def listDisplay : Rule Expr := do
  let p ← here
  let _ ← op "["
  let es ← opt (starNamedExpressions R)
  let _ ← op "]"
  pure (.list p (es.getD []) .load)

def listComp : Rule Expr :=
  (do
    let p ← here
    let _ ← op "["
    let e ← R.namedExpression
    let gs ← forIfClauses R
    let _ ← op "]"
    pure (.listComp p e gs))
  <|> mistake (invalidComprehension R)

def tupleDisplay : Rule Expr := do
  let p ← here
  let _ ← op "("
  let es ← opt (do
    let e ← R.starNamedExpression
    let _ ← op ","
    let es ← opt (starNamedExpressions R)
    pure (e :: es.getD []))
  let _ ← op ")"
  pure (.tuple p (es.getD []) .load)

def group : Rule Expr :=
  (do
    let _ ← op "("
    let e ← R.yieldExpr <|> R.namedExpression
    let _ ← op ")"
    pure e)
  <|> mistake (do
    let _ ← op "("
    let e ← starredExpression R
    let _ ← op ")"
    stopAt (lineOf e) "cannot use starred expression here")
  <|> mistake (do
    let _ ← op "("
    let t ← op "**"
    let _ ← R.expression
    let _ ← op ")"
    stopAt t.pos.line "cannot use double starred expression here")

def genExp : Rule Expr :=
  (do
    let p ← here
    let _ ← op "("
    let e ← plainArgument R
    let gs ← forIfClauses R
    let _ ← op ")"
    pure (.generatorExp p e gs))
  <|> mistake (invalidComprehension R)

def setDisplay : Rule Expr := do
  let p ← here
  let _ ← op "\x7b"
  let es ← starNamedExpressions R
  let _ ← op "\x7d"
  pure (.set p es)

def setComp : Rule Expr :=
  (do
    let p ← here
    let _ ← op "\x7b"
    let e ← R.namedExpression
    let gs ← forIfClauses R
    let _ ← op "\x7d"
    pure (.setComp p e gs))
  <|> mistake (invalidComprehension R)

def kvPair : Rule (Expr × Expr) := do
  let k ← R.expression
  let _ ← op ":"
  let v ← R.expression
  pure (k, v)

def dictItem : Rule DictItem :=
  (do let _ ← op "**"; let e ← R.bitwiseOr; pure (.spread e))
  <|> (do let (k, v) ← kvPair R; pure (.pair k v))

def invalidValue : Rule α :=
  (do
    let _ ← R.expression
    let _ ← op ":"
    let t ← op "*"
    let _ ← R.bitwiseOr
    stopAt t.pos.line "cannot use a starred expression in a dictionary value")
  <|> (do
    let _ ← R.expression
    let t ← op ":"
    ahead (op "\x7d" <|> op ",")
    stopAt t.pos.line "expression expected after dictionary key and ':'")

def invalidDictItems : Rule α :=
  (do
    let _ ← sepBy1 (dictItem R) (op ",")
    let _ ← op ","
    (do
      let e ← R.expression
      notAhead (op ":")
      stopAt (lineOf e) "':' expected after dictionary key")
    <|> invalidValue R)
  <|> invalidValue R

def dictDisplay : Rule Expr :=
  (do
    let p ← here
    let _ ← op "\x7b"
    let items ← opt (do
      let items ← sepBy1 (dictItem R) (op ",")
      maybeComma
      pure items)
    let _ ← op "\x7d"
    pure (.dict p (items.getD [])))
  <|> mistake (do
    let _ ← op "\x7b"
    let e ← invalidDictItems R
    let _ ← op "\x7d"
    pure e)

def dictComp : Rule Expr :=
  (do
    let p ← here
    let _ ← op "\x7b"
    let (k, v) ← kvPair R
    let gs ← forIfClauses R
    let _ ← op "\x7d"
    pure (.dictComp p k v gs))
  <|> mistake (do
    let _ ← op "\x7b"
    let t ← op "**"
    let _ ← R.bitwiseOr
    let _ ← forIfClauses R
    let _ ← op "\x7d"
    stopAt t.pos.line "dict unpacking cannot be used in dict comprehension")

/-! ### Atoms -/

def numberAtom : Rule Expr := do
  let t ← Rule.kind .number
  match numberLiteral t.text with
  | .ok v => pure (.constant t.pos v none)
  | .error message => stopAt t.pos.line message

def wordAtom (word : String) (value : Literal) : Rule Expr := do
  let t ← kw word
  pure (.constant t.pos value none)

def atom : Rule Expr := keep 1 do
  let t ← peek
  match t.kind with
  | .name => nameExpr .load
  | .keyword =>
    wordAtom "True" (.bool true) <|> wordAtom "False" (.bool false) <|> wordAtom "None" .none
  | .string => strings R
  | .number => numberAtom
  | .op =>
    match t.text with
    | "(" => tupleDisplay R <|> group R <|> genExp R
    | "[" => listDisplay R <|> listComp R
    | "\x7b" => dictDisplay R <|> setDisplay R <|> dictComp R <|> setComp R
    | "..." => do let t ← op "..."; pure (.constant t.pos .ellipsis none)
    | _ => fail
  | _ => fail

/-! ### Arguments -/

structure Arguments where
  args : List Expr
  keywords : List Keyword

def invalidKwarg : Rule α :=
  (do
    let t ← kw "True" <|> kw "False" <|> kw "None"
    let _ ← op "="
    stopAt t.pos.line ("cannot assign to " ++ t.text))
  <|> (do
    let t ← name
    let _ ← op "="
    let _ ← R.expression
    let _ ← forIfClauses R
    stopAt t.pos.line "invalid syntax. Maybe you meant '==' or ':=' instead of '='?")
  <|> (do
    notAhead (do let _ ← name; op "=")
    let e ← R.expression
    let _ ← op "="
    stopAt (lineOf e) "expression cannot contain assignment, perhaps you meant \"==\"?")

def namedKwarg : Rule Keyword := do
  let t ← name
  let _ ← op "="
  let e ← R.expression
  pure (.keyword (some t.text) e)

/-- An argument by name, or an iterable to be unpacked. -/
def kwargOrStarred : Rule (Sum Expr Keyword) :=
  mistake (invalidKwarg R)
  <|> (do let k ← namedKwarg R; pure (.inr k))
  <|> (do let e ← starredExpression R; pure (.inl e))

/-- An argument by name, or a mapping to be unpacked. -/
def kwargOrDoubleStarred : Rule (Sum Expr Keyword) :=
  mistake (invalidKwarg R)
  <|> (do let k ← namedKwarg R; pure (.inr k))
  <|> (do let _ ← op "**"; let e ← R.expression; pure (.inr (.keyword none e)))

/-- Arguments from the first one by name on. -/
def kwargs : Rule (List (Sum Expr Keyword)) :=
  (do
    let a ← sepBy1 (kwargOrStarred R) (op ",")
    let _ ← op ","
    let b ← sepBy1 (kwargOrDoubleStarred R) (op ",")
    pure (a ++ b))
  <|> sepBy1 (kwargOrStarred R) (op ",")
  <|> sepBy1 (kwargOrDoubleStarred R) (op ",")

def collect (positional : List Expr) (rest : List (Sum Expr Keyword)) : Arguments :=
  ⟨positional ++ rest.filterMap (fun | .inl e => some e | .inr _ => none),
   rest.filterMap (fun | .inl _ => none | .inr k => some k)⟩

def argList : Rule Arguments :=
  (do
    let a ← sepBy1
      (starredExpression R <|> (do let e ← plainArgument R; notAhead (op "="); pure e)) (op ",")
    let b ← opt (do let _ ← op ","; kwargs R)
    pure (collect a (b.getD [])))
  <|> (do let b ← kwargs R; pure (collect [] b))

def invalidArguments : Rule α :=
  (do
    let _ ← argList R
    let _ ← op ","
    let t ← op "*"
    stopAt t.pos.line "iterable argument unpacking follows keyword argument unpacking")
  <|> (do
    let e ← R.expression
    let _ ← forIfClauses R
    let _ ← op ","
    let _ ← opt ((do let _ ← argList R; pure ())
      <|> (do let _ ← R.expression; let _ ← forIfClauses R; pure ()))
    stopAt (lineOf e) "Generator expression must be parenthesized")
  <|> (do
    let t ← name
    let _ ← op "="
    let _ ← R.expression
    let _ ← forIfClauses R
    stopAt t.pos.line "invalid syntax. Maybe you meant '==' or ':=' instead of '='?")
  <|> commit (do let a ← argList R; let _ ← forIfClauses R; pure a)
    (fun a ↦
      if a.args.length ≤ 1 then fail
      else
        stopAt ((a.args.getLast?.map lineOf).getD 0) "Generator expression must be parenthesized")
    ((do
      let _ ← argList R
      let _ ← op ","
      let e ← R.expression
      let _ ← forIfClauses R
      stopAt (lineOf e) "Generator expression must be parenthesized")
    <|> (do
      let a ← argList R
      let _ ← op ","
      let _ ← argList R
      let spread := a.keywords.any fun | .keyword n _ => n.isNone
      stopHere (if spread then "positional argument follows keyword argument unpacking"
        else "positional argument follows keyword argument")))

def arguments : Rule Arguments :=
  (do
    let a ← argList R
    maybeComma
    ahead (op ")")
    pure a)
  <|> mistake (invalidArguments R)

/-! ### Subscripts and primaries -/

def sliceExpr : Rule Expr :=
  (do
    let p ← here
    let lower ← opt R.expression
    let _ ← op ":"
    let upper ← opt R.expression
    let step ← opt (do let _ ← op ":"; opt R.expression)
    pure (.slice p lower upper step.join))
  <|> R.namedExpression

def slices : Rule Expr :=
  (do let s ← sliceExpr R; notAhead (op ","); pure s)
  <|> (do
    let p ← here
    let es ← sepBy1 (sliceExpr R <|> starredExpression R) (op ",")
    maybeComma
    pure (.tuple p es .load))

/-- An attribute, subscript or call of what was read before. -/
def trailer (p : Position) (e : Expr) : Rule Expr :=
  (do let _ ← op "."; let t ← name; pure (.member p e t.text .load))
  <|> (do let g ← genExp R; pure (.call p e [g] []))
  <|> (do
    let _ ← op "("
    let a ← opt (arguments R)
    let _ ← op ")"
    let a := a.getD ⟨[], []⟩
    pure (.call p e a.args a.keywords))
  <|> (do
    let _ ← op "["
    let s ← slices R
    let _ ← op "]"
    pure (.subscript p e s .load))

def primary : Rule Expr := keep 2 do
  let p ← here
  let e ← atom R
  chain (trailer R p) e

def awaitPrimary : Rule Expr :=
  (do
    let p ← here
    let _ ← kw "await"
    let e ← primary R
    pure (.await p e))
  <|> primary R

/-! ### Operators -/

def power : Rule Expr := do
  let p ← here
  let e ← awaitPrimary R
  (do
    let _ ← op "**"
    let f ← R.factor
    pure (.binOp p e .pow f))
  <|> pure e

def factor : Rule Expr := keep 3 do
  let t ← peek
  let unary (o : UnaryOperator) : Rule Expr := do
    let t ← op t.text
    let e ← R.factor
    pure (.unaryOp t.pos o e)
  if t.kind == .op then
    match t.text with
    | "+" => unary .uAdd
    | "-" => unary .uSub
    | "~" => unary .invert
    | _ => power R
  else power R

/-- Operators of one precedence, joined from the left. -/
def leftAssoc (operand : Rule Expr) (operators : List (String × Operator)) : Rule Expr := do
  let p ← here
  let e ← operand
  chain (fun e ↦ do
    let t ← token fun t ↦ t.kind == .op && operators.any (·.1 == t.text)
    let f ← operand
    match operators.lookup t.text with
    | some o => pure (.binOp p e o f)
    | none => fail) e

def term : Rule Expr :=
  leftAssoc (factor R)
    [("*", .mult), ("/", .div), ("//", .floorDiv), ("%", .mod), ("@", .matMult)]

def sum : Rule Expr := leftAssoc (term R) [("+", .add), ("-", .sub)]

def shift : Rule Expr := leftAssoc (sum R) [("<<", .lShift), (">>", .rShift)]

def bitwiseAnd : Rule Expr := leftAssoc (shift R) [("&", .bitAnd)]

def bitwiseXor : Rule Expr := leftAssoc (bitwiseAnd R) [("^", .bitXor)]

def bitwiseOr : Rule Expr := keep 4 (leftAssoc (bitwiseXor R) [("|", .bitOr)])

def comparison : Rule Comparison := do
  let t ← peek
  let one (c : Comparison) : Rule Comparison := do
    let _ ← op t.text
    pure c
  match t.kind, t.text with
  | .op, "==" => one .eq
  | .op, "!=" => one .notEq
  | .op, "<=" => one .ltE
  | .op, "<" => one .lt
  | .op, ">=" => one .gtE
  | .op, ">" => one .gt
  | .keyword, "not" => do let _ ← kw "not"; let _ ← kw "in"; pure .notIn
  | .keyword, "in" => do let _ ← kw "in"; pure .isIn
  | .keyword, "is" => do
    let _ ← kw "is"
    (do let _ ← kw "not"; pure .isNot) <|> pure .is
  | _, _ => fail

def compare : Rule Expr := do
  let p ← here
  let e ← bitwiseOr R
  let pairs ← many (do
    let c ← comparison
    let f ← bitwiseOr R
    pure (c, f))
  if pairs.isEmpty then pure e else pure (.compare p e (pairs.map (·.1)) (pairs.map (·.2)))

def inversion : Rule Expr := keep 5
  ((do
    let p ← here
    let _ ← kw "not"
    let e ← R.inversion
    pure (.unaryOp p .not e))
  <|> compare R)

def boolean (operand : Rule Expr) (word : String) (o : BoolOperator) : Rule Expr := do
  let p ← here
  let e ← operand
  let es ← many (do let _ ← kw word; operand)
  if es.isEmpty then pure e else pure (.boolOp p o (e :: es))

def conjunction : Rule Expr := keep 6 (boolean (inversion R) "and" .and)

def disjunction : Rule Expr := keep 7 (boolean (conjunction R) "or" .or)

/-! ### Whole expressions -/

def lambdaExpr : Rule Expr := do
  let p ← here
  let _ ← kw "lambda"
  let params ← opt (parameters R lambdaStyle)
  let _ ← op ":"
  let e ← R.expression
  pure (.lambda p (params.getD noParameters) e)

def plainExpression : Rule Expr :=
  (do
    let p ← here
    let e ← disjunction R
    (do
      let _ ← kw "if"
      let test ← disjunction R
      let _ ← kw "else"
      let other ← R.expression
      pure (.ifExp p test e other))
    <|> pure e)
  <|> lambdaExpr R

/-- The name of a function that is often called without parentheses. -/
def needsParentheses : Expr → Bool
  | .name _ id _ => id == "print" || id == "exec"
  | _ => false

def invalidExpression : Rule Expr :=
  commit
    (do
      notAhead ((do let _ ← name; Rule.kind .string) <|> softKeyword)
      let a ← disjunction R
      let _ ← withoutMistakes (plainExpression R)
      pure (a, ← lastLevel))
    (fun (a, level) ↦
      if needsParentheses a || level == 0 then fail
      else stopAt (lineOf a) "invalid syntax. Perhaps you forgot a comma?")
    (do
      let a ← disjunction R
      let _ ← kw "if"
      let _ ← disjunction R
      notAhead (kw "else" <|> op ":")
      stopAt (lineOf a) "expected 'else' after 'if' expression")

def callWithoutParentheses : Rule Expr := do
  let t ← name
  notAhead (op "(")
  let _ ← R.starExpressions
  if t.text == "print" || t.text == "exec" then
    stopAt t.pos.line
      ("Missing parentheses in call to '" ++ t.text ++ "'. Did you mean " ++ t.text ++ "(...)?")
  else fail

def expression : Rule Expr := keep 8
  (mistake (invalidExpression R) <|> mistake (callWithoutParentheses R) <|> plainExpression R)

def invalidNamedExpression : Rule Expr := keep 9
  ((do
    let a ← expression R
    let _ ← op ":="
    let _ ← expression R
    stopAt (lineOf a) ("cannot use assignment expressions with " ++ a.describe))
  <|> (do
    let t ← name
    let _ ← op "="
    let _ ← bitwiseOr R
    notAhead (op "=" <|> op ":=")
    stopAt t.pos.line "invalid syntax. Maybe you meant '==' or ':=' instead of '='?")
  <|> (do
    notAhead ((do let _ ← listDisplay R <|> tupleDisplay R <|> genExp R; pure ())
      <|> (do let _ ← kw "True" <|> kw "None" <|> kw "False"; pure ()))
    let a ← bitwiseOr R
    let _ ← op "="
    let _ ← bitwiseOr R
    notAhead (op "=" <|> op ":=")
    stopAt (lineOf a) ("cannot assign to " ++ a.describe
      ++ " here. Maybe you meant '==' instead of '='?")))

def namedExpression : Rule Expr :=
  assignmentExpression R
  <|> mistake (invalidNamedExpression R)
  <|> (do let e ← expression R; notAhead (op ":="); pure e)

/-- An element of a display, which may be unpacked. -/
def starNamedExpression : Rule Expr :=
  (do
    let p ← here
    let _ ← op "*"
    let e ← bitwiseOr R
    pure (.starred p e .load))
  <|> namedExpression R

def starExpression : Rule Expr := keep 10
  ((do
    let p ← here
    let _ ← op "*"
    let e ← bitwiseOr R
    pure (.starred p e .load))
  <|> expression R)

def commaList (element : Rule Expr) : Rule Expr := do
  let p ← here
  let e ← element
  (do
    let es ← many1 (do let _ ← op ","; element)
    maybeComma
    pure (.tuple p (e :: es) .load))
  <|> (do let _ ← op ","; pure (.tuple p [e] .load))
  <|> pure e

def starExpressions : Rule Expr := commaList (starExpression R)

def expressions : Rule Expr := commaList (expression R)

def yieldExpr : Rule Expr :=
  (do
    let p ← here
    let _ ← kw "yield"
    let _ ← kw "from"
    let e ← expression R
    pure (.yieldFrom p e))
  <|> (do
    let p ← here
    let _ ← kw "yield"
    let e ← opt (starExpressions R)
    pure (.yield p e))

end TriggerScript.Syntax.Grammar
