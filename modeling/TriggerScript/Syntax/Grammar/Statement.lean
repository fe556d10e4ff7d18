import TriggerScript.Syntax.Grammar.Patterns
import TriggerScript.Syntax.Grammar.Targets

/-!
# Statements
-/

namespace TriggerScript.Syntax.Grammar

open Rule

variable (R : Rules)

/-! ### Simple statements -/

def augOperators : List (String × Operator) :=
  [("+=", .add), ("-=", .sub), ("*=", .mult), ("@=", .matMult), ("/=", .div), ("%=", .mod),
   ("&=", .bitAnd), ("|=", .bitOr), ("^=", .bitXor), ("<<=", .lShift), (">>=", .rShift),
   ("**=", .pow), ("//=", .floorDiv)]

def augOperator : Rule Operator := do
  let t ← token fun t ↦ t.kind == .op && augOperators.any (·.1 == t.text)
  match augOperators.lookup t.text with
  | some o => pure o
  | none => fail

def rightSide : Rule Expr := yieldExpr R <|> starExpressions R

/-- A list or tuple that cannot be annotated, perhaps in parentheses. -/
def invalidAnnotated : Nat → Rule Expr
  | 0 => fail
  | n + 1 =>
    listDisplay R <|> tupleDisplay R
    <|> (do let _ ← op "("; let e ← invalidAnnotated n; let _ ← op ")"; pure e)

def invalidAssignment : Rule Stmt :=
  (do
    let a ← invalidAnnotated R 20
    let _ ← op ":"
    let _ ← expression R
    stopAt (lineOf a) ("only single target (not " ++ a.describe ++ ") can be annotated"))
  <|> (do
    let a ← starNamedExpression R
    let _ ← op ","
    let _ ← many (starNamedExpressions R)
    let _ ← op ":"
    let _ ← expression R
    stopAt (lineOf a) "only single target (not tuple) can be annotated")
  <|> (do
    let a ← expression R
    let _ ← op ":"
    let _ ← expression R
    stopAt (lineOf a) "illegal target for annotation")
  <|> commit
    (do
      let _ ← many (do let _ ← starTargets R; op "=")
      let a ← starExpressions R
      let _ ← op "="
      pure a)
    (stopAtTarget .assign)
    ((do
      let _ ← many (do let _ ← starTargets R; op "=")
      let a ← yieldExpr R
      let _ ← op "="
      stopAt (lineOf a) "assignment to yield expression not possible")
    <|> (do
      let a ← starExpressions R
      let _ ← augOperator
      let _ ← rightSide R
      stopAt (lineOf a)
        ("'" ++ a.describe ++ "' is an illegal expression for augmented assignment")))

def augmented : Rule Stmt :=
  commit
    (do
      let p ← here
      let e ← singleTarget R
      let o ← augOperator
      pure (p, e, o))
    (fun (p, e, o) ↦ do
      let v ← rightSide R
      pure (Stmt.augAssign p e o v))
    (mistake (invalidAssignment R))

def assignment : Rule Stmt :=
  (do
    let p ← here
    let target ← nameExpr .store
    let _ ← op ":"
    let typeHint ← expression R
    let value ← opt (do let _ ← op "="; rightSide R)
    pure (.annAssign p target typeHint value true))
  <|> (do
    let p ← here
    let target ← (do let _ ← op "("; let e ← singleTarget R; let _ ← op ")"; pure e)
      <|> memberTarget R .store
    let _ ← op ":"
    let typeHint ← expression R
    let value ← opt (do let _ ← op "="; rightSide R)
    pure (.annAssign p target typeHint value false))
  <|> (do
    let p ← here
    let targets ← many1 (do let e ← starTargets R; let _ ← op "="; pure e)
    let value ← rightSide R
    notAhead (op "=")
    pure (.assign p targets value))
  <|> augmented R

def returnStmt : Rule Stmt := do
  let p ← here
  let _ ← kw "return"
  let e ← opt (starExpressions R)
  pure (.ret p e)

def raiseStmt : Rule Stmt := do
  let p ← here
  let _ ← kw "raise"
  (do
    let e ← expression R
    let cause ← opt (do let _ ← kw "from"; expression R)
    pure (.raiseError p (some e) cause))
  <|> pure (.raiseError p none none)

def nameList : Rule (List String) := do
  let ts ← sepBy1 name (op ",")
  pure (ts.map (·.text))

def globalStmt : Rule Stmt := do
  let p ← here
  let _ ← kw "global"
  pure (.globalNames p (← nameList))

def nonlocalStmt : Rule Stmt := do
  let p ← here
  let _ ← kw "nonlocal"
  pure (.nonlocalNames p (← nameList))

def delStmt : Rule Stmt :=
  (do
    let p ← here
    let _ ← kw "del"
    let es ← delTargets R
    ahead (op ";" <|> kind .newline)
    pure (.delete p es))
  <|> mistake (do
    let _ ← kw "del"
    let e ← starExpressions R
    stopAtTarget .delete e)

def assertStmt : Rule Stmt := do
  let p ← here
  let _ ← kw "assert"
  let e ← expression R
  let msg ← opt (do let _ ← op ","; expression R)
  pure (.assertion p e msg)

def dottedName : Rule String := do
  let ts ← sepBy1 name (op ".")
  pure (String.intercalate "." (ts.map (·.text)))

def asName : Rule (Option String) := do
  let t ← opt (do let _ ← kw "as"; name)
  pure (t.map (·.text))

def importName : Rule Stmt := do
  let p ← here
  let _ ← kw "import"
  let names ← sepBy1 (do let n ← dottedName; let a ← asName; pure (Alias.mk n a)) (op ",")
  pure (.importNames p names)

def importAsNames : Rule (List Alias) :=
  sepBy1 (do let t ← name; let a ← asName; pure (Alias.mk t.text a)) (op ",")

def importTargets : Rule (List Alias) :=
  (do
    let _ ← op "("
    let ns ← importAsNames
    maybeComma
    let _ ← op ")"
    pure ns)
  <|> (do let ns ← importAsNames; notAhead (op ","); pure ns)
  <|> (do let _ ← op "*"; pure [⟨"*", none⟩])
  <|> mistake (do
    let _ ← importAsNames
    let _ ← op ","
    let _ ← kind .newline
    stopHere "trailing comma not allowed without surrounding parentheses")

def importDots : Rule Token := op "." <|> op "..."

/-- How many levels the dots of an import go up. -/
def dotCount (ts : List Token) : Nat := ts.foldl (fun n t ↦ n + t.text.length) 0

def importFrom : Rule Stmt :=
  (do
    let p ← here
    let _ ← kw "from"
    let dots ← many importDots
    let m ← dottedName
    let _ ← kw "import"
    let ns ← importTargets
    pure (.importFrom p (some m) ns (dotCount dots)))
  <|> (do
    let p ← here
    let _ ← kw "from"
    let dots ← many1 importDots
    let _ ← kw "import"
    let ns ← importTargets
    pure (.importFrom p none ns (dotCount dots)))

def wordStmt (word : String) (make : Position → Stmt) : Rule Stmt := do
  let t ← kw word
  pure (make t.pos)

def simpleStmt : Rule Stmt :=
  assignment R
  <|> (do
    let p ← here
    let e ← starExpressions R
    pure (.expr p e))
  <|> returnStmt R
  <|> importName
  <|> importFrom
  <|> raiseStmt R
  <|> wordStmt "pass" .pass
  <|> delStmt R
  <|> (do
    let p ← here
    let e ← yieldExpr R
    pure (.expr p e))
  <|> assertStmt R
  <|> wordStmt "break" .breakLoop
  <|> wordStmt "continue" .continueLoop
  <|> globalStmt
  <|> nonlocalStmt

def simpleStmts : Rule (List Stmt) :=
  (do
    let ss ← sepBy1 (simpleStmt R) (op ";")
    let _ ← opt (op ";")
    let _ ← kind .newline
    pure ss)

/-! ### Blocks -/

def block : Rule (List Stmt) :=
  (do
    let _ ← kind .newline
    let _ ← kind .indent
    let ss ← R.statements
    let _ ← kind .dedent
    pure ss)
  <|> simpleStmts R
  <|> mistake (do
    let _ ← kind .newline
    notAhead (kind .indent)
    stopIndent "expected an indented block")

def noBlock {α : Type} (after : String) (line : Nat) : Rule α := do
  let _ ← op ":"
  let _ ← kind .newline
  notAhead (kind .indent)
  stopIndent ("expected an indented block after " ++ after ++ " on line " ++ Number.natText line)

def noColon {α : Type} : Rule α := do
  let _ ← kind .newline
  stopHere "expected ':'"

def elseBlock : Rule (List Stmt) :=
  mistake (do let t ← kw "else"; noBlock "'else' statement" t.pos.line)
  <|> (do
    let _ ← kw "else"
    let _ ← forced ":"
    block R)

def condition (word : String) : Rule Stmt :=
  mistake (do
    let t ← kw word
    let _ ← namedExpression R
    noColon <|> noBlock ("'" ++ word ++ "' statement") t.pos.line)
  <|> (do
    let p ← here
    let _ ← kw word
    let e ← namedExpression R
    let _ ← op ":"
    let b ← block R
    (do
      let other ← R.elifStmt
      pure (.cond p e b [other]))
    <|> (do
      let other ← opt (elseBlock R)
      pure (.cond p e b (other.getD []))))

def ifStmt : Rule Stmt := condition R "if"

def elifStmt : Rule Stmt := condition R "elif"

def whileStmt : Rule Stmt :=
  mistake (do
    let t ← kw "while"
    let _ ← namedExpression R
    noColon <|> noBlock "'while' statement" t.pos.line)
  <|> (do
    let p ← here
    let _ ← kw "while"
    let e ← namedExpression R
    let _ ← op ":"
    let b ← block R
    let other ← opt (elseBlock R)
    pure (.whileLoop p e b (other.getD [])))

def forLoop : Rule Stmt :=
  commit
    (do
      let p ← here
      let a ← opt (kw "async")
      let _ ← kw "for"
      let target ← starTargets R
      let _ ← kw "in"
      pure (p, a.isSome, target))
    (fun (p, isAsync, target) ↦ do
      let e ← starExpressions R
      let _ ← forced ":"
      let b ← block R
      let other ← opt (elseBlock R)
      pure (Stmt.forLoop p isAsync target e b (other.getD [])))
    (mistake (invalidForTarget R))

def forStmt : Rule Stmt :=
  mistake (do
    let _ ← opt (kw "async")
    let t ← kw "for"
    let _ ← starTargets R
    let _ ← kw "in"
    let _ ← starExpressions R
    noBlock "'for' statement" t.pos.line)
  <|> forLoop R

def withItem : Rule WithItem :=
  (do
    let e ← expression R
    let _ ← kw "as"
    let t ← starTarget R
    ahead (op "," <|> op ")" <|> op ":")
    pure ⟨e, some t⟩)
  <|> mistake (do
    let _ ← expression R
    let _ ← kw "as"
    let a ← expression R
    ahead (op "," <|> op ")" <|> op ":")
    stopAtTarget .assign a)
  <|> (do let e ← expression R; pure ⟨e, none⟩)

def looseWithItems : Rule Unit :=
  (do
    let _ ← sepBy1 (do let _ ← expression R; opt (do let _ ← kw "as"; starTarget R)) (op ",")
    pure ())

/-- Items in parentheses, whatever follows them. -/
def looseParenthesized : Rule Unit := do
  let _ ← op "("
  let _ ← sepBy1 (do let _ ← expressions R; opt (do let _ ← kw "as"; starTarget R)) (op ",")
  maybeComma
  let _ ← op ")"

def withStmt : Rule Stmt :=
  mistake (do
    let _ ← opt (kw "async")
    let t ← kw "with"
    (do looseWithItems R; noBlock "'with' statement" t.pos.line)
    <|> (do looseParenthesized R; noBlock "'with' statement" t.pos.line))
  <|> (do
    let p ← here
    let a ← opt (kw "async")
    let _ ← kw "with"
    let _ ← op "("
    let items ← sepBy1 (withItem R) (op ",")
    maybeComma
    let _ ← op ")"
    let _ ← op ":"
    let b ← block R
    pure (.withBlock p a.isSome items b))
  <|> (do
    let p ← here
    let a ← opt (kw "async")
    let _ ← kw "with"
    let items ← sepBy1 (withItem R) (op ",")
    let _ ← op ":"
    let b ← block R
    pure (.withBlock p a.isSome items b))
  <|> mistake (do
    let _ ← opt (kw "async")
    let _ ← kw "with"
    (do looseWithItems R; noColon) <|> (do looseParenthesized R; noColon))

/-- Mistakes in a handler that are not about its block. -/
def invalidExcept {α : Type} : Rule α :=
  (do
    let _ ← kw "except"
    let _ ← opt (op "*")
    let e ← expression R
    let _ ← op ","
    let _ ← expressions R
    let _ ← asName
    let _ ← op ":"
    stopAt (lineOf e) "multiple exception types must be parenthesized")
  <|> (do
    let _ ← kw "except"
    let _ ← opt (op "*")
    let _ ← expression R
    let _ ← asName
    noColon)
  <|> (do let _ ← kw "except"; noColon)
  <|> (do
    let _ ← kw "except"
    let _ ← op "*"
    let _ ← kind .newline <|> op ":"
    stopHere "expected one or more exception types")

def exceptBlock : Rule Handler :=
  mistake (do
    let t ← kw "except"
    (do
      let _ ← expression R
      let _ ← asName
      noBlock "'except' statement" t.pos.line)
    <|> noBlock "'except' statement" t.pos.line)
  <|> (do
    let p ← here
    let _ ← kw "except"
    let e ← expression R
    let n ← asName
    let _ ← op ":"
    let b ← block R
    pure (.mk p (some e) n b))
  <|> (do
    let p ← here
    let _ ← kw "except"
    let _ ← op ":"
    let b ← block R
    pure (.mk p none none b))
  <|> mistake (invalidExcept R)

def exceptStarBlock : Rule Handler :=
  mistake (do
    let t ← kw "except"
    let _ ← op "*"
    let _ ← expression R
    let _ ← asName
    noBlock "'except*' statement" t.pos.line)
  <|> (do
    let p ← here
    let _ ← kw "except"
    let _ ← op "*"
    let e ← expression R
    let n ← asName
    let _ ← op ":"
    let b ← block R
    pure (.mk p (some e) n b))
  <|> mistake (invalidExcept R)

def finallyBlock : Rule (List Stmt) :=
  mistake (do let t ← kw "finally"; noBlock "'finally' statement" t.pos.line)
  <|> (do
    let _ ← kw "finally"
    let _ ← forced ":"
    block R)

def tryStmt : Rule Stmt :=
  let whole (isStar : Bool) (handler : Rule Handler) : Rule Stmt := do
    let p ← here
    let _ ← kw "try"
    let _ ← forced ":"
    let b ← block R
    let hs ← many1 handler
    let other ← opt (elseBlock R)
    let last ← opt (finallyBlock R)
    pure (.tryBlock p isStar b hs (other.getD []) (last.getD []))
  mistake (do let t ← kw "try"; noBlock "'try' statement" t.pos.line)
  <|> mistake (do
    let _ ← kw "try"
    let _ ← op ":"
    let _ ← block R
    notAhead (kw "except" <|> kw "finally")
    stopHere "expected 'except' or 'finally' block")
  <|> mistake (do
    let _ ← kw "try"
    let _ ← op ":"
    let _ ← many (block R)
    let _ ← (do let _ ← many1 (exceptBlock R); exceptStarBlock R)
      <|> (do let _ ← many1 (exceptStarBlock R); exceptBlock R)
    let _ ← many (block R)
    stopHere "cannot have both 'except' and 'except*' on the same 'try'")
  <|> (do
    let p ← here
    let _ ← kw "try"
    let _ ← forced ":"
    let b ← block R
    let last ← finallyBlock R
    pure (.tryBlock p false b [] [] last))
  <|> whole false (exceptBlock R)
  <|> whole true (exceptStarBlock R)

/-! ### Definitions -/

def functionDefRaw (decorators : List Expr) : Rule Stmt :=
  mistake (do
    let _ ← opt (kw "async")
    let t ← kw "def"
    let _ ← name
    let _ ← op "("
    let _ ← opt (parameters R (functionStyle R))
    let _ ← op ")"
    let _ ← opt (do let _ ← op "->"; expression R)
    noBlock "function definition" t.pos.line)
  <|> (do
    let p ← here
    let a ← opt (kw "async")
    let _ ← kw "def"
    let n ← name
    let _ ← forced "("
    let params ← opt (parameters R (functionStyle R))
    let _ ← op ")"
    let returns ← opt (do let _ ← op "->"; expression R)
    let _ ← forced ":"
    let b ← block R
    pure (.functionDef p a.isSome n.text (params.getD noParameters) b decorators returns))

def classArguments : Rule Arguments := do
  let a ← opt (do
    let _ ← op "("
    let a ← opt (arguments R)
    let _ ← op ")"
    pure (a.getD ⟨[], []⟩))
  pure (a.getD ⟨[], []⟩)

def classDefRaw (decorators : List Expr) : Rule Stmt :=
  mistake (do
    let t ← kw "class"
    let _ ← name
    let _ ← classArguments R
    noColon <|> noBlock "class definition" t.pos.line)
  <|> (do
    let p ← here
    let _ ← kw "class"
    let n ← name
    let a ← classArguments R
    let _ ← op ":"
    let b ← block R
    pure (.classDef p n.text a.args a.keywords b decorators))

def decorators : Rule (List Expr) := many1 do
  let _ ← op "@"
  let e ← namedExpression R
  let _ ← kind .newline
  pure e

def functionDef : Rule Stmt :=
  (do let ds ← decorators R; functionDefRaw R ds) <|> functionDefRaw R []

def classDef : Rule Stmt :=
  (do let ds ← decorators R; classDefRaw R ds) <|> classDefRaw R []

/-! ### Match statements -/

def subjectExpr : Rule Expr :=
  (do
    let p ← here
    let e ← starNamedExpression R
    let _ ← op ","
    let es ← opt (starNamedExpressions R)
    pure (.tuple p (e :: es.getD []) .load))
  <|> namedExpression R

def guardExpr : Rule (Option Expr) := opt (do let _ ← kw "if"; namedExpression R)

def caseBlock : Rule MatchCase :=
  mistake (do
    let t ← soft "case"
    let _ ← patterns R
    let _ ← guardExpr R
    noColon <|> noBlock "'case' statement" t.pos.line)
  <|> (do
    let _ ← soft "case"
    let q ← patterns R
    let g ← guardExpr R
    let _ ← op ":"
    let b ← block R
    pure (.mk q g b))

def matchStmt : Rule Stmt :=
  (do
    let p ← here
    let _ ← soft "match"
    let e ← subjectExpr R
    let _ ← op ":"
    let _ ← kind .newline
    let _ ← kind .indent
    let cs ← many1 (caseBlock R)
    let _ ← kind .dedent
    pure (.matchBlock p e cs))
  <|> mistake (do
    let t ← soft "match"
    let _ ← subjectExpr R
    noColon <|> noBlock "'match' statement" t.pos.line)

/-! ### All statements -/

def compoundStmt : Rule Stmt := do
  let t ← peek
  let asyncForms : Rule Stmt := functionDef R <|> withStmt R <|> forStmt R
  match t.kind, t.text with
  | .keyword, "def" => functionDef R
  | .op, "@" => functionDef R <|> classDef R
  | .keyword, "async" => asyncForms
  | .keyword, "if" => ifStmt R
  | .keyword, "class" => classDef R
  | .keyword, "with" => withStmt R
  | .keyword, "for" => forStmt R
  | .keyword, "try" => tryStmt R
  | .keyword, "while" => whileStmt R
  | .name, "match" => matchStmt R
  | _, _ => fail

def statement : Rule (List Stmt) :=
  (do let s ← compoundStmt R; pure [s]) <|> simpleStmts R

def statements : Rule (List Stmt) := do
  let ss ← many1 (statement R)
  pure ss.flatten

end TriggerScript.Syntax.Grammar
