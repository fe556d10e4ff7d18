/-!
# Syntax trees

The tree of a script. Every expression and statement carries the position of its first token; lines
count from 1 and columns count bytes of UTF-8 from 0.

A tree can be looked at in several shapes, which differ in how the index of a subscript and a
literal appear (`Shape`). The shape changes the kinds under which nodes are known, not the tree.
-/

namespace TriggerScript.Syntax

structure Position where
  line : Nat
  column : Nat
  deriving Repr, DecidableEq, Inhabited

inductive Literal where
  | none
  | bool (b : Bool)
  | int (n : Int)
  | float (x : Float)
  | imaginary (x : Float)
  | text (s : String)
  | bytes (bs : List UInt8)
  | ellipsis
  deriving Inhabited

structure Shape where
  /-- The index of a subscript is a node of its own. -/
  wrapsIndex : Bool := true
  /-- Literals have a kind of node for each kind of value. -/
  literalsByKind : Bool := false
  deriving Repr, DecidableEq, Inhabited

/-- What is done with a name, an attribute, a subscript or a display: it is read, bound or
deleted. -/
inductive Access where
  | load
  | store
  | delete
  deriving Repr, DecidableEq, Inhabited

inductive BoolOperator where
  | and
  | or
  deriving Repr, DecidableEq

inductive Operator where
  | add | sub | mult | matMult | div | mod | pow | lShift | rShift | bitOr | bitXor | bitAnd
  | floorDiv
  deriving Repr, DecidableEq

inductive UnaryOperator where
  | invert | not | uAdd | uSub
  deriving Repr, DecidableEq

inductive Comparison where
  | eq | notEq | lt | ltE | gt | gtE | is | isNot | isIn | notIn
  deriving Repr, DecidableEq

mutual

inductive Expr where
  | boolOp (pos : Position) (op : BoolOperator) (values : List Expr)
  | namedExpr (pos : Position) (target value : Expr)
  | binOp (pos : Position) (left : Expr) (op : Operator) (right : Expr)
  | unaryOp (pos : Position) (op : UnaryOperator) (operand : Expr)
  | lambda (pos : Position) (params : Parameters) (body : Expr)
  | ifExp (pos : Position) (test body orelse : Expr)
  | dict (pos : Position) (items : List DictItem)
  | set (pos : Position) (elts : List Expr)
  | listComp (pos : Position) (elt : Expr) (generators : List Comprehension)
  | setComp (pos : Position) (elt : Expr) (generators : List Comprehension)
  | dictComp (pos : Position) (key value : Expr) (generators : List Comprehension)
  | generatorExp (pos : Position) (elt : Expr) (generators : List Comprehension)
  | await (pos : Position) (value : Expr)
  | yield (pos : Position) (value : Option Expr)
  | yieldFrom (pos : Position) (value : Expr)
  | compare (pos : Position) (left : Expr) (ops : List Comparison) (comparators : List Expr)
  | call (pos : Position) (func : Expr) (args : List Expr) (keywords : List Keyword)
  | formattedValue (pos : Position) (value : Expr) (conversion : Int) (spec : Option Expr)
  | joinedStr (pos : Position) (values : List Expr)
  | constant (pos : Position) (value : Literal) (kind : Option String)
  | member (pos : Position) (value : Expr) (attr : String) (access : Access)
  | subscript (pos : Position) (value slice : Expr) (access : Access)
  | starred (pos : Position) (value : Expr) (access : Access)
  | name (pos : Position) (id : String) (access : Access)
  | list (pos : Position) (elts : List Expr) (access : Access)
  | tuple (pos : Position) (elts : List Expr) (access : Access)
  | slice (pos : Position) (lower upper step : Option Expr)

/-- An entry of a dictionary display: a key with its value, or a mapping that is spread out. -/
inductive DictItem where
  | pair (key value : Expr)
  | spread (value : Expr)

/-- A `for` clause of a comprehension with its conditions. -/
inductive Comprehension where
  | clause (target iter : Expr) (ifs : List Expr) (isAsync : Bool)

/-- A keyword argument; without a name it is a mapping that is spread out. -/
inductive Keyword where
  | keyword (name : Option String) (value : Expr)

inductive Parameter where
  | param (name : String) (typeHint : Option Expr)

/-- The parameters of a function. Defaults belong to the last of the positional parameters; the
keyword-only ones have one place each for a default. -/
inductive Parameters where
  | params (posOnly regular : List Parameter) (varArg : Option Parameter)
      (kwOnly : List Parameter) (kwDefaults : List (Option Expr)) (kwArg : Option Parameter)
      (defaults : List Expr)

end

instance : Inhabited Expr := ⟨.constant default .none none⟩

structure Alias where
  name : String
  asName : Option String
  deriving Repr, DecidableEq

structure WithItem where
  context : Expr
  target : Option Expr

inductive Pattern where
  | value (pos : Position) (e : Expr)
  | singleton (pos : Position) (value : Literal)
  | sequence (pos : Position) (patterns : List Pattern)
  | mapping (pos : Position) (keys : List Expr) (patterns : List Pattern) (rest : Option String)
  | construct (pos : Position) (cls : Expr) (patterns : List Pattern) (names : List String)
      (named : List Pattern)
  | star (pos : Position) (name : Option String)
  | capture (pos : Position) (pattern : Option Pattern) (name : Option String)
  | alternatives (pos : Position) (patterns : List Pattern)

mutual

inductive Stmt where
  | functionDef (pos : Position) (isAsync : Bool) (name : String) (params : Parameters)
      (body : List Stmt) (decorators : List Expr) (returns : Option Expr)
  | classDef (pos : Position) (name : String) (bases : List Expr) (keywords : List Keyword)
      (body : List Stmt) (decorators : List Expr)
  | ret (pos : Position) (value : Option Expr)
  | delete (pos : Position) (targets : List Expr)
  | assign (pos : Position) (targets : List Expr) (value : Expr)
  | augAssign (pos : Position) (target : Expr) (op : Operator) (value : Expr)
  | annAssign (pos : Position) (target typeHint : Expr) (value : Option Expr) (simple : Bool)
  | forLoop (pos : Position) (isAsync : Bool) (target iter : Expr) (body orelse : List Stmt)
  | whileLoop (pos : Position) (test : Expr) (body orelse : List Stmt)
  | cond (pos : Position) (test : Expr) (body orelse : List Stmt)
  | withBlock (pos : Position) (isAsync : Bool) (items : List WithItem) (body : List Stmt)
  | matchBlock (pos : Position) (subject : Expr) (cases : List MatchCase)
  | raiseError (pos : Position) (exc cause : Option Expr)
  | tryBlock (pos : Position) (isStar : Bool) (body : List Stmt) (handlers : List Handler)
      (orelse finalBody : List Stmt)
  | assertion (pos : Position) (test : Expr) (msg : Option Expr)
  | importNames (pos : Position) (names : List Alias)
  | importFrom (pos : Position) (module : Option String) (names : List Alias) (level : Nat)
  | globalNames (pos : Position) (names : List String)
  | nonlocalNames (pos : Position) (names : List String)
  | expr (pos : Position) (value : Expr)
  | pass (pos : Position)
  | breakLoop (pos : Position)
  | continueLoop (pos : Position)

inductive MatchCase where
  | mk (pattern : Pattern) (guard : Option Expr) (body : List Stmt)

inductive Handler where
  | mk (pos : Position) (type : Option Expr) (name : Option String) (body : List Stmt)

end

instance : Inhabited Stmt := ⟨.pass default⟩

structure Module where
  body : List Stmt
  deriving Inhabited

/-! ### Positions and kinds of nodes -/

def Expr.pos : Expr → Position
  | boolOp p _ _ | namedExpr p _ _ | binOp p _ _ _ | unaryOp p _ _ | lambda p _ _ | ifExp p _ _ _
  | dict p _ | set p _ | listComp p _ _ | setComp p _ _ | dictComp p _ _ _ | generatorExp p _ _
  | await p _ | yield p _ | yieldFrom p _ | compare p _ _ _ | call p _ _ _
  | formattedValue p _ _ _ | joinedStr p _ | constant p _ _ | member p _ _ _
  | subscript p _ _ _ | starred p _ _ | name p _ _ | list p _ _ | tuple p _ _
  | slice p _ _ _ => p

def Stmt.pos : Stmt → Position
  | functionDef p _ _ _ _ _ _ | classDef p _ _ _ _ _ | ret p _ | delete p _ | assign p _ _
  | augAssign p _ _ _ | annAssign p _ _ _ _ | forLoop p _ _ _ _ _ | whileLoop p _ _ _
  | cond p _ _ _ | withBlock p _ _ _ | matchBlock p _ _ | raiseError p _ _ | tryBlock p _ _ _ _ _
  | assertion p _ _ | importNames p _ | importFrom p _ _ _ | globalNames p _ | nonlocalNames p _
  | expr p _ | pass p | breakLoop p | continueLoop p => p

def Literal.nodeName : Literal → String
  | none | bool _ => "NameConstant"
  | int _ | float _ | imaginary _ => "Num"
  | text _ => "Str"
  | bytes _ => "Bytes"
  | ellipsis => "Ellipsis"

def Expr.nodeName (shape : Shape) : Expr → String
  | boolOp .. => "BoolOp"
  | namedExpr .. => "NamedExpr"
  | binOp .. => "BinOp"
  | unaryOp .. => "UnaryOp"
  | lambda .. => "Lambda"
  | ifExp .. => "IfExp"
  | dict .. => "Dict"
  | set .. => "Set"
  | listComp .. => "ListComp"
  | setComp .. => "SetComp"
  | dictComp .. => "DictComp"
  | generatorExp .. => "GeneratorExp"
  | await .. => "Await"
  | yield .. => "Yield"
  | yieldFrom .. => "YieldFrom"
  | compare .. => "Compare"
  | call .. => "Call"
  | formattedValue .. => "FormattedValue"
  | joinedStr .. => "JoinedStr"
  | constant _ v _ => if shape.literalsByKind then v.nodeName else "Constant"
  | member .. => "Attribute"
  | subscript .. => "Subscript"
  | starred .. => "Starred"
  | name .. => "Name"
  | list .. => "List"
  | tuple .. => "Tuple"
  | slice .. => "Slice"

def Expr.isDimensions : Expr → Bool
  | tuple _ elts _ => elts.any fun | slice .. => true | _ => false
  | _ => false

/-- The kind of the node that stands in the brackets of a subscript. -/
def Expr.subscriptName (shape : Shape) (e : Expr) : String :=
  match e with
  | slice .. => "Slice"
  | e =>
    if shape.wrapsIndex then if e.isDimensions then "ExtSlice" else "Index" else e.nodeName shape

def Stmt.nodeName : Stmt → String
  | functionDef _ isAsync .. => if isAsync then "AsyncFunctionDef" else "FunctionDef"
  | classDef .. => "ClassDef"
  | ret .. => "Return"
  | delete .. => "Delete"
  | assign .. => "Assign"
  | augAssign .. => "AugAssign"
  | annAssign .. => "AnnAssign"
  | forLoop _ isAsync .. => if isAsync then "AsyncFor" else "For"
  | whileLoop .. => "While"
  | cond .. => "If"
  | withBlock _ isAsync .. => if isAsync then "AsyncWith" else "With"
  | matchBlock .. => "Match"
  | raiseError .. => "Raise"
  | tryBlock _ isStar .. => if isStar then "TryStar" else "Try"
  | assertion .. => "Assert"
  | importNames .. => "Import"
  | importFrom .. => "ImportFrom"
  | globalNames .. => "Global"
  | nonlocalNames .. => "Nonlocal"
  | expr .. => "Expr"
  | pass .. => "Pass"
  | breakLoop .. => "Break"
  | continueLoop .. => "Continue"

def Operator.nodeName : Operator → String
  | add => "Add" | sub => "Sub" | mult => "Mult" | matMult => "MatMult" | div => "Div"
  | mod => "Mod" | pow => "Pow" | lShift => "LShift" | rShift => "RShift" | bitOr => "BitOr"
  | bitXor => "BitXor" | bitAnd => "BitAnd" | floorDiv => "FloorDiv"

def UnaryOperator.nodeName : UnaryOperator → String
  | invert => "Invert" | not => "Not" | uAdd => "UAdd" | uSub => "USub"

def Comparison.nodeName : Comparison → String
  | eq => "Eq" | notEq => "NotEq" | lt => "Lt" | ltE => "LtE" | gt => "Gt" | gtE => "GtE"
  | is => "Is" | isNot => "IsNot" | isIn => "In" | notIn => "NotIn"

def BoolOperator.nodeName : BoolOperator → String
  | and => "And" | or => "Or"

def Access.nodeName : Access → String
  | load => "Load" | store => "Store" | delete => "Del"

def Expr.dottedName? : Expr → Option String
  | name _ id _ => some id
  | member _ value attr _ => value.dottedName?.map fun s ↦ s ++ "." ++ attr
  | _ => none

end TriggerScript.Syntax
