import TriggerScript.Syntax.Grammar.Basic
import TriggerScript.Syntax.Literal

/-!
# String expressions

One or more string tokens side by side make one string. A formatted string is cut into literal parts
and the expressions between braces; these are read with the rules for expressions as if they stood
in parentheses, at their true place in the script. All other parts have the position of the whole.
-/

namespace TriggerScript.Syntax.Grammar

open Rule

/-- Why a string was refused: a wording that is reported at the current token, or a fault with its
own place. -/
inductive Refusal where
  | worded (message : String)
  | fault (f : Fault)

inductive Piece where
  | text (cs : List Char)
  | value (e : Expr)

abbrev Reader := Except Refusal

open Lexer (Cursor)

def refuse {α : Type} (message : String) : Reader α := .error (.worded message)

def decoded {α : Type} (r : Except String α) : Reader α :=
  match r with
  | .ok a => .ok a
  | .error message => .error (.worded message)

inductive LiteralEnd where
  | doubled
  | brace
  deriving DecidableEq

def scanLiteral (raw : Bool) (outer : Bool) : Nat → Cursor → List Char →
    Reader (List Char × LiteralEnd × Cursor)
  | 0, c, acc => .ok (acc.reverse, .brace, c)
  | n + 1, c, acc =>
    match c.rest with
    | [] => .ok (acc.reverse, .brace, c)
    | '\\' :: x :: _ =>
      if raw then
        scanLiteral raw outer n c.next ('\\' :: acc)
      else if x = '\x7b' ∨ x = '\x7d' then
        -- the backslash stays and the brace counts
        scanLiteral raw outer n c.next ('\\' :: acc)
      else scanLiteral raw outer n (c.skip 2) (x :: '\\' :: acc)
    | x :: rest =>
      if x = '\x7b' ∨ x = '\x7d' then
        if outer then
          if rest.head? = some x then .ok ((x :: acc).reverse, .doubled, c.skip 2)
          else if x = '\x7d' then refuse "f-string: single '\x7d' is not allowed"
          else .ok (acc.reverse, .brace, c)
        else .ok (acc.reverse, .brace, c)
      else scanLiteral raw outer n c.next (x :: acc)

structure Walk where
  /-- The quote that closes the string the walk is in, and how many of them. -/
  quote : Option (Char × Nat) := none
  brackets : List Char := []

def scanExpression : Nat → Cursor → Walk → Reader Cursor
  | 0, c, _ => .ok c
  | n + 1, c, w =>
    let finish : Reader Cursor :=
      match w.quote, w.brackets with
      | some _, _ => refuse "f-string: unterminated string"
      | none, o :: _ => refuse ("f-string: unmatched '" ++ String.ofList [o] ++ "'")
      | none, [] => .ok c
    match c.rest with
    | [] => finish
    | x :: rest =>
      let triple := rest.take 2 == [x, x]
      if x = '\\' then refuse "f-string expression part cannot include a backslash"
      else match w.quote with
      | some (q, size) =>
        if x = q then
          if size = 3 then
            if triple then scanExpression n (c.skip 3) { w with quote := none }
            else scanExpression n c.next w
          else scanExpression n c.next { w with quote := none }
        else scanExpression n c.next w
      | none =>
        if x = '\'' ∨ x = '"' then
          if triple then scanExpression n (c.skip 3) { w with quote := some (x, 3) }
          else scanExpression n c.next { w with quote := some (x, 1) }
        else if x = '[' ∨ x = '\x7b' ∨ x = '(' then
          if w.brackets.length ≥ 200 then refuse "f-string: too many nested parenthesis"
          else scanExpression n c.next { w with brackets := x :: w.brackets }
        else if x = '#' then refuse "f-string expression part cannot include '#'"
        else if w.brackets.isEmpty ∧
            (x = '!' ∨ x = ':' ∨ x = '\x7d' ∨ x = '=' ∨ x = '>' ∨ x = '<') then
          if rest.head? = some '=' ∧ (x = '!' ∨ x = '=' ∨ x = '<' ∨ x = '>') then
            scanExpression n (c.skip 2) w
          else if x = '>' ∨ x = '<' then scanExpression n c.next w
          else finish
        else if x = ']' ∨ x = '\x7d' ∨ x = ')' then
          match w.brackets with
          | [] => refuse ("f-string: unmatched '" ++ String.ofList [x] ++ "'")
          | o :: below =>
            if o = Lexer.opening x then scanExpression n c.next { w with brackets := below }
            else
              refuse ("f-string: closing parenthesis '" ++ String.ofList [x]
                ++ "' does not match opening parenthesis '" ++ String.ofList [o] ++ "'")
        else scanExpression n c.next w

def readExpression (R : Rules) (brace : Position) (text : List Char) (stop : Option Char) :
    Reader Expr :=
  let isSpace (c : Char) : Bool := c == ' ' || c == '\t' || c == '\n' || c == '\x0c'
  if text.all isSpace then
    match stop with
    | some '!' => refuse "f-string: expression required before '!'"
    | some ':' => refuse "f-string: expression required before ':'"
    | some '=' => refuse "f-string: expression required before '='"
    | _ => refuse "f-string: empty expression not allowed"
  else
    match Rule.parse R.starExpressions (tokenize ('(' :: text ++ [')']) brace) true with
    | .ok e => .ok e
    | .error f => .error (.fault f)

def isAsciiBlank (c : Char) : Bool := c == ' ' || ('\t' ≤ c && c ≤ '\r')

def pushText (cs : List Char) : List Piece → List Piece
  | .text before :: rest => .text (before ++ cs) :: rest
  | rest => if cs.isEmpty then rest else .text cs :: rest

def assemble (first : Position) (kind : Option String) (pieces : List Piece) : List Expr :=
  pieces.map fun
    | .text cs => .constant first (.text (String.ofList cs)) kind
    | .value e => e

def readPieces (R : Rules) (raw : Bool) (first : Position) (kind : Option String) :
    Nat → (level : Nat) → Cursor → List Piece → Reader (List Piece × Cursor)
  | 0, _, c, acc => .ok (acc, c)
  | n + 1, level, c, acc => do
    let (cs, how, c) ← scanLiteral raw (level == 0) (c.rest.length + 1) c []
    let cs ← decoded (decodeText raw cs)
    let acc := pushText cs acc
    if how = .doubled then readPieces R raw first kind n level c acc
    else
      match c.rest with
      | [] => finish level c acc
      | '\x7d' :: _ => finish level c acc
      | _ =>
        if level ≥ 2 then refuse "f-string: expressions nested too deeply"
        else
          let brace := c.pos
          let start := c.next
          let stop ← scanExpression (start.rest.length + 1) start {}
          if stop.rest.isEmpty then refuse "f-string: expecting '\x7d'"
          else
            let text := start.rest.take (start.rest.length - stop.rest.length)
            let value ← readExpression R brace text stop.rest.head?
            -- the text of the expression itself, after an equals sign
            let (shown, c) :=
              match stop.rest with
              | '=' :: _ =>
                let after := stop.next
                let after := after.skip (after.rest.takeWhile isAsciiBlank).length
                (some (start.rest.take (start.rest.length - after.rest.length)), after)
              | _ => (none, stop)
            let (conversion, c) ←
              match c.rest with
              | '!' :: x :: _ =>
                if x = 's' ∨ x = 'r' ∨ x = 'a' then pure (some x, c.skip 2)
                else refuse "f-string: invalid conversion character: expected 's', 'r', or 'a'"
              | ['!'] => refuse "f-string: expecting '\x7d'"
              | _ => pure (none, c)
            let (spec, c) ←
              match c.rest with
              | ':' :: _ =>
                if c.next.rest.isEmpty then refuse "f-string: expecting '\x7d'"
                else do
                  let (pieces, c) ← readPieces R raw first kind n (level + 1) c.next []
                  pure (some (Expr.joinedStr first (assemble first kind pieces.reverse)), c)
              | _ => pure (none, c)
            match c.rest with
            | '\x7d' :: _ =>
              let acc := match shown with
                | some cs => pushText cs acc
                | none => acc
              let conversion : Int := match conversion with
                | some x => x.toNat
                | none => if shown.isSome && spec.isNone then 114 else -1
              readPieces R raw first kind n level c.next
                (.value (.formattedValue first value conversion spec) :: acc)
            | _ => refuse "f-string: expecting '\x7d'"
where
  finish (level : Nat) (c : Cursor) (acc : List Piece) : Reader (List Piece × Cursor) :=
    if level ≠ 0 ∧ c.rest.head? ≠ some '\x7d' then refuse "f-string: expecting '\x7d'"
    else .ok (acc, c)

structure Joined where
  bytes : Option (List UInt8) := none
  isFormat : Bool := false
  pieces : List Piece := []

def joinStrings (R : Rules) (first : Position) (kind : Option String) :
    List Token → (isFirst : Bool) → Joined → Reader Joined
  | [], _, j => .ok j
  | t :: ts, isFirst, j => do
    let body := stringBody t.text
    let bytes ←
      if body.isBytes then
        match decodeBytes body.isRaw body.body with
        | .ok bs => pure bs
        | .error message =>
          if message.startsWith "bytes" then .error (.fault { message, line := some t.pos.line })
          else refuse message
      else pure []
    let text ←
      if body.isBytes || body.isFormat then pure [] else decoded (decodeText body.isRaw body.body)
    if !isFirst && j.bytes.isSome != body.isBytes then
      refuse "cannot mix bytes and nonbytes literals"
    else if body.isFormat then
      let whole : Cursor := ⟨t.text.toList, t.pos.line, t.pos.column⟩
      let start := whole.skip body.offset
      let (pieces, _) ← readPieces R body.isRaw first kind (body.body.length + 1) 0
        { start with rest := body.body } j.pieces
      joinStrings R first kind ts false { j with isFormat := true, pieces }
    else if body.isBytes then
      joinStrings R first kind ts false { j with bytes := some (j.bytes.getD [] ++ bytes) }
    else joinStrings R first kind ts false { j with pieces := pushText text j.pieces }

def strings (R : Rules) : Rule Expr := do
  let first ← here
  let tokens ← many1 (Rule.kind .string)
  let kind := match tokens with
    | t :: _ => if (stringBody t.text).isMarked then some "u" else none
    | [] => none
  match joinStrings R first kind tokens true {} with
  | .error (.worded message) => stopHere message
  | .error (.fault f) => fun _ m ↦ .stop f m.seen
  | .ok j =>
    match j.bytes with
    | some bs => pure (.constant first (.bytes bs) none)
    | none =>
      if j.isFormat then pure (.joinedStr first (assemble first kind j.pieces.reverse))
      else
        let cs := match j.pieces with
          | .text cs :: _ => cs
          | _ => []
        pure (.constant first (.text (String.ofList cs)) kind)

end TriggerScript.Syntax.Grammar
