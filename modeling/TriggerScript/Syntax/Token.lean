import TriggerScript.Number.Layout
import TriggerScript.Syntax.Fault
import TriggerScript.Syntax.Tree
import TriggerScript.Text.Cut
import TriggerScript.Text.Quoted

/-!
# Tokens

A script is cut into tokens: names, keywords, numbers, strings and operators, the ends of logical
lines, and the beginning and end of indented blocks. Inside brackets line ends do not count.

Cutting stops at the first place that cannot be a token. The tokens before it are kept with the
reason (`Trouble`), because a parser may find an earlier fault before it gets there.
-/

namespace TriggerScript.Syntax

open Text

inductive TokenKind where
  | name | keyword | number | string | op | newline | indent | dedent | endMarker
  deriving Repr, DecidableEq, Inhabited

/-- A token: its text, where it starts, and how many brackets are open after it. -/
structure Token where
  kind : TokenKind
  text : String
  pos : Position
  level : Nat
  deriving Repr, Inhabited

structure Trouble where
  fault : Fault
  /-- The place itself is at fault, rather than what surrounds it. -/
  direct : Bool
  /-- The innermost open bracket and its line. -/
  opened : Option (Char × Nat)

structure TokenStream where
  tokens : Array Token
  trouble : Option Trouble
  /-- The line that a parser reports when it reaches the place of trouble. -/
  lastLine : Nat

def keywords : List String :=
  ["False", "None", "True", "and", "as", "assert", "async", "await", "break", "class", "continue",
   "def", "del", "elif", "else", "except", "finally", "for", "from", "global", "if", "import", "in",
   "is", "lambda", "nonlocal", "not", "or", "pass", "raise", "return", "try", "while", "with",
   "yield"]

def neverClosed (bracket : Char) (line : Nat) : Fault :=
  { message := "'" ++ String.ofList [bracket] ++ "' was never closed", line := some line }

namespace Lexer

structure Cursor where
  rest : List Char
  line : Nat
  column : Nat

variable (s : State) (c : Cursor)

def Cursor.pos : Position := ⟨c.line, c.column⟩

def Cursor.next : Cursor :=
  match c.rest with
  | [] => c
  | '\n' :: rest => ⟨rest, c.line + 1, 0⟩
  | x :: rest => ⟨rest, c.line, c.column + x.utf8Size⟩

def Cursor.skip (c : Cursor) : Nat → Cursor
  | 0 => c
  | n + 1 => c.next.skip n

structure State where
  at_ : Cursor
  lineStart : Bool := true
  /-- Columns of the open blocks, innermost first: with tabs up to multiples of eight, and with tabs
  as single columns. -/
  indents : List (Nat × Nat) := [(0, 0)]
  brackets : List (Char × Nat) := []
  tokens : Array Token := #[]
  /-- The line reported at the end of the text. -/
  finalLine : Nat

def State.push (s : State) (kind : TokenKind) (text : String) (from_ : Position) (after : Cursor) :
    State :=
  { s with at_ := after, tokens := s.tokens.push ⟨kind, text, from_, s.brackets.length⟩ }

inductive Step where
  | go (s : State)
  | finished (s : State)
  | stopped (s : State) (fault : Fault) (direct : Bool) (line : Nat)

def State.here : Nat := if s.at_.rest.isEmpty then s.finalLine else s.at_.line

def State.stop (message : String) : Step := .stopped s { message, line := some s.here } true s.here

def State.stopAt (line : Nat) (message : String) : Step :=
  .stopped s { message, line := some line } true line

def State.endedEarly : Step :=
  let fault : Fault := match s.brackets with
    | (c, line) :: _ => neverClosed c line
    | [] => { message := "unexpected EOF while parsing", line := some s.finalLine }
  .stopped s fault false s.finalLine

/-! ### Line starts -/

/-- The columns of the indentation and what follows it; `none` for the column of a continued line
until a backslash is met. -/
structure Indentation where
  column : Nat := 0
  alternate : Nat := 0
  continued : Nat := 0

def readIndentation (s : State) : Nat → Cursor → Indentation → Except Step (Cursor × Indentation)
  | 0, c, i => .ok (c, i)
  | n + 1, c, i =>
    match c.rest with
    | ' ' :: _ =>
      readIndentation s n c.next { i with column := i.column + 1, alternate := i.alternate + 1 }
    | '\t' :: _ =>
      readIndentation s n c.next
        { i with column := (i.column / 8 + 1) * 8, alternate := i.alternate + 1 }
    | '\x0c' :: _ => readIndentation s n c.next { i with column := 0, alternate := 0 }
    | '\\' :: '\n' :: rest =>
      if rest.isEmpty then .error ({ s with at_ := ⟨[], c.line, 0⟩ }.endedEarly)
      else
        readIndentation s n (c.skip 2)
          { i with continued := if i.continued = 0 then i.column else i.continued }
    | '\\' :: _ =>
      .error (.stopped s
        { message := "unexpected character after line continuation character", line := some c.line }
        false c.line)
    | _ => .ok (c, i)

def tabFault (line : Nat) : Step :=
  .stopped s
    { kind := .tabs, message := "inconsistent use of tabs and spaces in indentation",
      line := some line }
    false line

def closeBlocks (pos : Position) (column : Nat) : List (Nat × Nat) → Array Token →
    List (Nat × Nat) × Array Token
  | top :: below, tokens =>
    if column < top.1 then closeBlocks pos column below (tokens.push ⟨.dedent, "", pos, 0⟩)
    else (top :: below, tokens)
  | [], tokens => ([], tokens)

def atIndentation (i : Indentation) : Step :=
  let column := if i.continued ≠ 0 then i.continued else i.column
  let alternate := if i.continued ≠ 0 then i.continued else i.alternate
  let line := if c.rest.isEmpty then s.finalLine else c.line
  let pos : Position := ⟨line, c.column⟩
  let s := { s with at_ := c, lineStart := false }
  let top := s.indents.headD (0, 0)
  if column = top.1 then
    if alternate ≠ top.2 then tabFault s line else .go s
  else if top.1 < column then
    if alternate ≤ top.2 then tabFault s line
    else if s.indents.length ≥ 100 then
      .stopped s
        { kind := .indentation, message := "too many levels of indentation", line := some line }
        false line
    else
      .go { s with
        indents := (column, alternate) :: s.indents
        tokens := s.tokens.push ⟨.indent, "", pos, 0⟩ }
  else
    let (indents, tokens) := closeBlocks pos column s.indents s.tokens
    let top := indents.headD (0, 0)
    if column ≠ top.1 then
      .stopped s
        { kind := .indentation, message := "unindent does not match any outer indentation level",
          line := some line } false line
    else if alternate ≠ top.2 then tabFault s line
    else .go { s with indents, tokens }

def dropComment : Cursor := c.skip (c.rest.takeWhile (· ≠ '\n')).length

def lineStart (s : State) : Step :=
  let blanks := s.at_.rest.takeWhile fun c ↦ " \t\x0c\\\n".toList.contains c
  match readIndentation s (blanks.length + 1) s.at_ {} with
  | .error step => step
  | .ok (c, i) =>
    match c.rest with
    | '#' :: _ => .go { s with at_ := (dropComment c).next }
    | '\n' :: _ => .go { s with at_ := c.next }
    | _ =>
      if s.brackets.isEmpty then atIndentation s c i
      else .go { s with at_ := c, lineStart := false }

/-! ### Names and strings -/

def isNameByte (c : Char) : Bool := c.isAlphanum || c == '_' || c.toNat ≥ 128

/-- The number of characters of a string prefix that a quote follows. -/
def stringPrefix? (cs : List Char) : Option Nat :=
  let isQuote (c : Char) := c == '"' || c == '\''
  match (cs.take 3).map Char.toLower with
  | a :: b :: c :: _ =>
    if isQuote a then some 0
    else if isQuote b then
      if a == 'r' || a == 'u' || a == 'b' || a == 'f' then some 1 else none
    else if isQuote c then
      let two := String.ofList [a, b]
      if ["br", "rb", "fr", "rf"].contains two then some 2 else none
    else none
  | [a, b] => if isQuote a then some 0
    else if isQuote b && (a == 'r' || a == 'u' || a == 'b' || a == 'f') then some 1 else none
  | [a] => if isQuote a then some 0 else none
  | [] => none

def stringEnd (quote : Char) (size : Nat) : Nat → Cursor → Nat → Bool × Cursor
  | 0, c, _ => (false, c)
  | n + 1, c, closing =>
    if closing = size then (true, c)
    else
      match c.rest with
      | [] => (false, c)
      | x :: _ =>
        if x = '\n' ∧ size = 1 then (false, c)
        else if x = quote then stringEnd quote size n c.next (closing + 1)
        else if x = '\\' then stringEnd quote size n (c.skip 2) 0
        else stringEnd quote size n c.next 0

def between (a b : Cursor) : String := String.ofList (a.rest.take (a.rest.length - b.rest.length))

def cutString (prefixSize : Nat) : Step :=
  let start := s.at_
  let c := start.skip prefixSize
  let quote := c.rest.headD '"'
  let triple := c.rest.take 3 == [quote, quote, quote]
  let empty := !triple && c.rest.take 2 == [quote, quote]
  if empty then .go (s.push .string (between start (c.skip 2)) start.pos (c.skip 2))
  else
    let size := if triple then 3 else 1
    let (found, stop) := stringEnd quote size (c.rest.length + 2) (c.skip size) 0
    if found then .go (s.push .string (between start stop) start.pos stop)
    else
      let detected := if stop.rest.isEmpty then s.finalLine else stop.line
      s.stopAt start.line ((if triple then "unterminated triple-quoted string literal"
        else "unterminated string literal") ++ " (detected at line " ++ Number.natText detected ++
          ")")

def codePoint (c : Char) : String := "U+" ++ String.ofList ((hexDigits 4 c.toNat).map Char.toUpper)

def cutName : Step :=
  let start := s.at_
  let cs := start.rest.takeWhile isNameByte
  let after := start.skip cs.length
  let firstBad := match cs with
    | c :: rest => if isNameStart c then rest.find? (fun c ↦ !isNamePart c) else some c
    | [] => none
  match firstBad with
  | some c =>
    if isPrintable c then
      s.stop ("invalid character '" ++ String.ofList [c] ++ "' (" ++ codePoint c ++ ")")
    else s.stop ("invalid non-printable character " ++ codePoint c)
  | none =>
    let text := String.ofList cs
    .go (s.push (if keywords.contains text then .keyword else .name) text start.pos after)

/-! ### Numbers -/

def digitTail (isDigit : Char → Bool) : List Char → Nat × Bool
  | [] => (0, false)
  | c :: cs =>
    if isDigit c then let r := digitTail isDigit cs; (r.1 + 1, r.2)
    else if c = '_' then
      match cs with
      | d :: _ => if isDigit d then let r := digitTail isDigit cs; (r.1 + 1, r.2) else (0, true)
      | [] => (0, true)
    else (0, false)

/-- A number may be followed directly by one of these words. -/
def wordMayFollow (cs : List Char) : Bool :=
  ["and", "else", "for", "if", "in", "is", "or", "not"].any fun w ↦ (after? w.toList cs).isSome

def endNumber (size : Nat) (kind : String) : Step :=
  let start := s.at_
  let after := start.skip size
  let bad := match after.rest with
    | c :: _ => isNameByte c && !wordMayFollow after.rest
    | [] => false
  if bad then s.stop ("invalid " ++ kind ++ " literal")
  else .go (s.push .number (String.ofList (start.rest.take size)) start.pos after)

def cutBased (isDigit : Char → Bool) (kind : String) : Step :=
  let cs := s.at_.rest.drop 2
  let body := match cs with
    | '_' :: r => (1, r)
    | r => (0, r)
  let bad (rest : List Char) : Step :=
    match rest with
    | d :: _ =>
      if d.isDigit && kind ≠ "hexadecimal" then
        s.stop ("invalid digit '" ++ String.ofList [d] ++ "' in " ++ kind ++ " literal")
      else s.stop ("invalid " ++ kind ++ " literal")
    | [] => s.stop ("invalid " ++ kind ++ " literal")
  match body.2 with
  | d :: _ =>
    if isDigit d then
      let (size, broken) := digitTail isDigit body.2
      let rest := body.2.drop size
      if broken then bad (rest.drop 1)
      else
        match rest with
        | e :: _ => if e.isDigit && kind ≠ "hexadecimal" then bad rest
            else endNumber s (2 + body.1 + size) kind
        | [] => endNumber s (2 + body.1 + size) kind
    else bad body.2
  | [] => bad []

def cutExponent (size : Nat) : Step :=
  let rest := s.at_.rest.drop size
  let imaginary (size : Nat) : Step :=
    match s.at_.rest.drop size with
    | c :: _ => if c = 'j' ∨ c = 'J' then endNumber s (size + 1) "imaginary"
        else endNumber s size "decimal"
    | [] => endNumber s size "decimal"
  match rest with
  | e :: more =>
    if e = 'e' ∨ e = 'E' then
      let signed := match more with
        | '+' :: _ => 1
        | '-' :: _ => 1
        | _ => 0
      match more.drop signed with
      | d :: _ =>
        if d.isDigit then
          let (n, broken) := digitTail Char.isDigit (more.drop signed)
          if broken then s.stop "invalid decimal literal" else imaginary (size + 1 + signed + n)
        else if signed = 1 then s.stop "invalid decimal literal"
        else endNumber s size "decimal"
      | [] => if signed = 1 then s.stop "invalid decimal literal" else endNumber s size "decimal"
    else imaginary size
  | [] => imaginary size

def cutFraction (size : Nat) : Step :=
  match s.at_.rest.drop size with
  | c :: cs =>
    if c.isDigit then
      let (n, broken) := digitTail Char.isDigit (c :: cs)
      if broken then s.stop "invalid decimal literal" else cutExponent s (size + n)
    else cutExponent s size
  | [] => cutExponent s size

def cutNumber : Step :=
  let cs := s.at_.rest
  match cs with
  | '0' :: c :: _ =>
    if c = 'x' ∨ c = 'X' then
      cutBased s (fun c ↦ c.isDigit || ('a' ≤ c.toLower && c.toLower ≤ 'f')) "hexadecimal"
    else if c = 'o' ∨ c = 'O' then cutBased s (fun c ↦ '0' ≤ c && c < '8') "octal"
    else if c = 'b' ∨ c = 'B' then cutBased s (fun c ↦ c == '0' || c == '1') "binary"
    else decimal cs
  | _ => decimal cs
where
  /-- A number in base ten; zeros in front are allowed only when it is zero or has a fraction. -/
  decimal (cs : List Char) : Step :=
    let (n, broken) := digitTail Char.isDigit cs
    if broken then s.stop "invalid decimal literal"
    else
      let leading := cs.head? = some '0' && (cs.take n).any (fun c ↦ c != '0' && c != '_')
      match cs.drop n with
      | c :: _ =>
        if c = '.' then cutFraction s (n + 1)
        else if leading && !(c = 'e' ∨ c = 'E' ∨ c = 'j' ∨ c = 'J') then zeros
        else cutExponent s n
      | [] => if leading then zeros else cutExponent s n
  zeros : Step :=
    s.stop ("leading zeros in decimal integer literals are not permitted; "
      ++ "use an 0o prefix for octal integers")

/-! ### Operators -/

def twoChars : List String :=
  ["!=", "%=", "&=", "**", "*=", "+=", "-=", "->", "//", "/=", ":=", "<<", "<=", "<>", "==", ">=",
   ">>", "@=", "^=", "|="]

def threeChars : List String := ["**=", "//=", "<<=", ">>="]

def opening : Char → Char
  | ')' => '('
  | ']' => '['
  | _ => '\x7b'

def cutOperator : Step :=
  let start := s.at_
  let take (n : Nat) : String := String.ofList (start.rest.take n)
  let op (s : State) (n : Nat) : Step := .go (s.push .op (take n) start.pos (start.skip n))
  if take 3 = "..." then op s 3
  else if twoChars.contains (take 2) then
    if threeChars.contains (take 3) then op s 3 else op s 2
  else
    match start.rest with
    | [] => .finished s
    | c :: _ =>
      if c = '(' ∨ c = '[' ∨ c = '\x7b' then
        if s.brackets.length ≥ 200 then s.stop "too many nested parentheses"
        else op { s with brackets := (c, start.line) :: s.brackets } 1
      else if c = ')' ∨ c = ']' ∨ c = '\x7d' then
        match s.brackets with
        | [] => s.stop ("unmatched '" ++ take 1 ++ "'")
        | (o, line) :: below =>
          if o = opening c then op { s with brackets := below } 1
          else
            let on := if line ≠ start.line then " on line " ++ Number.natText line else ""
            s.stop ("closing parenthesis '" ++ take 1 ++ "' does not match opening parenthesis '"
              ++ String.ofList [o] ++ "'" ++ on)
      else if isPrintable c then op s 1
      else s.stop ("invalid non-printable character " ++ codePoint c)

/-! ### The whole text -/

def step : Step :=
  if s.lineStart then lineStart s
  else
    let blanks := s.at_.rest.takeWhile fun c ↦ c == ' ' || c == '\t' || c == '\x0c'
    let s := { s with at_ := s.at_.skip blanks.length }
    match s.at_.rest with
    | [] =>
      if s.brackets.isEmpty then
        .finished { s with tokens := s.tokens.push ⟨.endMarker, "", ⟨s.finalLine, 0⟩, 0⟩ }
      else s.endedEarly
    | '#' :: _ => .go { s with at_ := dropComment s.at_ }
    | '\n' :: _ =>
      if s.brackets.isEmpty then
        .go { s.push .newline "" s.at_.pos s.at_.next with lineStart := true }
      else .go { s with at_ := s.at_.next, lineStart := true }
    | '\\' :: '\n' :: rest =>
      if rest.isEmpty then { s with at_ := s.at_.skip 2 }.endedEarly
      else .go { s with at_ := s.at_.skip 2 }
    | '\\' :: _ =>
      .stopped s
        { message := "unexpected character after line continuation character", line := some s.here }
        false s.here
    | c :: cs =>
      match stringPrefix? (c :: cs) with
      | some n => cutString s n
      | none =>
        if c.isDigit then cutNumber s
        else if c = '.' && (cs.head?.map Char.isDigit).getD false then cutFraction s 1
        else if isNameByte c then cutName s
        else cutOperator s

def run : Nat → State → TokenStream
  | 0, s => ⟨s.tokens, none, s.finalLine⟩
  | n + 1, s =>
    match step s with
    | .go s => run n s
    | .finished s => ⟨s.tokens, none, s.finalLine⟩
    | .stopped s fault direct line => ⟨s.tokens, some ⟨fault, direct, s.brackets.head?⟩, line⟩

def unifyLines : List Char → List Char
  | [] => []
  | '\r' :: '\n' :: cs => '\n' :: unifyLines cs
  | '\r' :: cs => '\n' :: unifyLines cs
  | c :: cs => c :: unifyLines cs

end Lexer

def tokenize (text : List Char) (start : Position) : TokenStream :=
  let cs := Lexer.unifyLines text
  let cs := if cs.getLast? = some '\n' then cs else cs ++ ['\n']
  let lines := cs.count '\n'
  Lexer.run (2 * cs.length + 10)
    { at_ := ⟨cs, start.line, start.column⟩, finalLine := start.line + lines - 1 }

end TriggerScript.Syntax
