import TriggerScript.Number.Numeral
import TriggerScript.Text.Cut

/-!
# Scalars of a YAML text

A scalar is plain or stands in quotes. Where it goes over several lines, one line break becomes a
space and further ones are kept.
-/

namespace TriggerScript.Yaml

structure Place where
  rest : List Char
  line : Nat := 0
  column : Nat := 0

def isBreak (c : Char) : Bool :=
  c == '\n' || c == '\r' || c == '\x85' || c == '\u2028' || c == '\u2029'

/-- A text may hold the character. -/
def isAllowed (c : Char) : Bool :=
  let n := c.toNat
  c == '\t' || c == '\n' || c == '\r' || c == '\x85' || (0x20 ≤ n && n ≤ 0x7E)
    || (0xA0 ≤ n && n ≤ 0xFFFD) || 0x10000 ≤ n

def atGap : List Char → Bool
  | [] => true
  | c :: _ => c == ' ' || c == '\t' || isBreak c

def atMarker (p : Place) : Bool :=
  p.column == 0 && match p.rest with
    | '-' :: '-' :: '-' :: r => atGap r
    | '.' :: '.' :: '.' :: r => atGap r
    | _ => false

/-- A character that has a meaning of its own inside brackets. -/
def isBracket (c : Char) : Bool := c == ',' || c == '[' || c == ']' || c == '\x7b' || c == '\x7d'

namespace Place

def forward (p : Place) (n : Nat) : Place := ⟨p.rest.drop n, p.line, p.column + n⟩

def lineBreak? (p : Place) : Option (Char × Place) :=
  match p.rest with
  | '\r' :: '\n' :: r => some ('\n', ⟨r, p.line + 1, 0⟩)
  | c :: r =>
    if isBreak c then
      some (if c == '\u2028' || c == '\u2029' then c else '\n', ⟨r, p.line + 1, 0⟩)
    else none
  | [] => none

def skipFrom (line column : Nat) (comment : Bool) : List Char → Place
  | [] => ⟨[], line, column⟩
  | '\r' :: '\n' :: r => skipFrom (line + 1) 0 false r
  | c :: r =>
    if isBreak c then skipFrom (line + 1) 0 false r
    else if comment || c == ' ' then skipFrom line (column + 1) comment r
    else if c == '#' then skipFrom line (column + 1) true r
    else ⟨c :: r, line, column⟩

def skip (p : Place) : Place := skipFrom p.line p.column false p.rest

def blankLines (isSpace : Char → Bool) : Nat → Place → List Char → Option (List Char) × Place
  | 0, p, _ => (none, p)
  | n + 1, p, breaks =>
    if atMarker p then (none, p)
    else
      match p.rest with
      | [] => (some breaks.reverse, p)
      | c :: _ =>
        if isSpace c then blankLines isSpace n (p.forward 1) breaks
        else
          match p.lineBreak? with
          | some (b, p) => blankLines isSpace n p (b :: breaks)
          | none => (some breaks.reverse, p)

/-- What a line break and the blank lines behind it fold to. -/
def folded (first : Char) (more : List Char) : List Char :=
  if first != '\n' then first :: more
  else if more.isEmpty then [' '] else more

def gap (isSpace : Char → Bool) (p : Place) : Option (List Char) × Place :=
  let spaces := p.rest.takeWhile isSpace
  let q := p.forward spaces.length
  match q.lineBreak? with
  | none => (some spaces, q)
  | some (b, q) =>
    let (more, q) := blankLines isSpace (q.rest.length + 1) q []
    (more.map (folded b), q)

end Place

/-! ### Plain scalars -/

def startsPlain (flow : Bool) : List Char → Bool
  | [] => false
  | c :: r =>
    if c == '-' then !atGap r
    else if c == '?' || c == ':' then !flow && !atGap r
    else
      !(c == ' ' || c == '\t' || isBreak c || isBracket c
        || ['#', '&', '*', '!', '|', '>', '\'', '"', '%', '@', '\x60'].contains c)

def plainRun (flow : Bool) : List Char → List Char
  | [] => []
  | c :: r =>
    let ends := c == ' ' || c == '\t' || isBreak c
      || (c == ':' && (atGap r || (flow && r.head?.any isBracket)))
      || (flow && (c == '?' || isBracket c))
    if ends then [] else c :: plainRun flow r

def plain (flow : Bool) (indent : Int) : Nat → Place → List Char → List Char → List Char × Place
  | 0, p, acc, _ => (acc, p)
  | n + 1, p, acc, spaces =>
    let run := plainRun flow p.rest
    if run.isEmpty then (acc, p)
    else
      let acc := acc ++ spaces ++ run
      match (p.forward run.length).gap (· == ' ') with
      | (none, p) | (some [], p) => (acc, p)
      | (some spaces, p) =>
        if p.rest.head? == some '#' || (!flow && p.column ≤ indent) then (acc, p)
        else plain flow indent n p acc spaces

/-! ### Quoted scalars -/

def escape? : Char → Option Char
  | '0' => some '\x00' | 'a' => some '\x07' | 'b' => some '\x08' | 't' => some '\t'
  | '\t' => some '\t' | 'n' => some '\n' | 'v' => some '\x0b' | 'f' => some '\x0c'
  | 'r' => some '\r' | 'e' => some '\x1b' | ' ' => some ' ' | '"' => some '"' | '\\' => some '\\'
  | '/' => some '/' | 'N' => some '\x85' | '_' => some '\xa0' | 'L' => some '\u2028'
  | 'P' => some '\u2029' | _ => none

/-- How many digits follow a letter behind a backslash. -/
def escapeDigits? : Char → Option Nat
  | 'x' => some 2 | 'u' => some 4 | 'U' => some 8 | _ => none

def charOfHex? (digits : List Char) : Option Char := do
  let ns ← digits.mapM (Number.baseDigit? 16)
  let n := ns.foldl (fun n d ↦ 16 * n + d) 0
  if n.isValidChar then some (Char.ofNat n) else none

def isQuotedSpace (c : Char) : Bool := c == ' ' || c == '\t'

def single? : Nat → Place → List Char → Option (List Char × Place)
  | 0, _, _ => none
  | n + 1, p, acc =>
    match p.rest with
    | [] => none
    | '\'' :: '\'' :: _ => single? n (p.forward 2) ('\'' :: acc)
    | '\'' :: _ => some (acc.reverse, p.forward 1)
    | c :: _ =>
      if isQuotedSpace c || isBreak c then
        match p.gap isQuotedSpace with
        | (some spaces, p) => single? n p (spaces.reverse ++ acc)
        | (none, _) => none
      else single? n (p.forward 1) (c :: acc)

def double? : Nat → Place → List Char → Option (List Char × Place)
  | 0, _, _ => none
  | n + 1, p, acc =>
    match p.rest with
    | [] => none
    | '"' :: _ => some (acc.reverse, p.forward 1)
    | '\\' :: c :: r =>
      match escape? c, escapeDigits? c with
      | some d, _ => double? n (p.forward 2) (d :: acc)
      | none, some k =>
        if r.length < k then none
        else
          match charOfHex? (r.take k) with
          | some d => double? n (p.forward (2 + k)) (d :: acc)
          | none => none
      | none, none =>
        match (p.forward 1).lineBreak? with
        | none => none
        | some (_, p) =>
          match Place.blankLines isQuotedSpace (p.rest.length + 1) p [] with
          | (some breaks, p) => double? n p (breaks.reverse ++ acc)
          | (none, _) => none
    | c :: _ =>
      if isQuotedSpace c || isBreak c then
        match p.gap isQuotedSpace with
        | (some spaces, p) => double? n p (spaces.reverse ++ acc)
        | (none, _) => none
      else double? n (p.forward 1) (c :: acc)

end TriggerScript.Yaml
