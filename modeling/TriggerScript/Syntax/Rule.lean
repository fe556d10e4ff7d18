import Std.Data.TreeMap
import TriggerScript.Syntax.Token

/-!
# Grammar rules

A grammar rule reads tokens from a place on and either succeeds, fails so that another alternative
is tried, or stops with a syntax fault. Alternatives are ordered: the first that succeeds is taken.

A text that no rule accepts is read a second time with the rules for common mistakes switched on
(`Source.diagnosing`). If none of these stops either, the fault is reported at the furthest token
that the first reading looked at.
-/

namespace TriggerScript.Syntax

structure Source where
  stream : TokenStream
  diagnosing : Bool
  embedded : Bool

abbrev Kept : Type := Std.TreeMap Nat (Option (Expr × Nat)) (@compare Nat instOrdNat)

/-- The place of a reading, how many tokens were looked at, and the results of rules that are kept
for a place. -/
structure Mark where
  at_ : Nat
  seen : Nat
  kept : Kept

inductive Outcome (α : Type) where
  | yes (a : α) (m : Mark)
  | no (m : Mark)
  | stop (f : Fault) (seen : Nat)

def Rule (α : Type) : Type := Source → Mark → Outcome α

namespace Rule

variable {α β : Type}

@[inline] protected def pure (a : α) : Rule α := fun _ m ↦ .yes a m

@[inline] protected def bind (r : Rule α) (f : α → Rule β) : Rule β := fun s m ↦
  match r s m with
  | .yes a m' => f a s m'
  | .no m' => .no m'
  | .stop e n => .stop e n

instance : Monad Rule where
  pure := Rule.pure
  bind := Rule.bind

def fail : Rule α := fun _ m ↦ .no m

@[inline] protected def orElse (r : Rule α) (other : Unit → Rule α) : Rule α := fun s m ↦
  match r s m with
  | .yes a m' => .yes a m'
  | .no m' => other () s { m' with at_ := m.at_ }
  | .stop e n => .stop e n

instance : OrElse (Rule α) := ⟨Rule.orElse⟩

variable (s : Source) (r : Rule α)

def commit (go : α → Rule β) (other : Rule β) : Rule β := fun s m ↦
  match r s m with
  | .yes a m' => go a s m'
  | .no m' => other s { m' with at_ := m.at_ }
  | .stop e n => .stop e n

def opt : Rule (Option α) := fun s m ↦
  match r s m with
  | .yes a m' => .yes (some a) m'
  | .no m' => .yes none { m' with at_ := m.at_ }
  | .stop e n => .stop e n

/-- The rule succeeds here; nothing is read. -/
def ahead : Rule Unit := fun s m ↦
  match r s m with
  | .yes _ m' => .yes () { m' with at_ := m.at_ }
  | .no m' => .no { m' with at_ := m.at_ }
  | .stop e n => .stop e n

def notAhead : Rule Unit := fun s m ↦
  match r s m with
  | .yes _ m' => .no { m' with at_ := m.at_ }
  | .no m' => .yes () { m' with at_ := m.at_ }
  | .stop e n => .stop e n

def manyUpTo (r : Rule α) : Nat → List α → Rule (List α)
  | 0, acc => fun _ m ↦ .yes acc.reverse m
  | n + 1, acc => fun s m ↦
    match r s m with
    | .yes a m' => manyUpTo r n (a :: acc) s m'
    | .no m' => .yes acc.reverse { m' with at_ := m.at_ }
    | .stop e n => .stop e n

def many : Rule (List α) := fun s m ↦ manyUpTo r (s.stream.tokens.size + 1) [] s m

def many1 : Rule (List α) := do
  let a ← r
  let rest ← many r
  pure (a :: rest)

def sepBy1 (sep : Rule β) : Rule (List α) := do
  let a ← r
  let rest ← many (do let _ ← sep; r)
  pure (a :: rest)

def chainUpTo (r : α → Rule α) : Nat → α → Rule α
  | 0, a => pure a
  | n + 1, a => fun s m ↦
    match r a s m with
    | .yes b m' => chainUpTo r n b s m'
    | .no m' => .yes a { m' with at_ := m.at_ }
    | .stop e n => .stop e n

def chain (r : α → Rule α) (a : α) : Rule α := fun s m ↦
  chainUpTo r (s.stream.tokens.size + 1) a s m

/-! ### Tokens -/

def worded (message : String) : String :=
  if s.embedded then "f-string: " ++ message else message

def peek : Rule Token := fun s m ↦
  if h : m.at_ < s.stream.tokens.size then
    .yes s.stream.tokens[m.at_] { m with seen := max m.seen (m.at_ + 1) }
  else
    match s.stream.trouble with
    | some t =>
      .stop (if t.direct then t.fault else { t.fault with message := worded s t.fault.message })
        (m.at_ + 1)
    | none => .no m

def token (test : Token → Bool) : Rule Token := fun s m ↦
  match peek s m with
  | .yes t m' => if test t then .yes t { m' with at_ := m'.at_ + 1 } else .no m'
  | .no m' => .no m'
  | .stop e n => .stop e n

def kind (k : TokenKind) : Rule Token := token (·.kind == k)

def op (text : String) : Rule Token := token fun t ↦ t.kind == .op && t.text == text

def kw (text : String) : Rule Token := token fun t ↦ t.kind == .keyword && t.text == text

def soft (text : String) : Rule Token := token fun t ↦ t.kind == .name && t.text == text

def name : Rule Token := kind .name

def here : Rule Position := do return (← peek).pos

def lastLevel : Rule Nat := fun s m ↦ .yes ((s.stream.tokens[m.at_ - 1]?.map (·.level)).getD 0) m

/-! ### Faults -/

def stopAt (line : Nat) (message : String) : Rule α := fun s m ↦
  .stop { message := worded s message, line := some line } m.seen

def seenLine (m : Mark) : Nat :=
  match s.stream.tokens[m.seen - 1]? with
  | some t => t.pos.line
  | none => s.stream.lastLine

def stopHere (message : String) : Rule α := fun s m ↦
  .stop { message := worded s message, line := some (seenLine s m) } m.seen

def stopIndent (message : String) : Rule α := fun s m ↦
  .stop { kind := .indentation, message := worded s message, line := some (seenLine s m) } m.seen

def mistake : Rule α := fun s m ↦ if s.diagnosing then r s m else .no m

def forced (text : String) : Rule Token := fun s m ↦
  match peek s m with
  | .yes t m' =>
    if t.kind == .op && t.text == text then .yes t { m' with at_ := m'.at_ + 1 }
    else
      .stop { message := worded s ("expected '" ++ text ++ "'"), line := some t.pos.line } m'.seen
  | .no m' => .no m'
  | .stop e n => .stop e n

def keep (id : Nat) (r : Rule Expr) : Rule Expr := fun s m ↦
  let key := m.at_ * 32 + id
  match m.kept.get? key with
  | some (some (e, at_)) => .yes e { m with at_ }
  | some none => .no m
  | none =>
    match r s m with
    | .yes e m' => .yes e { m' with kept := m'.kept.insert key (some (e, m'.at_)) }
    | .no m' => .no { m' with at_ := m.at_, kept := m'.kept.insert key none }
    | .stop e n => .stop e n

/-! ### Reading a whole text -/

def lineOf (seen : Nat) : Nat :=
  (s.stream.tokens[seen - 1]?.map (·.pos.line)).getD s.stream.lastLine

def giveWay (seen : Nat) (fault : Fault) : Fault :=
  match s.stream.trouble with
  | none => fault
  | some t =>
    if seen > s.stream.tokens.size then fault
    else if t.direct then t.fault
    else match t.opened with
      | some (c, opened) =>
        if lineOf s seen > opened then
          let f := neverClosed c opened
          { f with message := worded s f.message }
        else fault
      | none => fault

def genericFault (seen reached : Nat) : Fault :=
  let line := some (lineOf s seen)
  match s.stream.tokens[seen - 1]?.map (·.kind) with
  | some TokenKind.indent =>
    { kind := .indentation, message := worded s "unexpected indent", line }
  | some TokenKind.dedent =>
    { kind := .indentation, message := worded s "unexpected unindent", line }
  | _ => giveWay s reached { message := worded s "invalid syntax", line }

def parse (stream : TokenStream) (embedded : Bool) : Except Fault α :=
  let start : Mark := { at_ := 0, seen := 0, kept := {} }
  let s : Source := ⟨stream, false, embedded⟩
  match r s start with
  | .yes a _ => .ok a
  | .stop e seen => .error (giveWay s seen e)
  | .no m =>
    let s : Source := ⟨stream, true, embedded⟩
    match r s { start with seen := m.seen } with
    | .stop e seen => .error (giveWay s seen e)
    | .no m' => .error (genericFault s m.seen m'.seen)
    | .yes _ m' => .error (genericFault s m.seen m'.seen)

end Rule

end TriggerScript.Syntax
