import TriggerScript.Syntax.Outline
import TriggerScript.Syntax.Parser

/-!
# Scripts

What a script is read from, and how a refusal is worded. A script is given as a text or as a list of
lines.
-/

namespace TriggerScript.Syntax

/-- What a script is read from. A line that is no text and a source that is neither are known by
their type only. -/
inductive Source.Given where
  | text (s : String)
  | lines (items : List (String ⊕ String))
  | other

inductive Refusal where
  | mistake (fault : Fault)
  | notText
  | lineNotText (index : Nat) (type : String)
  deriving DecidableEq

namespace Refusal

def text : Refusal → String
  | .mistake f => f.kind.title ++ ": " ++ f.message
  | .notText => "TypeError: compile() arg 1 must be a string, bytes or AST object"
  | .lineNotText i type =>
    "TypeError: sequence item " ++ Number.natText i ++ ": expected str instance, " ++ type ++
      " found"

def baseName (path : String) : String :=
  String.ofList (path.toList.reverse.takeWhile (· != '/')).reverse

def summary (file : String) : Refusal → String
  | .mistake f =>
    "syntax error " ++ f.message ++
      match f.line with
      | some n => " (" ++ baseName file ++ ", line " ++ Number.natText n ++ ")"
      | none => ""
  | .notText => "parsing error compile() arg 1 must be a string, bytes or AST object"
  | .lineNotText i type =>
    "parsing error sequence item " ++ Number.natText i ++ ": expected str instance, " ++ type ++
      " found"

def logLine (file : String) (r : Refusal) : String :=
  let what := match r with
    | .mistake _ => "syntax error"
    | _ => "parsing error"
  what ++ " file " ++ file ++ ": " ++ r.text

end Refusal

/-- The lines up to the first that is no text. -/
def joinLines : Nat → List (String ⊕ String) → Except Refusal (List String)
  | _, [] => .ok []
  | n, .inl s :: rest => (joinLines (n + 1) rest).map (s :: ·)
  | n, .inr type :: _ => .error (.lineNotText n type)

def Module.read : Source.Given → Except Refusal Module
  | .text s => (Module.parse s).mapError .mistake
  | .lines items => do
    let ls ← joinLines 0 items
    (Module.parse (String.intercalate "\n" ls)).mapError .mistake
  | .other => .error .notText

end TriggerScript.Syntax
