import TriggerScript.Text.Blank
import TriggerScript.Text.Cut

/-!
# Taking out the margin of a text

A text over several lines that stands indented in a script is read without its indentation: the
widest margin that all lines after the first have in common is taken away, and blank lines at both
ends are dropped.
-/

namespace TriggerScript.Text

def expandTabs : Nat → List Char → List Char
  | _, [] => []
  | col, c :: cs =>
    if c == '\t' then List.replicate (8 - col % 8) ' ' ++ expandTabs (col + (8 - col % 8)) cs
    else if c == '\n' || c == '\r' then c :: expandTabs 0 cs
    else c :: expandTabs (col + 1) cs

def indentOf? (line : List Char) : Option Nat :=
  match dropBlanks line with
  | [] => none
  | rest => some (line.length - rest.length)

def outdent (text : List Char) : List Char :=
  match splitAtChar '\n' (expandTabs 0 text) with
  | [] => []
  | first :: rest =>
    let margin := (rest.filterMap indentOf?).min?.getD 0
    let lines := dropBlanks first :: rest.map (·.drop margin)
    let lines := (lines.reverse.dropWhile List.isEmpty).reverse.dropWhile List.isEmpty
    (lines.intersperse ['\n']).flatten

end TriggerScript.Text
