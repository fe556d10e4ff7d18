/-!
# Blank characters

The characters that separate words: the blanks of ASCII with the four information separators,
the next-line control, and the space characters and line separators of Unicode.
-/

namespace TriggerScript.Text

def isBlank (c : Char) : Bool :=
  let n := c.toNat
  (9 ≤ n && n ≤ 13) || (28 ≤ n && n ≤ 32) || n == 133 || n == 160 || n == 5760
    || (8192 ≤ n && n ≤ 8202) || n == 8232 || n == 8233 || n == 8239 || n == 8287 || n == 12288

def dropBlanks (cs : List Char) : List Char := cs.dropWhile isBlank

def strip (cs : List Char) : List Char := (dropBlanks (dropBlanks cs).reverse).reverse

end TriggerScript.Text
