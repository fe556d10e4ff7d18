import TriggerScript.Syntax.Grammar.Expression

/-!
# Patterns of match statements
-/

namespace TriggerScript.Syntax.Grammar

open Rule

variable (R : Rules)

def signedNumber : Rule Expr :=
  numberAtom
  <|> (do
    let p ← here
    let _ ← op "-"
    let e ← numberAtom
    pure (.unaryOp p .uSub e))

def complexNumber : Rule Expr := do
  let p ← here
  let a ← signedNumber
  let t ← op "+" <|> op "-"
  let b ← numberAtom
  pure (.binOp p a (if t.text == "+" then .add else .sub) b)

def literalExpr : Rule Expr :=
  (do let e ← signedNumber; notAhead (op "+" <|> op "-"); pure e)
  <|> complexNumber
  <|> (do ahead (Rule.kind .string); strings R)
  <|> wordAtom "None" .none
  <|> wordAtom "True" (.bool true)
  <|> wordAtom "False" (.bool false)

def literalPattern : Rule Pattern := do
  let p ← here
  let e ← literalExpr R
  match e with
  | .constant _ .none _ => pure (.singleton p .none)
  | .constant _ (.bool b) _ => pure (.singleton p (.bool b))
  | e => pure (.value p e)

def captureName : Rule String := do
  notAhead (soft "_")
  let t ← name
  notAhead (op "." <|> op "(" <|> op "=")
  pure t.text

def capturePattern : Rule Pattern := do
  let p ← here
  let n ← captureName
  pure (.capture p none (some n))

def wildcardPattern : Rule Pattern := do
  let p ← here
  let _ ← soft "_"
  pure (.capture p none none)

def attributeExpr : Rule Expr := do
  let p ← here
  let e ← nameExpr .load
  let _ ← op "."
  let t ← name
  chain (fun e ↦ do
    let _ ← op "."
    let t ← name
    pure (.member p e t.text .load)) (.member p e t.text .load)

def valuePattern : Rule Pattern := do
  let p ← here
  let e ← attributeExpr
  notAhead (op "." <|> op "(" <|> op "=")
  pure (.value p e)

def groupPattern : Rule Pattern := do
  let _ ← op "("
  let q ← R.pattern
  let _ ← op ")"
  pure q

def starPattern : Rule Pattern :=
  (do
    let p ← here
    let _ ← op "*"
    let n ← captureName
    pure (.star p (some n)))
  <|> (do
    let p ← here
    let _ ← op "*"
    let _ ← soft "_"
    pure (.star p none))

def maybeStarPattern : Rule Pattern := starPattern <|> R.pattern

def maybeSequence : Rule (List Pattern) := do
  let qs ← sepBy1 (maybeStarPattern R) (op ",")
  maybeComma
  pure qs

/-- The patterns of a sequence with at least one comma. -/
def openSequence : Rule (List Pattern) := do
  let q ← maybeStarPattern R
  let _ ← op ","
  let qs ← opt (maybeSequence R)
  pure (q :: qs.getD [])

def sequencePattern : Rule Pattern :=
  (do
    let p ← here
    let _ ← op "["
    let qs ← opt (maybeSequence R)
    let _ ← op "]"
    pure (.sequence p (qs.getD [])))
  <|> (do
    let p ← here
    let _ ← op "("
    let qs ← opt (openSequence R)
    let _ ← op ")"
    pure (.sequence p (qs.getD [])))

def keyValuePattern : Rule (Expr × Pattern) := do
  let k ← literalExpr R <|> attributeExpr
  let _ ← op ":"
  let q ← R.pattern
  pure (k, q)

def restPattern : Rule String := do let _ ← op "**"; captureName

def mappingPattern : Rule Pattern :=
  (do
    let p ← here
    let _ ← op "\x7b"
    let items ← opt (sepBy1 (keyValuePattern R) (op ","))
    let rest ← match items with
      | none => opt restPattern
      | some _ => opt (do let _ ← op ","; restPattern)
    maybeComma
    let _ ← op "\x7d"
    let items := items.getD []
    pure (.mapping p (items.map (·.1)) (items.map (·.2)) rest))

def keywordPattern : Rule (String × Pattern) := do
  let t ← name
  let _ ← op "="
  let q ← R.pattern
  pure (t.text, q)

def nameOrAttribute : Rule Expr := attributeExpr <|> nameExpr .load

def classPattern : Rule Pattern :=
  (do
    let p ← here
    let c ← nameOrAttribute
    let _ ← op "("
    let positional ← opt (do
      let qs ← sepBy1 R.pattern (op ",")
      notAhead (op "=")
      pure qs)
    let named ← match positional with
      | none => opt (sepBy1 (keywordPattern R) (op ","))
      | some _ => opt (do let _ ← op ","; sepBy1 (keywordPattern R) (op ","))
    maybeComma
    let _ ← op ")"
    let named := named.getD []
    pure (.construct p c (positional.getD []) (named.map (·.1)) (named.map (·.2))))
  <|> (do
    -- the last of the positional patterns was the name of a keyword
    let p ← here
    let c ← nameOrAttribute
    let _ ← op "("
    let positional ← many (do let q ← R.pattern; let _ ← op ","; pure q)
    let named ← sepBy1 (keywordPattern R) (op ",")
    maybeComma
    let _ ← op ")"
    pure (.construct p c positional (named.map (·.1)) (named.map (·.2))))
  <|> mistake (do
    let _ ← nameOrAttribute
    let _ ← op "("
    let _ ← opt (do let _ ← sepBy1 R.pattern (op ","); op ",")
    let _ ← sepBy1 (keywordPattern R) (op ",")
    let _ ← op ","
    let p ← here
    let _ ← sepBy1 R.pattern (op ",")
    stopAt p.line "positional patterns follow keyword patterns")

def closedPattern : Rule Pattern :=
  literalPattern R
  <|> capturePattern
  <|> wildcardPattern
  <|> valuePattern
  <|> groupPattern R
  <|> sequencePattern R
  <|> mappingPattern R
  <|> classPattern R

def orPattern : Rule Pattern := do
  let p ← here
  let qs ← sepBy1 (closedPattern R) (op "|")
  match qs with
  | [q] => pure q
  | qs => pure (.alternatives p qs)

def asPattern : Rule Pattern :=
  (do
    let p ← here
    let q ← orPattern R
    let _ ← kw "as"
    let n ← captureName
    pure (.capture p (some q) (some n)))
  <|> mistake (do
    let _ ← orPattern R
    let _ ← kw "as"
    let t ← soft "_"
    stopAt t.pos.line "cannot use '_' as a target")
  <|> mistake (do
    let _ ← orPattern R
    let _ ← kw "as"
    notAhead name
    let e ← R.expression
    stopAt (lineOf e) "invalid pattern target")

def pattern : Rule Pattern := asPattern R <|> orPattern R

def patterns : Rule Pattern :=
  (do
    let p ← here
    let qs ← openSequence R
    pure (.sequence p qs))
  <|> pattern R

end TriggerScript.Syntax.Grammar
