import TriggerScript.Syntax.Grammar.Basic

/-!
# Parameters

The parameters of functions and of lambda expressions follow one scheme: positional-only ones before
a slash, then regular ones, then a starred one or a bare star with keyword-only ones after it, then
a double-starred one. The two differ in annotations and in the token after the last parameter.
-/

namespace TriggerScript.Syntax.Grammar

open Rule

/-- What the parameters of functions and of lambda expressions differ in. -/
structure ParameterStyle where
  param : Rule Parameter
  starAnnotated : Rule Parameter
  close : Rule Token
  title : String

def functionStyle (R : Rules) : ParameterStyle where
  param := do
    let t ← name
    let typeHint ← opt (do let _ ← op ":"; R.expression)
    pure (.param t.text typeHint)
  starAnnotated := do
    let t ← name
    let _ ← op ":"
    let p ← here
    let typeHint ← (do let _ ← op "*"; let e ← R.bitwiseOr; pure (Expr.starred p e .load))
      <|> R.expression
    pure (.param t.text (some typeHint))
  close := op ")"
  title := "Function parameters"

def lambdaStyle : ParameterStyle where
  param := do
    let t ← name
    pure (.param t.text none)
  starAnnotated := fail
  close := op ":"
  title := "Lambda expression parameters"

variable (R : Rules) (S : ParameterStyle)

def afterParam : Rule Unit := (do let _ ← op ","; pure ()) <|> ahead S.close

def paramDefault : Rule Expr :=
  (do let _ ← op "="; R.expression)
  <|> mistake (do
    let t ← op "="
    ahead (S.close <|> op ",")
    stopAt t.pos.line "expected default value expression")

def paramNoDefault : Rule Parameter := do
  let p ← S.param
  afterParam S
  pure p

def paramWithDefault : Rule (Parameter × Expr) := do
  let p ← S.param
  let d ← paramDefault R S
  afterParam S
  pure (p, d)

def paramMaybeDefault : Rule (Parameter × Option Expr) := do
  let p ← S.param
  let d ← opt (paramDefault R S)
  afterParam S
  pure (p, d)

def afterSlash : Rule Unit := do
  let _ ← op "/"
  afterParam S

/-- Parameters before `/`, none of them with a default. -/
def slashNoDefault : Rule (List Parameter) := do
  let ps ← many1 (paramNoDefault S)
  afterSlash S
  pure ps

/-- Parameters before `/`, the last of them with defaults. -/
def slashWithDefault : Rule (List Parameter × List (Parameter × Expr)) := do
  let ps ← many (paramNoDefault S)
  let ds ← many1 (paramWithDefault R S)
  afterSlash S
  pure (ps, ds)

def invalidKwds : Rule (Option Parameter) := do
  let _ ← op "**"
  let _ ← S.param
  (do let t ← op "="; stopAt t.pos.line "var-keyword argument cannot have default value")
  <|> (do
    let _ ← op ","
    let p ← here
    let _ ← (do let _ ← S.param; pure ())
      <|> (do let _ ← op "*" <|> op "**" <|> op "/"; pure ())
    stopAt p.line "arguments cannot follow var-keyword argument")

def kwds : Rule (Option Parameter) :=
  mistake (invalidKwds S)
  <|> (do let _ ← op "**"; let p ← paramNoDefault S; pure (some p))

structure StarPart where
  varArg : Option Parameter := none
  kwOnly : List (Parameter × Option Expr) := []
  kwArg : Option Parameter := none

def invalidStarEtc : Rule StarPart :=
  (do
    let t ← op "*"
    let _ ← (do let _ ← S.close; pure ())
      <|> (do let _ ← op ","; let _ ← S.close <|> op "**"; pure ())
    stopAt t.pos.line "named arguments must follow bare *")
  <|> (do
    let _ ← op "*"
    let _ ← S.param
    let t ← op "="
    stopAt t.pos.line "var-positional argument cannot have default value")
  <|> (do
    let _ ← op "*"
    let _ ← (do let _ ← paramNoDefault S; pure ()) <|> (do let _ ← op ","; pure ())
    let _ ← many (paramMaybeDefault R S)
    let t ← op "*"
    let _ ← (do let _ ← paramNoDefault S; pure ()) <|> (do let _ ← op ","; pure ())
    stopAt t.pos.line "* argument may appear only once")

def starEtc : Rule StarPart :=
  mistake (invalidStarEtc R S)
  <|> (do
    let _ ← op "*"
    let a ← paramNoDefault S
    let b ← many (paramMaybeDefault R S)
    let c ← opt (kwds S)
    pure ⟨some a, b, c.join⟩)
  <|> (do
    let _ ← op "*"
    let a ← S.starAnnotated
    afterParam S
    let b ← many (paramMaybeDefault R S)
    let c ← opt (kwds S)
    pure ⟨some a, b, c.join⟩)
  <|> (do
    let _ ← op "*"
    let _ ← op ","
    let b ← many1 (paramMaybeDefault R S)
    let c ← opt (kwds S)
    pure ⟨none, b, c.join⟩)
  <|> (do let c ← kwds S; pure ⟨none, [], c⟩)

def makeParameters (posOnly : List Parameter) (posOnlyDefault : List (Parameter × Expr))
    (plain : List Parameter) (withDefault : List (Parameter × Expr)) (star : Option StarPart) :
    Parameters :=
  let star := star.getD {}
  .params (posOnly ++ posOnlyDefault.map (·.1)) (plain ++ withDefault.map (·.1)) star.varArg
    (star.kwOnly.map (·.1)) (star.kwOnly.map (·.2)) star.kwArg
    (posOnlyDefault.map (·.2) ++ withDefault.map (·.2))

def invalidParameters : Rule Parameters :=
  let slashPart : Rule Unit :=
    (do let _ ← slashNoDefault S; pure ()) <|> (do let _ ← slashWithDefault R S; pure ())
  (do
    let _ ← many (paramNoDefault S)
    let _ ← (do let _ ← slashWithDefault R S; pure ())
      <|> (do let _ ← many1 (paramWithDefault R S); pure ())
    let p ← here
    let _ ← paramNoDefault S
    stopAt p.line "non-default argument follows default argument")
  <|> (do
    let _ ← many (paramNoDefault S)
    let t ← op "("
    -- the parenthesized parameters end with a parenthesis in both styles
    let _ ← sepBy1 S.param (op ",")
    maybeComma
    let _ ← op ")"
    stopAt t.pos.line (S.title ++ " cannot be parenthesized"))
  <|> (do
    let t ← op "/"
    let _ ← op ","
    stopAt t.pos.line "at least one argument must precede /")
  <|> (do
    slashPart
    let _ ← many (paramMaybeDefault R S)
    let t ← op "/"
    stopAt t.pos.line "/ may appear only once")
  <|> (do
    let _ ← opt slashPart
    let _ ← many (paramMaybeDefault R S)
    let _ ← op "*"
    let _ ← (do let _ ← op ","; pure ()) <|> (do let _ ← paramNoDefault S; pure ())
    let _ ← many (paramMaybeDefault R S)
    let t ← op "/"
    stopAt t.pos.line "/ must be ahead of *")
  <|> (do
    let _ ← many1 (paramMaybeDefault R S)
    let _ ← op "/"
    let t ← op "*"
    stopAt t.pos.line "expected comma between / and *")

def parameters : Rule Parameters :=
  mistake (invalidParameters R S)
  <|> (do
    let a ← slashNoDefault S
    let b ← many (paramNoDefault S)
    let c ← many (paramWithDefault R S)
    let d ← opt (starEtc R S)
    pure (makeParameters a [] b c d))
  <|> (do
    let (a, a') ← slashWithDefault R S
    let b ← many (paramWithDefault R S)
    let c ← opt (starEtc R S)
    pure (makeParameters a a' [] b c))
  <|> (do
    let a ← many1 (paramNoDefault S)
    let b ← many (paramWithDefault R S)
    let c ← opt (starEtc R S)
    pure (makeParameters [] [] a b c))
  <|> (do
    let a ← many1 (paramWithDefault R S)
    let b ← opt (starEtc R S)
    pure (makeParameters [] [] [] a b))
  <|> (do let a ← starEtc R S; pure (makeParameters [] [] [] [] (some a)))

def noParameters : Parameters := .params [] [] none [] [] none []

end TriggerScript.Syntax.Grammar
