import TriggerScript.Number.Shortest

/-!
# The text of a number

How the digits of a number are laid out: a `Float` is positional while its decimal point falls
between four places before the first digit and sixteen after it, and has an exponent of at least two
digits with a sign otherwise; a whole value keeps one zero after the point.
-/

namespace TriggerScript.Number

def natText (n : Nat) : String := String.ofList (Nat.toDigits 10 n)

def intText (n : Int) : String := if n < 0 then "-" ++ natText n.natAbs else natText n.natAbs

def padded (width n : Nat) : String :=
  let ds := Nat.toDigits 10 n
  String.ofList (List.replicate (width - ds.length) '0' ++ ds)

def exponentText (mark : String) (e : Int) : String :=
  mark ++ (if e < 0 then "-" else "+") ++ padded 2 e.natAbs

def splitEnd (ds : List Char) (n : Nat) : List Char × List Char :=
  (ds.take (ds.length - n), ds.drop (ds.length - n))

def withPoint (digits places : Nat) : String :=
  let ds := Nat.toDigits 10 digits
  let ds := List.replicate (places + 1 - ds.length) '0' ++ ds
  let (whole, rest) := splitEnd ds places
  if places == 0 then String.ofList whole else String.ofList (whole ++ '.' :: rest)

/-- First digit, point and further digits, as before an exponent. -/
def scientificHead (ds : List Char) : String :=
  match ds with
  | [] => "0"
  | [d] => String.ofList [d]
  | d :: rest => String.ofList (d :: '.' :: rest)

def decimalText (d : Decimal) : String :=
  let ds := Nat.toDigits 10 d.digits
  let point : Int := ds.length + d.exponent
  if -4 < point && point ≤ 16 then
    if d.exponent ≥ 0 then
      String.ofList (ds ++ List.replicate d.exponent.toNat '0') ++ ".0"
    else withPoint d.digits d.exponent.natAbs
  else scientificHead ds ++ exponentText "e" (point - 1)

def floatText (x : Float) : String :=
  match parts x with
  | .notANumber => "nan"
  | .infinite negative => if negative then "-inf" else "inf"
  | .finite negative m e =>
    let body := if m == 0 then "0.0" else decimalText (shortest m e)
    if negative then "-" ++ body else body

def partText (x : Float) : String :=
  let t := floatText x
  if t.endsWith ".0" then (t.dropEnd 2).toString else t

end TriggerScript.Number
