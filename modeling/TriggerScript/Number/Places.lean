import TriggerScript.Number.Layout

/-!
# Numbers with a chosen count of digits

Fixed notation has a given count of digits after the point, scientific notation one digit before the
point and an exponent, and general notation the shorter of the two for a count of significant
digits, without zeros at the end. The fraction is rounded once, ties to even.
-/

namespace TriggerScript.Number

/-- Whether a point is kept when nothing follows it, and whether zeros at the end are kept. -/
structure PlacesStyle where
  keepPoint : Bool := false
  /-- A whole number keeps one zero after the point. -/
  oneZero : Bool := false

def fixedText (style : PlacesStyle) (num den places : Nat) : String :=
  let t := withPoint (fixedDigits num den places) places
  if places == 0 && style.keepPoint then t ++ "." else t

def trimDigits (least : Nat) (ds : List Char) : List Char :=
  let kept := (ds.reverse.dropWhile (· == '0')).reverse
  if kept.length < least then ds.take least else kept

def exponential (keepPoint : Bool) (ds : List Char) (e : Int) : String :=
  let head := match ds with
    | [d] => String.ofList (if keepPoint then [d, '.'] else [d])
    | ds => scientificHead ds
  head ++ exponentText "e" e

def scientificText (style : PlacesStyle) (num den places : Nat) : String :=
  let (d, e) := significant num den (places + 1)
  let ds := if num == 0 then List.replicate (places + 1) '0' else Nat.toDigits 10 d
  exponential style.keepPoint ds e

def generalText (style : PlacesStyle) (num den count : Nat) : String :=
  let count := max count 1
  let (d, e) := significant num den count
  let ds := if num == 0 then List.replicate count '0' else Nat.toDigits 10 d
  let limit : Int := if style.oneZero then (count : Int) - 1 else count
  if e < -4 || e ≥ limit then
    exponential style.keepPoint (if style.keepPoint then ds else trimDigits 1 ds) e
  else
    let whole : Nat := (e + 1).toNat
    let ds := List.replicate (-(e + 1)).toNat '0' ++ ds
    let ds := if style.keepPoint then ds else trimDigits (whole + if style.oneZero then 1 else 0) ds
    let ds := ds ++ List.replicate (whole + (if style.oneZero then 1 else 0) - ds.length) '0'
    let before := if whole == 0 then ['0'] else ds.take whole
    let after := ds.drop whole
    if after.isEmpty && !style.keepPoint then String.ofList before
    else String.ofList (before ++ '.' :: after)

end TriggerScript.Number
