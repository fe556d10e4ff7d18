import TriggerScript.Value.Snapshot
import TriggerScript.Yaml.Scalar

/-!
# YAML texts

A text describes data by indentation: mappings of keys to values, sequences behind dashes, and the
same written in brackets. All scalars are texts. What cannot be read is refused as a whole.

A collection that goes by indentation starts on a line of its own, behind a dash, or at the very
beginning; its entries stand in one column.
-/

namespace TriggerScript.Yaml

def atDash : List Char → Bool
  | '-' :: r => atGap r
  | _ => false

/-- The mark between a key and its value comes next. -/
def atColon : List Char → Bool
  | ':' :: r => atGap r
  | _ => false

def atEnd (p : Place) : Bool := p.rest.isEmpty || atMarker p

/-- More steps than reading a text takes. -/
def budget (cs : List Char) : Nat := 4 * cs.length + 8

def keyText? : Datum → Option String
  | .text t => some t
  | _ => none

mutual

/-- A scalar or what stands in brackets, and the place behind it. -/
def item? : Nat → Bool → Int → Place → Option (Datum × Place)
  | 0, _, _, _ => none
  | n + 1, flow, indent, p =>
    match p.rest with
    | '[' :: _ => (flowItems? n (p.forward 1).skip []).map fun (ds, p) ↦ (.list ds, p)
    | '\x7b' :: _ => (flowEntries? n (p.forward 1).skip []).map fun (es, p) ↦ (.dict es, p)
    | '\'' :: _ =>
      (single? (p.rest.length + 1) (p.forward 1) []).map fun (t, p) ↦ (.text (String.ofList t), p)
    | '"' :: _ =>
      (double? (p.rest.length + 1) (p.forward 1) []).map fun (t, p) ↦ (.text (String.ofList t), p)
    | cs =>
      if startsPlain flow cs then
        let (t, p) := plain flow indent (cs.length + 1) p [] []
        some (.text (String.ofList t), p)
      else none

def flowItems? : Nat → Place → List Datum → Option (List Datum × Place)
  | 0, _, _ => none
  | n + 1, p, acc =>
    match p.rest with
    | ']' :: _ => some (acc.reverse, p.forward 1)
    | _ => do
      let (d, p) ← flowItem? n p
      let p := p.skip
      match p.rest with
      | ',' :: _ => flowItems? n (p.forward 1).skip (d :: acc)
      | ']' :: _ => some ((d :: acc).reverse, p.forward 1)
      | _ => none

def flowItem? : Nat → Place → Option (Datum × Place)
  | 0, _ => none
  | n + 1, p => do
    let (d, q) ← item? n true 0 p
    let r := q.skip
    match r.rest with
    | ':' :: _ =>
      if r.line == p.line then
        let key ← keyText? d
        let (v, q) ← flowValue? n (r.forward 1).skip
        some (.dict [(key, v)], q)
      else none
    | _ => some (d, q)

def flowValue? : Nat → Place → Option (Datum × Place)
  | 0, _ => none
  | n + 1, p =>
    match p.rest with
    | ',' :: _ | ']' :: _ | '\x7d' :: _ => some (.text "", p)
    | _ => item? n true 0 p

def flowEntries? : Nat → Place → List (String × Datum) → Option (List (String × Datum) × Place)
  | 0, _, _ => none
  | n + 1, p, acc =>
    match p.rest with
    | '\x7d' :: _ => some (acc.reverse, p.forward 1)
    | _ => do
      let (d, q) ← item? n true 0 p
      let key ← keyText? d
      let r := q.skip
      let (v, q) ← match r.rest with
        | ':' :: _ => if r.line == p.line then flowValue? n (r.forward 1).skip else none
        | _ => some (.text "", q)
      let q := q.skip
      match q.rest with
      | ',' :: _ => flowEntries? n (q.forward 1).skip ((key, v) :: acc)
      | '\x7d' :: _ => some (((key, v) :: acc).reverse, q.forward 1)
      | _ => none

end

mutual

def node? : Nat → Int → Bool → Place → Option (Datum × Place)
  | 0, _, _, _ => none
  | n + 1, indent, opens, p =>
    if atDash p.rest then
      if opens then (items? n p.column true p []).map fun (ds, p) ↦ (.list ds, p) else none
    else do
      let (d, q) ← item? (budget p.rest) false indent p
      let r := q.skip
      if atColon r.rest && r.line == p.line then
        if opens then
          let key ← keyText? d
          let (es, p) ← entries? n p.column key (r.forward 1) p.line []
          some (.dict es, p)
        else none
      else some (d, r)

def items? : Nat → Nat → Bool → Place → List Datum → Option (List Datum × Place)
  | 0, _, _, _, _ => none
  | n + 1, column, own, p, acc => do
    let q := (p.forward 1).skip
    let (d, q) ←
      if q.line == p.line && !atEnd q then node? n column true q
      else below? n column q
    let acc := d :: acc
    if atEnd q || q.column < column then some (acc.reverse, q)
    else if column < q.column then none
    else if atDash q.rest then items? n column own q acc
    else if own then none else some (acc.reverse, q)

def below? : Nat → Nat → Place → Option (Datum × Place)
  | 0, _, _ => none
  | n + 1, column, p =>
    if atEnd p || p.column ≤ column then some (.text "", p) else node? n column true p

/-- The entries of a mapping in a column, from behind the first key. -/
def entries? : Nat → Nat → String → Place → Nat → List (String × Datum) →
    Option (List (String × Datum) × Place)
  | 0, _, _, _, _, _ => none
  | n + 1, column, key, p, line, acc => do
    let q := p.skip
    let (v, q) ←
      if q.line == line && !atEnd q then node? n column false q
      else if !atEnd q && q.column == column && atDash q.rest then
        (items? n column false q []).map fun (ds, q) ↦ (.list ds, q)
      else below? n column q
    let acc := (key, v) :: acc
    if atEnd q || q.column < column then some (acc.reverse, q)
    else if column < q.column then none
    else
      let (d, r) ← item? (budget q.rest) false column q
      let r := r.skip
      if atColon r.rest && r.line == q.line then
        entries? n column (← keyText? d) (r.forward 1) q.line acc
      else none

end

/-- The data that a text describes; an empty text describes nothing. -/
def read? (text : String) : Option Datum :=
  let cs := text.toList
  if !cs.all isAllowed then none
  else
    let p := (Place.mk cs 0 0).skip
    let marked := p.column == 0 && match p.rest with
      | '-' :: '-' :: '-' :: r => atGap r
      | _ => false
    let q := if marked then (p.forward 3).skip else p
    if atEnd q then (if q.rest.isEmpty then some .none else none)
    else do
      let (d, r) ← node? (budget cs) (-1) (!marked || q.line != p.line) q
      let r := r.skip
      match r.rest with
      | [] => some d
      | '.' :: '.' :: '.' :: more =>
        if atMarker r && (Place.skip ⟨more, r.line, 3⟩).rest.isEmpty then some d else none
      | _ => none

end TriggerScript.Yaml
