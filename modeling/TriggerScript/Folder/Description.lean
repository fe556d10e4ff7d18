import TriggerScript.Evaluation.Binding
import TriggerScript.Yaml.Document

/-!
# Descriptions of services

The description of a service comes from the doc string of its function. A doc string that starts
with `yaml` is itself a description in that format; any other one is a text, to which the parameters
are added as fields.
-/

namespace TriggerScript

namespace Function

def isBlankDatum : Datum → Bool
  | .none => true
  | .text t => t.isEmpty
  | .list ds => ds.isEmpty
  | .dict es => es.isEmpty
  | _ => false

def trimStart (cs : List Char) : List Char :=
  cs.dropWhile fun c ↦ c == ' ' || c == '\n' || c == '\r'

def docText (f : Function) (name : String) : List Char :=
  let given := f.doc.getD ""
  trimStart (if given.isEmpty then "pyscript function " ++ name ++ "()" else given).toList

def fields (f : Function) : List (String × Datum) :=
  f.regular.map fun p ↦ (p, .dict [("description", .text ("argument " ++ p))])

def description? (f : Function) (name : String) : Option Datum :=
  let text := f.docText name
  match Text.after? "yaml".toList text with
  | none => some (.dict [("description", .text (String.ofList text)), ("fields", .dict f.fields)])
  | some rest => do
    let d ← Yaml.read? (String.ofList (trimStart rest))
    return if isBlankDatum d then .dict [] else d

end Function

end TriggerScript
