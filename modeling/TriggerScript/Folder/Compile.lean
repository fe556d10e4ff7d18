import TriggerScript.Folder.Decoration
import TriggerScript.Folder.Description

/-!
# Compiling the scripts of the folder

Each script is evaluated in a context of its own, one after the other. Then its global functions are
gone through: their decorators register services and make triggers. A script that cannot be parsed
is left out.
-/

namespace TriggerScript

def serviceDomain : String := "pyscript"

def reloadName : String := "reload"

structure Compiled where
  triggers : List (String × TriggerId) := []
  services : List String := []

/-- A function of a script, as the folder sees it. -/
structure Published where
  name : String
  ref : Ref
  body : Function
  file : String
  globals : TableId

namespace Published

def origin (f : Published) : String := f.name ++ " defined in " ++ f.file

end Published

namespace Activity

def sayOfFolder (level : Level) (text : String) : Activity Unit := say "pyscript" level text

def describe (f : Published) : Activity Value := do
  match f.body.description? f.name with
  | some d => op d.load
  | none =>
    sayOfFolder .error ("Unable to decode yaml doc_string for " ++ f.name ++ "()")
    raise (.stated .homeAssistant "")

def publish (f : Published) (schema : Value) : Activity Unit :=
  modify fun w ↦
    let h := w.host.register serviceDomain f.name (.function f.name f.ref f.globals)
    { w with host :=
        { h with schemas := assign h.schemas (serviceDomain ++ "." ++ f.name) schema } }

def decorate (f : Published) (schema : Value) :
    List (String × Option (List Value)) → Decoration → List String →
      Activity (Decoration × List String)
  | [], d, services => return (d, services)
  | (name, args) :: rest, d, services => do
    match TriggerKind.ofWord? name with
    | some k => decorate f schema rest (d.add k (args.getD [])) services
    | none =>
      if name == "service" then
        if args.isSome then
          sayOfFolder .error (f.origin ++ ": decorator @service takes no arguments; ignored")
          decorate f schema rest d services
        else
          publish f schema
          let services := if services.contains f.name then services else services ++ [f.name]
          decorate f schema rest d services
      else
        sayOfFolder .warning (f.origin ++ " has unknown decorator @" ++ name)
        decorate f schema rest d services

def checkCounts (f : Published) : List TriggerKind → Decoration → Activity Decoration
  | [], d => return d
  | k :: rest, d => do
    match d.mistaken? k with
    | none => checkCounts f rest d
    | some n =>
      let expected := String.intercalate " or " ((k.counts?.getD []).map Number.natText)
      sayOfFolder .error (f.origin ++ " decorator @" ++ k.word ++ " got " ++ Number.natText n
        ++ " argument" ++ (if n > 1 then "s" else "") ++ ", expected " ++ expected ++ "; ignored")
      checkCounts f rest (d.without k)

def compileFunction (f : Published) (done : Compiled) : Activity Compiled := do
  if f.name == reloadName then
    sayOfFolder .error ("function '" ++ f.name ++ "' in " ++ f.file ++ " conflicts with " ++
      reloadName ++ " service; ignoring (please rename)")
    return done
  else
    let schema ← describe f
    let (d, services) ← decorate f schema f.body.decorators [] done.services
    let d ← checkCounts f TriggerKind.checked d
    if d.isEmpty then return { done with services }
    else
      let c ← freshContext f.name f.globals
      let t ← newTrigger f.name (← op (d.config f.ref c f.globals))
      return { triggers := assign done.triggers f.name t, services }

def published (s : Store) (file : String) (globals : TableId) (t : Table) : List Published :=
  t.entries.filterMap fun
    | (some name, .function r) =>
      (s.functionAt? r).map fun body ↦ { name, ref := r, body, file, globals }
    | _ => none

def compileFunctions : List Published → Compiled → Activity Compiled
  | [], done => return done
  | f :: rest, done => do compileFunctions rest (← compileFunction f done)

def scriptName? (file : String) : Option String :=
  match Text.cutAtLast? '.' file.toList with
  | some (stem, ['p', 'y']) =>
    if stem.head?.isNone || stem.head? == some '.' then none else some (String.ofList stem)
  | _ => none

end Activity

namespace Interp

open Activity

def compileScript (I : Interp) (file name source : String) (done : Compiled) :
    Activity Compiled := do
  let globals ← modifyGet (·.addTable {})
  let c ← freshContext name globals
  let path := "/config/pyscript/" ++ file
  if ← readScript c (.text source) path then
    let _ ← I.run c .none
    let w ← world
    compileFunctions (published w.store path globals (w.table globals)) done
  else return done

def compileFiles (I : Interp) : List (String × String) → Compiled → Activity Compiled
  | [], done => return done
  | (file, source) :: rest, done => do
    match scriptName? file with
    | none => I.compileFiles rest done
    | some name => I.compileFiles rest (← I.compileScript file name source done)

def compile (I : Interp) : Activity Compiled := do
  I.compileFiles (← read (·.folder.files)) {}

end Interp

end TriggerScript
