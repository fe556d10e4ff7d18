import TriggerScript.Text.Cut
import TriggerScript.Value.Basic

/-!
# Who is told about a changed entity

A queue is registered with a list of names and is then told about each entity that one of them
belongs to. A name belongs to an entity if it has two or three parts: `domain.entity`, or with an
attribute or `old` behind it. The last value that was told of each watched name is kept.

A message to a queue carries the last values of the names it was registered with.
-/

namespace TriggerScript.Notify

abbrev QueueId := Nat

/-- The names a queue was registered with: a list in which places may be empty, or a single text. -/
inductive Watched where
  | names (names : List (Option String))
  | single (text : String)
  deriving Repr, DecidableEq

def Watched.toList : Watched → List (Option String)
  | names ns => ns
  | single t => [some t]

def Watched.carried : Watched → List (Option String)
  | names ns => ns
  | single t => t.toList.map fun c ↦ some (String.ofList [c])

def parts (name : String) : List String := (Text.splitAtChar '.' name.toList).map String.ofList

def entityOf? (name : String) : Option String :=
  match parts name with
  | [domain, entity] => some (domain ++ "." ++ entity)
  | [domain, entity, _] => some (domain ++ "." ++ entity)
  | _ => none

abbrev Watchers := List (QueueId × Watched)

structure StateTable where
  /-- Entities in the order in which they were first registered. An entity stays when its last
  queue goes. -/
  watchers : List (String × Watchers) := []
  /-- The last value told of each name. -/
  last : List (String × Value) := []

namespace StateTable

def watchersOf (t : StateTable) (entity : String) : Watchers := (t.watchers.lookup entity).getD []

def noParts : Fault := .noAttribute "NoneType" "split"

def addNames (t : StateTable) (w : Watched) (q : QueueId) :
    List (Option String) → StateTable × Option Fault
  | [] => (t, none)
  | none :: _ => (t, some noParts)
  | some name :: rest =>
    match entityOf? name with
    | none => addNames t w q rest
    | some e =>
      addNames { t with watchers := assign t.watchers e (assign (t.watchersOf e) q w) } w q rest

def add (t : StateTable) (w : Watched) (q : QueueId) : StateTable × Option Fault :=
  addNames t w q w.toList

def removeNames (t : StateTable) (q : QueueId) : List (Option String) → StateTable × Option Fault
  | [] => (t, none)
  | none :: _ => (t, some noParts)
  | some name :: rest =>
    match entityOf? name with
    | none => removeNames t q rest
    | some e =>
      if (t.watchersOf e).any (·.1 = q) then
        removeNames
          { t with watchers := assign t.watchers e ((t.watchersOf e).filter (·.1 ≠ q)) } q rest
      else (t, none)

def remove (t : StateTable) (w : Watched) (q : QueueId) : StateTable × Option Fault :=
  removeNames t q w.toList

def lastValues (t : StateTable) : List (Option String) → List (String × Value)
  | [] => []
  | none :: rest => t.lastValues rest
  | some name :: rest =>
    match t.last.lookup name with
    | some v => (name, v) :: (t.lastValues rest).filter (·.1 != name)
    | none => t.lastValues rest

def collect (t : StateTable) : List (String × Value) → Watchers → StateTable × Watchers
  | [], told => (t, told)
  | (name, v) :: rest, told =>
    match t.watchers.lookup name with
    | none => collect t rest told
    | some ws =>
      collect { t with last := assign t.last name v } rest
        (ws.foldl (fun told w ↦ assign told w.1 w.2) told)

def update (t : StateTable) (values : List (String × Value)) :
    StateTable × List (QueueId × List (String × Value)) :=
  let (t, told) := t.collect values []
  (t, told.map fun w ↦ (w.1, t.lastValues w.2.carried))

end StateTable

end TriggerScript.Notify
