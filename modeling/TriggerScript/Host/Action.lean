import TriggerScript.Library.Call
import TriggerScript.Task.Activity

/-!
# Acting on the host

Setting the state of an entity, firing events and calling services. Whoever listens, and the service
that is called, runs as a task of its own; the caller does not wait for it.
-/

namespace TriggerScript

def Entries.agree (s : Store) (xs ys : Entries) : Bool :=
  xs.length == ys.length && xs.all fun (k, v) ↦
    match Entries.get? s ys k with
    | some v' => Value.alike s v v'
    | none => false

namespace Activity

def deliver (e : Event) : Activity Unit :=
  modify fun w ↦
    (w.host.listenersOf e.type).foldl (fun w l ↦ (w.startTask .noted (.deliver l e)).2) w

def note (f : Notes → Notes) : Activity Unit :=
  modify fun w ↦ { w with host := { w.host with notes := f w.host.notes } }

def fire (e : Event) : Activity Unit := do
  note fun n ↦ { n with fired := n.fired ++ [e] }
  deliver e

def stateValue : Option EntityState → Activity Value
  | none => return .none
  | some state => do
    match ← op (Op.newDict state.attributes) with
    | .dict r => return .entityState state.text r
    | v => return v

def announce (entity : String) (old new : Option EntityState) : Activity Unit := do
  let old ← stateValue old
  let new ← stateValue new
  deliver ⟨"state_changed",
    [(.text "entity_id", .text entity), (.text "old_state", old), (.text "new_state", new)]⟩

def attributesOf (v : Value) : Activity Entries := do
  let s ← read (·.store)
  if v.truth s then op (do Op.merge [] (← Op.pairsOf caller v)) else return []

def putEntity (entity : String) (value attributes : Value) : Activity Unit := do
  let text ← op (Op.look value.plain)
  let attributes ← attributesOf attributes
  let old ← read (·.host.state? entity)
  let s ← read (·.store)
  let same := match old with
    | some st => st.text == text && Entries.agree s st.attributes attributes
    | none => false
  if same then return ()
  let new : EntityState := ⟨text, attributes⟩
  let entity := foldName entity
  modify fun w ↦ { w with host := w.host.putState entity new }
  note fun n ↦ { n with sets := n.sets ++ [(entity, some new)] }
  announce entity old (some new)

def removeEntity (entity : String) : Activity Unit := do
  let entity := foldName entity
  match ← read (·.host.state? entity) with
  | none => return ()
  | some old =>
    modify fun w ↦ { w with host := w.host.removeState entity }
    note fun n ↦ { n with sets := n.sets ++ [(entity, none)] }
    announce entity (some old) none

def setVariable (name : String) (value attributes : Value) : Activity Unit := do
  if (Notify.parts name).length != 2 then
    say "state" .error ("invalid variable name " ++ name ++ " (should be 'domain.entity')")
  else putEntity name value attributes

def callService (domain name : String) (data : Entries) : Activity Unit := do
  match ← read (·.host.service? domain name) with
  | none => raise (.serviceMissing domain name)
  | some service =>
    note fun n ↦ { n with calls := n.calls ++ [(Host.serviceKey domain name, data)] }
    match service with
    | .nothing => return ()
    | service => modify fun w ↦ (w.startTask .noted (.serve service data)).2

end Activity

namespace World

def variableValue? (w : World) (name : String) : Option Value :=
  match Notify.parts name with
  | [domain, entity] => (w.host.state? (domain ++ "." ++ entity)).map fun st ↦ .text st.text
  | [domain, entity, attr] =>
    (w.host.state? (domain ++ "." ++ entity)).map fun st ↦
      (Entries.get? w.store st.attributes (.text attr)).getD .none
  | _ => none

/-- A variable exists: it has a value, and an attribute is not empty. -/
def variableExists (w : World) (name : String) : Bool :=
  match w.variableValue? name with
  | none | some .none => false
  | some _ => true

def hostFunction? (w : World) (name : String) : Option Value :=
  match w.functions.lookup name with
  | some f => some f
  | none =>
    match Text.cutAt? '.' name.toList with
    | none => none
    | some (domain, service) =>
      let domain := String.ofList domain
      let service := String.ofList service
      (w.host.service? domain service).map fun _ ↦ .host (.service domain service)

end World

end TriggerScript
