import TriggerScript.Host.Action

/-!
# Telling the queues

Messages go to the queues that wait for an entity or for a type of event. A message is a list of its
kind and what it carries.
-/

namespace TriggerScript

namespace Activity

def sendTo (q : Notify.QueueId) (kind : String) (carried : Value) : Activity Unit := do
  let m ← op (Op.newList [.text kind, carried])
  modify (·.send q m)

def tellStates (values : List (String × Value)) (about : Value) : Activity Unit := do
  let told ← modifyGet fun w ↦
    let (t, told) := w.stateTable.update values
    (told, { w with stateTable := t })
  each told fun (q, last) ↦ do
    let vars ← op (Op.newDict (last.map fun (n, v) ↦ (.text n, v)))
    sendTo q "state" (← op (Op.newList [vars, about]))

def tellEvent (type : String) (about : Value) : Activity Unit := do
  each (← read (·.eventTable.queuesOf type)) fun q ↦ sendTo q "event" about

def entryOf (e : Event) (key : String) : Activity Value := do
  let s ← read (·.store)
  match Entries.get? s e.data (.text key) with
  | some v => return v
  | none => raise (missingKey s (.text key))

def stateText (v : Value) : Activity Value := do
  match v with
  | .entityState text _ => return .text text
  | v => raise (.noAttribute (v.typeName (← read (·.store))) "state")

def formerText (v : Value) : Activity Value := do
  if v.truth (← read (·.store)) then stateText v else return .none

def onStateChanged (e : Event) : Activity Unit := do
  let entity ← entryOf e "entity_id"
  let new ← stateText (← entryOf e "new_state")
  let old ← formerText (← entryOf e "old_state")
  let name ← op (Op.look entity.plain)
  lift entity.checkKey
  let about ← op (Op.newDict [(.text "trigger_type", .text "state"), (.text "var_name", entity),
    (.text "value", new), (.text "old_value", old)])
  match entity with
  | .text _ => tellStates [(name, new), (name ++ ".old", old)] about
  | _ => tellStates [(name ++ ".old", old)] about

def onEventFired (e : Event) : Activity Unit := do
  let about ← op (do
    Op.newDict (← Op.merge
      [(.text "trigger_type", .text "event"), (.text "event_type", .text e.type)] e.data))
  tellEvent e.type about

end Activity

end TriggerScript
