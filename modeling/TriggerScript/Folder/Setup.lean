import TriggerScript.Folder.Compile

/-!
# Setting the folder up

At first the scripts are compiled, the service that compiles them anew is registered, and the folder
listens for the start and the end of the host. Triggers run from the start to the end.
-/

namespace TriggerScript

namespace Activity

def keepCompiled (c : Compiled) : Activity Unit :=
  modify fun w ↦
    { w with folder := { w.folder with triggers := c.triggers, services := c.services } }

def listen (type : String) (l : Listener) : Activity Unit :=
  modify fun w ↦ { w with host := (w.host.listen type l).2 }

def startTriggers : Activity Unit := do
  each (← read (·.folder.triggers)) fun t ↦ startTrigger t.2

def stopTriggers : Activity Unit := do
  each (← read (·.folder.triggers)) fun t ↦ stopTrigger t.2

def removeServices : Activity Unit :=
  modify fun w ↦
    { w with host := w.folder.services.foldl (fun h s ↦ h.unregister serviceDomain s) w.host }

end Activity

namespace Interp

open Activity

def setup (I : Interp) : Activity Bool := do
  if ← read (·.folder.exists_) then
    keepCompiled (← I.compile)
    modify fun w ↦ { w with host := w.host.register serviceDomain reloadName .reload }
    listen "homeassistant_started" .startTriggers
    listen "homeassistant_stop" .stopTriggers
    return true
  else
    sayOfFolder .error "Folder pyscript not found in configuration folder"
    return false

def reload (I : Interp) : Activity Unit := do
  stopTriggers
  removeServices
  let c ← I.compile
  keepCompiled c
  each c.triggers fun t ↦ startTrigger t.2

end Interp

end TriggerScript
