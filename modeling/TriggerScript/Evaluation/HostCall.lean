import TriggerScript.Evaluation.Signature
import TriggerScript.Evaluation.WaitUntil

/-!
# Calling the host

The functions through which a script acts on what is around it: logging, waiting, claiming a name
for its task, events, services and states.
-/

namespace TriggerScript

namespace HostFunction

def signature : HostFunction → Signature
  | .log level _ => ⟨"Logger." ++ level.word, ["msg"], [], true⟩
  | .waitUntil _ =>
    ⟨"TrigTime.wait_until", ["ast_ctx"],
      ["state_trigger", "state_check_now", "time_trigger", "event_trigger", "timeout"], true⟩
  | .sleep => ⟨"Handler.async_sleep", ["duration"], [], false⟩
  | .unique => ⟨"Handler.task_unique", ["name"], ["kill_me"], false⟩
  | .fire => ⟨"Handler.event_fire", ["event_type"], [], true⟩
  | .callService => ⟨"Handler.service_call", ["domain", "name"], [], true⟩
  | .hasService => ⟨"Handler.service_has_service", ["domain", "name"], [], false⟩
  | .getState => ⟨"State.get", ["var_name"], [], false⟩
  | .setState => ⟨"State.set", ["var_name", "value"], ["attributes"], false⟩
  | .service _ _ => ⟨"service_call", [], [], true⟩
  | .declare _ _ _ => ⟨"set", ["name"], [], false⟩
  | .interfere => ⟨"interfere", [], [], false⟩

end HostFunction

namespace Activity

def logText (message : Value) (args : List Value) : Op String := do
  let format ← Op.look message.plain
  match args with
  | [] => return format
  | [.dict r] =>
    if (← Op.store).dictAt r |>.isEmpty then percentFormat format (.tuple [.dict r])
    else percentFormat format (.dict r)
  | args => percentFormat format (.tuple args)

def logOptions : List String := ["exc_info", "extra", "stack_info", "stacklevel"]

def logMessage (name : String) (a : Arguments) : Activity Value :=
  match a.args, a.named? "msg" with
  | m :: _, none => return m
  | [], some m => return m
  | _ :: _, some _ =>
    raise (.stated .type (name ++ "() got multiple values for argument 'msg'"))
  | [], none =>
    raise (.stated .type (name ++ "() missing 1 required positional argument: 'msg'"))

def checkLogOptions (a : Arguments) : Activity Unit :=
  match a.named.find? fun e ↦ e.1 != "msg" && !logOptions.contains e.1 with
  | some (k, _) =>
    raise (.stated .type ("Logger._log() got an unexpected keyword argument '" ++ k ++ "'"))
  | none => return ()

def writeLog (level : Level) (logger : String) (a : Arguments) : Activity Unit := do
  let message ← logMessage ("Logger." ++ level.word) a
  checkLogOptions a
  match ← (op (logText message (a.args.drop 1))).attempt with
  | .ok text => say logger level text
  | .error _ => return ()

def claim (name : Value) (yields : Bool) : Activity Unit := do
  lift name.checkKey
  let w ← world
  match w.claims.find? fun e ↦ Value.alike w.store e.1 name with
  | none => modify fun w ↦ { w with claims := w.claims ++ [(name, w.running)] }
  | some (_, holder) =>
    let task := if yields then w.running else holder
    stopTask task
    modify fun w ↦
      { w with
        claims := (w.claims.filter fun e ↦ !Value.alike w.store e.1 name) ++ [(name, task)] }

def nameOf (v : Value) : Activity String := do
  match v with
  | .text t => return t
  | v => raise (.noAttribute (v.typeName (← read (·.store))) "split")

/-- Calls a function of the host that answers at once. -/
def callPrompt (f : HostFunction) (a : Arguments) : Activity Value := do
  let sig := f.signature
  let get (name : String) : Value := (sig.argument? a name).getD .none
  match f with
  | .log level logger => do
    writeLog level logger a
    return .none
  | .hasService => do
    lift (sig.check a)
    let domain ← op (Op.look (get "domain").plain)
    let name ← op (Op.look (get "name").plain)
    return .bool (← read fun w ↦ (w.host.service? domain name).isSome)
  | .getState => do
    lift (sig.check a)
    let name ← nameOf (get "var_name")
    return (← read (·.variableValue? name)).getD .none
  | .setState => do
    lift (sig.check a)
    let name ← nameOf (get "var_name")
    setVariable name (get "value") (get "attributes")
    return .none
  | .declare r scoping inForce => do
    match a.args with
    | [.text name] => modify (·.updateFunction r (·.declare name inForce scoping))
    | _ => outOfFuel
    return .none
  | .interfere => outOfFuel
  | _ => return .none

def callingFrom {α : Type} (x : Op α) (s : Store) : Nat → List Answer → Activity α
  | 0, _ => outOfFuel
  | n + 1, answers => do
    let r ← (op (do
      set { s with answers, wanted := none }
      x)).attempt
    let wanted ← read (·.store.wanted)
    op (do set { ← Op.store with answers := [], wanted := none })
    match wanted with
    | none => lift r
    | some (f, args) =>
      let v ← callPrompt f ⟨args, []⟩
      let t ← read (·.store)
      callingFrom x s n (answers ++ [⟨v, t.objects, t.functions, t.marks⟩])

def calling {α : Type} (x : Op α) : Activity α := do
  callingFrom x (← read (·.store)) 10000 []

end Activity

namespace Interp

open Activity

def callHost (I : Interp) (f : HostFunction) (a : Arguments) : Activity Value := do
  let sig := f.signature
  let get (name : String) : Value := (sig.argument? a name).getD .none
  match f with
  | .service domain name => do
    callService domain name (a.named.map fun (k, v) ↦ (.text k, v))
    return .none
  | .waitUntil c => do
    let a : Arguments := { a with args := .none :: a.args }
    lift (sig.check a)
    let get (name : String) : Value := (sig.argument? a name).getD .none
    I.waitUntil c
      { stateTrigger := get "state_trigger", timeTrigger := get "time_trigger",
        eventTrigger := get "event_trigger", timeout := get "timeout" }
  | .sleep => do
    lift (sig.check a)
    match ← op (makeFloat ⟨[get "duration"], []⟩) with
    | .float x _ => sleep x
    | _ => pure ()
    return .none
  | .unique => do
    lift (sig.check a)
    claim (get "name") ((get "kill_me").truth (← read (·.store)))
    return .none
  | .fire => do
    lift (sig.check a)
    fire ⟨← eventTypeOf (get "event_type"), sig.extra a⟩
    return .none
  | .callService => do
    lift (sig.check a)
    let domain ← op (Op.look (get "domain").plain)
    let name ← op (Op.look (get "name").plain)
    callService domain name (sig.extra a)
    return .none
  | f => callPrompt f a

end Interp

end TriggerScript
