import TriggerScript.Library.Construct
import TriggerScript.Library.Member

/-!
# Calling what needs no world

Calls of everything that works on the store alone. Functions of scripts are called elsewhere; here
they are refused, and so are functions of the host that do not answer at once.
-/

namespace TriggerScript

def callTo : Nat → Value → Arguments → Op Value
  | 0, _, _ => throw .outOfFuel
  | n + 1, f, a => do
    let call : Caller := fun g vs ↦ callTo n g ⟨vs, []⟩
    match f with
    | .builtin b => b.run call a
    | .type t => construct call t a
    | .method owner m => m.run call getMember owner a
    | .registered answer => do
      let args ← Op.newList a.args
      let named ← Op.newDict (a.named.map fun (k, v) ↦ (.text k, v))
      Op.newList [answer, args, named]
    | .host h =>
      if h.isPrompt then Op.consult h a.args
      else throw (.notCallable (f.typeName (← Op.store)))
    | f => throw (.notCallable (f.typeName (← Op.store)))

def callValue (f : Value) (a : Arguments) : Op Value := callTo depthLimit f a

def caller : Caller := fun f vs ↦ callValue f ⟨vs, []⟩

end TriggerScript
