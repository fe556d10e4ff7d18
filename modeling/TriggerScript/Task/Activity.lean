import TriggerScript.World

/-!
# Activities

An activity works on the world. It ends with a result, or it waits with a request and goes on when
the request is answered, in whatever world there is by then.

An activity ends early in one of three ways. A fault can be caught (`attempt`). Cancellation can be
caught only by those who say so (`settle`). Running out of fuel cannot be caught.
-/

namespace TriggerScript

inductive Stop where
  | raised (f : Fault)
  | cancelled
  | outOfFuel
  deriving Repr, DecidableEq

inductive Step (α : Type) : Type where
  | ended (result : Except Stop α) (w : World)
  | waiting (request : Request) (w : World) (resume : Reply → World → Step α)

namespace Step

def bind {α β : Type} : Step α → (α → World → Step β) → Step β
  | ended (.ok a) w, k => k a w
  | ended (.error e) w, _ => ended (.error e) w
  | waiting r w resume, k => waiting r w fun reply w ↦ (resume reply w).bind k

def attempt {α : Type} : Step α → Step (Except Fault α)
  | ended (.ok a) w => ended (.ok (.ok a)) w
  | ended (.error (.raised f)) w => ended (.ok (.error f)) w
  | ended (.error .cancelled) w => ended (.error .cancelled) w
  | ended (.error .outOfFuel) w => ended (.error .outOfFuel) w
  | waiting r w resume => waiting r w fun reply w ↦ (resume reply w).attempt

def settle : Step Unit → Step Unit
  | ended (.error .cancelled) w => ended (.ok ()) w
  | ended r w => ended r w
  | waiting r w resume => waiting r w fun reply w ↦ (resume reply w).settle

end Step

def Activity (α : Type) : Type := World → Step α

namespace Activity

variable {α : Type}

def result (a : α) : Activity α := fun w ↦ .ended (.ok a) w

instance : Monad Activity where
  pure a := result a
  bind x f := fun w ↦ (x w).bind f

def world : Activity World := fun w ↦ .ended (.ok w) w

def read (f : World → α) : Activity α := fun w ↦ .ended (.ok (f w)) w

def modify (f : World → World) : Activity Unit := fun w ↦ .ended (.ok ()) (f w)

def modifyGet (f : World → α × World) : Activity α := fun w ↦
  let r := f w
  .ended (.ok r.1) r.2

def amend (f : World → Except Fault World) : Activity Unit := fun w ↦
  match f w with
  | .ok w => .ended (.ok ()) w
  | .error e => .ended (.error (.raised e)) w

def raise (f : Fault) : Activity α := fun w ↦ .ended (.error (.raised f)) w

def outOfFuel {α : Type} : Activity α := fun w ↦ .ended (.error .outOfFuel) w

def op (x : Op α) : Activity α := fun w ↦
  let s := w.store
  let functions := s.functions
  let w := { w with store := {} }
  match x.run.run s with
  | (.ok a, s) => .ended (.ok a) { w with store := { s with functions } }
  | (.error f, s) => .ended (.error (.raised f)) { w with store := { s with functions } }

def lift : Except Fault α → Activity α
  | .ok a => result a
  | .error f => raise f

def attempt {α : Type} (x : Activity α) : Activity (Except Fault α) := fun w ↦ (x w).attempt

def settle (x : Activity Unit) : Activity Unit := fun w ↦ (x w).settle

def ask (r : Request) : Activity Reply := fun w ↦
  .waiting r w fun reply w ↦
    match reply with
    | .cancelled => .ended (.error .cancelled) w
    | reply => .ended (.ok reply) w

def say (logger : String) (level : Level) (text : String) : Activity Unit :=
  modify (·.say logger level text)

def each {α : Type} (xs : List α) (f : α → Activity Unit) : Activity Unit :=
  match xs with
  | [] => result ()
  | x :: rest => do
    f x
    each rest f

def collect {α β : Type} (f : α → Activity β) : List α → Activity (List β)
  | [] => result []
  | x :: xs => do
    let y ← f x
    let ys ← collect f xs
    return y :: ys

end Activity

end TriggerScript
