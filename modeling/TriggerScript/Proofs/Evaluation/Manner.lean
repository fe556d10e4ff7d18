import TriggerScript.Evaluation.Statement

/-!
# Acting on the host at once

Functions of the host that answer at once write to the log, look at states and services, and set
states. A manner holds of the functions (`Manner.callPrompt`), and of computations that apply them
(`Manner.calling`).
-/

namespace TriggerScript

open Activity

/-- A property of activities that these few words have and that sequencing keeps. -/
structure Manner (P : {α : Type} → Activity α → Prop) : Prop where
  read : ∀ {α : Type} {f : World → α},
    (∀ (w : World) tables contexts log, f { w with tables, contexts, log } = f w) → P (read f)
  raise : ∀ {α : Type} (f : Fault), P (raise f : Activity α)
  outOfFuel : ∀ {α : Type}, P (outOfFuel : Activity α)
  op : ∀ {α : Type} (x : Op α), P (Activity.op x)
  attempt_op : ∀ {α : Type} (x : Op α), P (Activity.op x).attempt
  bind : ∀ {α β : Type} {x : Activity α} {f : α → Activity β}, P x → (∀ a, P (f a)) → P (x >>= f)
  say : ∀ logger level text, P (say logger level text)
  note : ∀ f, P (note f)
  putState : ∀ entity state, P (modify fun w ↦ { w with host := w.host.putState entity state })
  declare : ∀ r name inForce scoping,
    P (modify fun w ↦ w.updateFunction r (·.declare name inForce scoping))
  deliver : ∀ e, P (deliver e)

namespace Manner

variable {P : {α : Type} → Activity α → Prop} (M : Manner P) {α : Type}

include M

theorem result (a : α) : P (Activity.result a) := M.read fun _ _ _ _ ↦ rfl

theorem lift (x : Except Fault α) : P (lift x) := by
  cases x with
  | ok a => exact M.result a
  | error f => exact M.raise f

omit M in
theorem ite {p : Prop} [Decidable p] {x y : Activity α} (hx : P x) (hy : P y) :
    P (if p then x else y) := by
  split
  · exact hx
  · exact hy

/-! ### States -/

theorem stateValue (state : Option EntityState) : P (stateValue state) := by
  cases state with
  | none => exact M.result _
  | some state =>
    refine M.bind (M.op _) fun v ↦ ?_
    split <;> exact M.result _

theorem announce (entity : String) (old new : Option EntityState) :
    P (Activity.announce entity old new) :=
  M.bind (M.stateValue old) fun _ ↦ M.bind (M.stateValue new) fun _ ↦ M.deliver _

theorem attributesOf (v : Value) : P (Activity.attributesOf v) :=
  M.bind (M.read fun _ _ _ _ ↦ rfl) fun _ ↦ ite (M.op _) (M.result _)

theorem putEntity (entity : String) (value attributes : Value) :
    P (Activity.putEntity entity value attributes) := by
  refine M.bind (M.op _) fun text ↦ M.bind (M.attributesOf attributes) fun attributes ↦
    M.bind (M.read fun _ _ _ _ ↦ rfl) fun old ↦ M.bind (M.read fun _ _ _ _ ↦ rfl) fun s ↦
    ite (M.result _) ?_
  exact M.bind (M.putState _ _) fun _ ↦ M.bind (M.note _) fun _ ↦ M.announce _ _ _

theorem setVariable (name : String) (value attributes : Value) :
    P (Activity.setVariable name value attributes) :=
  ite (M.say _ _ _) (M.putEntity name value attributes)

/-! ### Functions that answer at once -/

theorem logMessage (name : String) (a : Arguments) : P (Activity.logMessage name a) := by
  unfold Activity.logMessage
  split
  · exact M.result _
  · exact M.result _
  · exact M.raise _
  · exact M.raise _

theorem checkLogOptions (a : Arguments) : P (Activity.checkLogOptions a) := by
  unfold Activity.checkLogOptions
  split
  · exact M.raise _
  · exact M.result _

theorem writeLog (level : Level) (logger : String) (a : Arguments) :
    P (Activity.writeLog level logger a) := by
  refine M.bind (M.logMessage _ a) fun message ↦ M.bind (M.checkLogOptions a) fun _ ↦
    M.bind (M.attempt_op _) fun text ↦ ?_
  cases text with
  | ok text => exact M.say _ _ _
  | error f => exact M.result _

theorem nameOf (v : Value) : P (Activity.nameOf v) := by
  unfold Activity.nameOf
  split
  · exact M.result _
  · exact M.bind (M.read fun _ _ _ _ ↦ rfl) fun _ ↦ M.raise _

theorem callPrompt (f : HostFunction) (a : Arguments) : P (callPrompt f a) := by
  cases f with
  | log level logger => exact M.bind (M.writeLog level logger a) fun _ ↦ M.result _
  | hasService =>
    exact M.bind (M.lift _) fun _ ↦ M.bind (M.op _) fun domain ↦ M.bind (M.op _) fun name ↦
      M.bind (M.read fun _ _ _ _ ↦ rfl) fun _ ↦ M.result _
  | getState =>
    exact M.bind (M.lift _) fun _ ↦ M.bind (M.nameOf _) fun name ↦
      M.bind (M.read fun _ _ _ _ ↦ rfl) fun _ ↦ M.result _
  | setState =>
    exact M.bind (M.lift _) fun _ ↦ M.bind (M.nameOf _) fun name ↦
      M.bind (M.setVariable _ _ _) fun _ ↦ M.result _
  | declare r scoping inForce =>
    unfold Activity.callPrompt
    dsimp only
    split
    · exact M.bind (M.declare _ _ _ _) fun _ ↦ M.result _
    · exact M.bind M.outOfFuel fun _ ↦ M.result _
  | interfere => exact M.outOfFuel
  | _ => exact M.result _

theorem calling (x : Op α) : P (calling x) := by
  have hfrom (s : Store) (n : Nat) (answers : List Answer) :
      P (callingFrom x s n answers) := by
    induction n generalizing answers with
    | zero => exact M.outOfFuel
    | succ n ih =>
      refine M.bind (M.attempt_op _) fun r ↦ M.bind (M.read fun _ _ _ _ ↦ rfl) fun wanted ↦
        M.bind (M.op _) fun _ ↦ ?_
      cases wanted with
      | none => exact M.lift r
      | some wanted =>
        exact M.bind (M.callPrompt _ _) fun v ↦ M.bind (M.read fun _ _ _ _ ↦ rfl) fun t ↦ ih _
  exact M.bind (M.read fun _ _ _ _ ↦ rfl) fun s ↦ hfrom s _ _

end Manner

theorem Activity.calling_of_run {α : Type} {x : Op α} {w : World} {r : Except Fault α} {s : Store}
    (h : x.run.run { w.store with answers := [], wanted := none } = (r, s)) (hs : s.wanted = none) :
    calling x w =
      lift r
        { w with store := { s with functions := w.store.functions, answers := [], wanted := none }
          } := by
  have hrun : (op (do set { w.store with answers := [], wanted := none }; x)).attempt w =
      .ended (.ok r) { w with store := { s with functions := w.store.functions } } := by
    have hset : (do set { w.store with answers := [], wanted := none }; x : Op α).run.run w.store =
        (r, s) := h
    unfold attempt op
    dsimp only
    rw [hset]
    cases r <;> rfl
  refine (congrArg (Step.bind · _) hrun).trans ?_
  cases s
  cases hs
  rfl

end TriggerScript
