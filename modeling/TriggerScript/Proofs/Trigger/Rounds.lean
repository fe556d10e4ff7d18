import TriggerScript.Proofs.Task.Rely
import TriggerScript.Work

/-!
# What tasks do beside evaluation

Tasks do more than evaluate: they make contexts for what they evaluate, tell queues, and watch in
rounds. A permissive guarantee is kept by handling events, by watching and by calling functions. The
rules stand in the order of the definitions.
-/

namespace TriggerScript

open Activity Regime.Obeyed

/-! ### The conditions of a trigger -/

namespace Regime.Obeyed

variable {R : Regime} {p : Site}

theorem activeNow (spec : Value) : R.Obeys p (Activity.activeNow spec) :=
  R.bind (specsOf spec) fun _ ↦ R.bind R.world fun _ ↦ reading _

theorem activeIfGiven (spec : Value) : R.Obeys p (Activity.activeIfGiven spec) :=
  R.bind (R.read _) fun _ ↦ R.ite (activeNow spec) (R.pure true)

theorem unpackIfGiven (info : Value) : R.Obeys p (Activity.unpackIfGiven info) :=
  R.bind (R.read _) fun _ ↦ R.ite (unpack info) (R.pure _)

theorem patienceOf (t : Trigger) : R.Obeys p (Activity.patienceOf t) :=
  R.bind (R.read _) fun _ ↦ R.ite (secondsUntilNext _) (R.pure none)

theorem conditionsHold {I : Interp} (h : R.Obeyed I) (hown : ∀ c, R.own.contexts c) (t : Trigger)
    (expr : Option ContextId) (values : Value) : R.Obeys p (I.conditionsHold t expr values) := by
  refine R.bind (h.holds (fun c _ ↦ hown c) values) fun _ ↦ R.ite ?_ (R.pure false)
  refine R.bind (h.holds (fun c _ ↦ hown c) values) fun _ ↦ R.ite ?_ (R.pure false)
  exact R.ite (R.pure true) (activeNow _)

/-! ### Calls of functions -/

theorem openingTableBeside (f : Function) (args items : List Value) :
    R.Obeys p (Interp.openingTableBeside f args items) := by
  refine R.bind (R.lift _) fun b ↦ ?_
  split
  · exact R.bind (R.op _) fun _ ↦ R.lift _
  · exact R.lift _

theorem callWith {I : Interp} (h : R.Obeyed I) {b : Bool} (f : Ref) (c : ContextId)
    (args : List Value) (named : Value) : R.Obeys ⟨c, b⟩ (I.callWith f c args named) := by
  refine R.bind (R.read _) fun s ↦ R.ite ?_ (h.callFunction c f args _)
  split
  · exact h.callFunction c f args _
  · exact h.callOpening c f fun g ↦ openingTableBeside g args _
  · exact R.raise _

end Regime.Obeyed

/-- A guarantee that allows these few words as well. -/
structure Permissive (G : World → World → Prop) : Prop where
  refl : ∀ w, G w w
  trans : ∀ w w₁ w', G w w₁ → G w₁ w' → G w w'
  act : ∀ E p w w', Act E p w w' → G w w'
  starts : ∀ (w : World) oversight job, (∀ t, job ≠ .watch t) → G w (w.startTask oversight job).2
  frame : ∀ (w : World) tables contexts log, G w { w with tables, contexts, log }
  queues : ∀ (w : World) queues, G w { w with queues }
  states : ∀ (w : World) values, G w { w with stateTable := (w.stateTable.update values).1 }

namespace Permissive

variable {G : World → World → Prop} (hG : Permissive G)

include hG

def discipline : Discipline := .granting G hG.refl hG.trans hG.act hG.frame

theorem newContext (name : String) (globals : TableId) :
    hG.discipline.Obeys default (newContext name globals) :=
  grants_of_ended fun w ↦ ⟨_, _, rfl, hG.frame w _ _ w.log⟩

theorem freshContext (name : String) (globals : TableId) :
    hG.discipline.Obeys default (freshContext name globals) :=
  hG.discipline.furnished (hG.newContext name globals) fun _ ↦ trivial

/-! ### Telling the queues -/

theorem sendTo (q : Notify.QueueId) (kind : String) (carried : Value) :
    hG.discipline.Obeys default (sendTo q kind carried) :=
  hG.discipline.bind (hG.discipline.op _) fun _ ↦ grants_modify fun w ↦ hG.queues w _

theorem tellStates (values : List (String × Value)) (about : Value) :
    hG.discipline.Obeys default (tellStates values about) := by
  refine hG.discipline.bind ?_ fun told ↦ hG.discipline.each told fun p ↦ ?_
  · exact grants_of_ended fun w ↦ ⟨_, _, rfl, hG.states w _⟩
  · exact hG.discipline.bind (hG.discipline.op _) fun _ ↦
      hG.discipline.bind (hG.discipline.op _) fun _ ↦ hG.sendTo _ _ _

theorem tellEvent (type : String) (about : Value) :
    hG.discipline.Obeys default (tellEvent type about) :=
  hG.discipline.bind (hG.discipline.read _) fun qs ↦ hG.discipline.each qs fun q ↦ hG.sendTo q _ _

theorem onStateChanged (e : Event) : hG.discipline.Obeys default (onStateChanged e) := by
  have entry (key : String) : hG.discipline.Obeys default (entryOf e key) := by
    refine hG.discipline.bind (hG.discipline.read _) fun s ↦ ?_
    split
    · exact hG.discipline.pure _
    · exact hG.discipline.raise _
  have text (v : Value) : hG.discipline.Obeys default (stateText v) := by
    unfold stateText
    split
    · exact hG.discipline.pure _
    · exact hG.discipline.bind (hG.discipline.read _) fun _ ↦ hG.discipline.raise _
  have former (v : Value) : hG.discipline.Obeys default (formerText v) :=
    hG.discipline.bind (hG.discipline.read _) fun _ ↦
      hG.discipline.ite (text v) (hG.discipline.pure _)
  refine hG.discipline.bind (entry _) fun entity ↦ hG.discipline.bind (entry _) fun new ↦
    hG.discipline.bind (text new) fun new ↦ hG.discipline.bind (entry _) fun old ↦
    hG.discipline.bind (former old) fun old ↦ hG.discipline.bind (hG.discipline.op _) fun name ↦
    hG.discipline.bind (hG.discipline.lift _) fun _ ↦
    hG.discipline.bind (hG.discipline.op _) fun about ↦ ?_
  split <;> exact hG.tellStates _ _

theorem onEventFired (e : Event) : hG.discipline.Obeys default (onEventFired e) :=
  hG.discipline.bind (hG.discipline.op _) fun about ↦ hG.tellEvent _ about

/-! ### Triggers -/

theorem triggerExpression (trigger role : String) (globals : TableId) (source : Value) :
    hG.discipline.Obeys default (triggerExpression trigger role globals source) := by
  unfold Activity.triggerExpression
  split
  · exact hG.discipline.pure _
  · exact hG.discipline.bind
      (hG.discipline.expressionContext (hG.newContext _ _) (fun _ ↦ trivial) _)
      fun _ ↦ hG.discipline.pure _

theorem triggerEvent (trigger : String) (globals : TableId) (event : Value) (q : Notify.QueueId) :
    hG.discipline.Obeys default (triggerEvent trigger globals event q) := by
  unfold Activity.triggerEvent
  split
  · exact hG.discipline.pure _
  · refine hG.discipline.bind (hG.discipline.op _) fun type ↦
      hG.discipline.bind (watchEvents type trivial) fun _ ↦
      hG.discipline.bind (sizeOf _) fun n ↦
      hG.discipline.ite ?_ (hG.discipline.pure _)
    exact hG.discipline.bind (hG.discipline.op _) fun _ ↦ hG.triggerExpression _ _ _ _

theorem triggerStates (expr : Option ContextId) (q : Notify.QueueId) :
    hG.discipline.Obeys default (triggerStates expr q) := by
  unfold Activity.triggerStates
  split
  · exact hG.discipline.pure _
  · refine hG.discipline.bind (hG.discipline.mentioned _) fun names ↦ ?_
    split
    · exact hG.discipline.pure _
    · exact hG.discipline.bind (watchStates _ trivial) fun _ ↦ hG.discipline.pure _

theorem retire (t : Trigger) : hG.discipline.Obeys default (retire t) := by
  refine hG.discipline.bind ?_ fun _ ↦ ?_
  · unfold retireStates
    split
    · exact hG.discipline.pure _
    · exact hG.discipline.pure _
    · exact unwatchStates _ trivial
  · unfold retireEvent
    split
    · exact hG.discipline.pure _
    · exact hG.discipline.bind (hG.discipline.op _) fun type ↦ unwatchEvents type trivial

theorem startCall (oversight : Oversight) (f : Ref) (c : ContextId) (args : List Value)
    (named : Value) : hG.discipline.Obeys default (start oversight (.call f c args named)) :=
  grants_of_ended fun w ↦ ⟨_, _, rfl, hG.starts w _ _ nofun⟩

theorem launch (t : Trigger) (named : Value) : hG.discipline.Obeys default (launch t named) := by
  unfold Activity.launch
  split
  · exact hG.discipline.pure _
  · exact hG.discipline.bind (hG.startCall _ _ _ _ _) fun _ ↦ hG.discipline.pure _

theorem await (t : Trigger) : hG.discipline.Obeys default (await t) := by
  have within (seconds : Float) : hG.discipline.Obeys default (receiveWithin t.queue seconds) :=
    hG.discipline.receiveFor (q := t.queue) trivial (some seconds)
  refine hG.discipline.bind (patienceOf t) fun seconds ↦ ?_
  split
  · refine hG.discipline.bind (within _) fun m ↦ ?_
    split
    · exact hG.discipline.pure _
    · exact hG.discipline.bind (unpack _) fun _ ↦ hG.discipline.pure _
  · refine hG.discipline.ite ?_ (hG.discipline.pure _)
    exact hG.discipline.bind (hG.discipline.receive (q := t.queue) trivial) fun m ↦
      hG.discipline.bind (unpack m) fun _ ↦ hG.discipline.pure _

section Evaluating

variable {I : Interp} (h : hG.discipline.Obeyed I)

include h

/-! ### Watching -/

theorem onTime (t : Trigger) : hG.discipline.Obeys default (I.onTime t) := by
  refine hG.discipline.bind (h.holds (fun _ _ ↦ trivial) _) fun holds ↦
    hG.discipline.ite ?_ (hG.discipline.pure _)
  refine hG.discipline.bind (activeIfGiven _) fun active ↦
    hG.discipline.ite ?_ (hG.discipline.pure _)
  exact hG.discipline.bind (outcome _) fun _ ↦ hG.launch t _

theorem onState (t : Trigger) (info : Value) : hG.discipline.Obeys default (I.onState t info) := by
  refine hG.discipline.bind (unpackIfGiven info) fun p ↦ ?_
  refine hG.discipline.bind (h.conditionsHold (fun _ ↦ trivial) t _ _) fun hold ↦
    hG.discipline.ite ?_ (hG.discipline.pure _)
  refine hG.discipline.ite ?_ (hG.discipline.pure _)
  exact hG.discipline.bind (h.holds (fun _ _ ↦ trivial) _) fun _ ↦ hG.launch t _

theorem onEvent (t : Trigger) (info : Value) : hG.discipline.Obeys default (I.onEvent t info) :=
  hG.discipline.bind (h.conditionsHold (fun _ ↦ trivial) t _ _) fun _ ↦
    hG.discipline.ite (hG.launch t _) (hG.discipline.pure _)

theorem onMessage (t : Trigger) (type info : Value) :
    hG.discipline.Obeys default (I.onMessage t type info) := by
  refine hG.discipline.bind (hG.discipline.read _) fun s ↦ hG.discipline.ite (hG.onState h t info)
    (hG.discipline.ite (hG.onEvent h t info) ?_)
  exact hG.discipline.bind (hG.discipline.op _) fun _ ↦ hG.discipline.say _ _ _

theorem watchRound (t : Trigger) : hG.discipline.Obeys default (I.watchRound t) := by
  refine hG.discipline.bind (hG.await t) fun arrival ↦ ?_
  cases arrival with
  | time => exact hG.discipline.bind (hG.onTime h t) fun _ ↦ hG.discipline.pure _
  | message type info =>
    exact hG.discipline.bind (hG.onMessage h t type info) fun _ ↦ hG.discipline.pure _
  | nothing => exact hG.discipline.bind (hG.onState h t _) fun _ ↦ hG.discipline.pure _

theorem watchRounds (t : Trigger) (n : Nat) : hG.discipline.Obeys default (I.watchRounds t n) := by
  induction n with
  | zero => exact hG.discipline.outOfFuel
  | succ n ih =>
    have round : hG.discipline.Obeys default (I.watchRound t).attempt :=
      Activity.Grants.attempt (hG.watchRound h t)
    refine hG.discipline.bind round fun again ↦ ?_
    split
    · exact ih
    · exact hG.discipline.pure _
    · exact hG.retire t

theorem watch (t : TriggerId) : hG.discipline.Obeys default (I.watch t) := by
  refine hG.discipline.bind (hG.discipline.read _) fun trigger ↦ ?_
  split
  · exact hG.discipline.pure _
  · exact hG.watchRounds h _ _

/-! ### Calls of functions -/

theorem callWith (f : Ref) (c : ContextId) (args : List Value) (named : Value) :
    hG.discipline.Obeys default (I.callWith f c args named) :=
  h.callWith (b := false) f c args named

omit h in
theorem serveFunction (data : Entries) (name : String) (f : Ref) (globals : TableId) :
    hG.discipline.Obeys default (I.serve data (.function name f globals)) := by
  refine hG.discipline.bind (hG.freshContext name globals) fun c ↦
    hG.discipline.bind (hG.discipline.op _) fun named ↦
    hG.discipline.bind ?_ fun _ ↦ hG.discipline.pure _
  exact hG.startCall _ _ _ _ _

end Evaluating

end Permissive

end TriggerScript
