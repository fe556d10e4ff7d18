import TriggerScript.Proofs.Evaluation.Operands

/-!
# Disciplines hold of all of evaluation

One rule for each function of evaluation, in the order in which they are defined, each given that
the parts of the tree obey. Waiting until something happens makes contexts and a queue, so its rule
is about a family (`RegimeFamily.waitUntil`). By induction on the depth, all of evaluation obeys
(`Discipline.obeyed_upTo`).
-/

namespace TriggerScript

open Syntax (Position Expr Stmt Keyword DictItem Comparison Operator Literal Access Alias)

namespace Regime

open Activity Interp

/-- All that is evaluated and executed obeys. -/
structure Obeyed (R : Regime) (I : Interp) : Prop where
  node : ∀ {b : Bool} c e, R.Obeys ⟨c, b⟩ (I.node c e)
  statement : ∀ c s, R.Obeys ⟨c, true⟩ (I.statement c s)
  expr : ∀ {b : Bool} c pos e, R.Obeys ⟨c, b⟩ (I.statement c (.expr pos e))

def Waits (R : Regime) (I : Interp) : Prop :=
  ∀ {p : Site} (c : ContextId) (given : Waiting), R.Obeys p (I.waitUntil c given)

variable {R : Regime} {I : Interp} (h : R.Obeyed I) (c : ContextId) {b : Bool} {p : Site}

namespace Obeyed

/-! ### Parts and calls -/

include h

theorem evaluate (e : Expr) : R.Obeys ⟨c, b⟩ (I.evaluate c e) :=
  R.guarded c _ .value (R.bind (h.node c e) fun v ↦ R.defined v)

theorem evaluateOpen (e : Expr) : R.Obeys ⟨c, b⟩ (I.evaluateOpen c e) :=
  R.guarded c _ .value (h.node c e)

theorem execute (s : Stmt) : R.Obeys ⟨c, true⟩ (I.execute c s) :=
  R.guarded c _ .flow (h.statement c s)

theorem sequence (last : Flow) (stmts : List Stmt) :
    R.Obeys ⟨c, true⟩ (I.sequence c last stmts) := by
  induction stmts generalizing last with
  | nil => exact R.result last
  | cons s rest ih =>
    refine R.bind (h.execute c s) fun flow ↦ ?_
    split
    · exact R.pure _
    · exact ih flow

theorem body (stmts : List Stmt) : R.Obeys ⟨c, true⟩ (I.body c stmts) := by
  induction stmts with
  | nil => exact R.pure _
  | cons s rest ih =>
    refine R.bind (h.execute c s) fun flow ↦ ?_
    split
    · exact R.pure _
    · exact ih

omit h in
theorem openingTable (f : Function) (args : List Value) (named : Named) :
    R.Obeys p (openingTable f args named) := by
  refine R.bind (R.lift _) fun b ↦ ?_
  split
  · exact R.bind (R.op _) fun _ ↦ R.lift _
  · exact R.lift _

theorem callOpening (r : Ref) {opening : Function → Activity Table}
    (ho : ∀ f, R.Obeys ⟨c, b⟩ (opening f)) : R.Obeys ⟨c, b⟩ (I.callOpening c r opening) := by
  refine R.bind (R.read _) fun f ↦ ?_
  split
  · exact R.pure _
  · exact R.bind (ho _) fun t ↦ R.callBody I c r t _ (h.body c _)

theorem callFunction (r : Ref) (args : List Value) (named : Named) :
    R.Obeys ⟨c, b⟩ (I.callFunction c r args named) :=
  h.callOpening c r fun f ↦ openingTable f args named

omit h in
theorem give {c : ContextId} (hc : R.own.contexts c) (values : Value) :
    R.Obeys p (give c values) := by
  refine R.bind (R.read _) fun s ↦ ?_
  split
  · exact R.bind (R.op _) fun _ ↦ R.modify fun w ↦ .give w hc _
  · exact R.pure _

theorem expressions (last : Flow) {stmts : List Stmt} (hstmts : stmts.all (·.isExpression)) :
    R.Obeys ⟨c, b⟩ (I.sequence c last stmts) := by
  induction stmts generalizing last with
  | nil => exact R.result last
  | cons s rest ih =>
    obtain ⟨hs, hrest⟩ := Bool.and_eq_true_iff.1 hstmts
    cases s with
    | expr pos e =>
      refine R.bind (R.guarded c _ .flow (h.expr c pos e)) fun flow ↦ ?_
      split
      · exact R.pure _
      · exact ih flow hrest
    | _ => cases hs

theorem script (last : Flow) (stmts : List Stmt) :
    R.Obeys (.script c stmts) (I.sequence c last stmts) := by
  unfold Site.script
  cases hstmts : stmts.all (·.isExpression) with
  | true => exact h.expressions c last hstmts
  | false => exact h.sequence c last stmts

theorem run {c : ContextId} (hc : R.own.contexts c) (values : Value) : R.Obeys p (I.run c values) :=
  R.bind (R.modify fun w ↦ .remember w hc _ fun _ ↦ ⟨_, _, _, _, rfl⟩) fun _ ↦
    R.bind (give hc values) fun _ ↦ R.runTree I c hc fun stmts ↦ h.script c _ stmts

/-! ### Waiting until something happens -/

omit h in
theorem outcome (type : String) : R.Obeys p (outcome type) := R.op _

omit h in
theorem specsOf (spec : Value) : R.Obeys p (specsOf spec) := by
  refine R.bind (R.read _) fun s ↦ ?_
  split <;> exact R.pure _

variable {α : Type} {wait : Interp.Wait} {q : Notify.QueueId}

omit h in
theorem reading (x : Schedule.Reading α) : R.Obeys p (reading x) :=
  R.bind (R.each _ fun _ ↦ R.say _ _ _) fun _ ↦ R.lift _

omit h in
theorem secondsUntilNext (spec : Value) : R.Obeys p (secondsUntilNext spec) := by
  refine R.bind (specsOf spec) fun specs ↦ R.bind R.world fun w ↦ R.bind (reading _) fun t ↦ ?_
  cases t with
  | some t => exact R.pure _
  | none => exact R.pure _

omit h in
theorem unpack (message : Value) : R.Obeys p (unpack message) := by
  refine R.bind (R.read _) fun s ↦ R.ite (R.raise _) (R.bind (R.op _) fun xs ↦ ?_)
  split
  · exact R.pure _
  · exact R.ite (R.raise _) (R.raise _)

omit h in
theorem watchStates (names : Notify.Watched) (hq : R.own.queues q) :
    R.Obeys p (watchStates names q) := by
  refine R.bind (R.modifyGet _ fun w ↦ .watchStates w names hq) fun fault ↦ ?_
  cases fault with
  | some f => exact R.raise f
  | none => exact R.pure _

omit h in
theorem unwatchStates (names : Notify.Watched) (hq : R.own.queues q) :
    R.Obeys p (unwatchStates names q) := by
  refine R.bind (R.modifyGet _ fun w ↦ .unwatchStates w names hq) fun fault ↦ ?_
  cases fault with
  | some f => exact R.raise f
  | none => exact R.pure _

omit h in
theorem eventTypeOf (v : Value) : R.Obeys p (eventTypeOf v) := R.bind (R.lift _) fun _ ↦ R.op _

omit h in
theorem watchEvents (type : Value) (hq : R.own.queues q) :
    R.Obeys p (watchEvents type q) :=
  R.bind (eventTypeOf type) fun type ↦ R.modify fun w ↦ .watchEvents w type hq

omit h in
theorem unwatchEvents (type : Value) (hq : R.own.queues q) : R.Obeys p (unwatchEvents type q) := by
  refine R.bind (eventTypeOf type) fun type ↦
    R.bind (R.modifyGet _ fun w ↦ .unwatchEvents w type hq) fun fault ↦ ?_
  cases fault with
  | some f => exact R.raise f
  | none => exact R.pure _

omit h in
theorem sizeOf (v : Value) : R.Obeys p (sizeOf v) := by
  refine R.bind (R.read _) fun s ↦ ?_
  split
  · exact R.pure _
  · exact R.raise _

omit h in
theorem timeLeft (wait : Interp.Wait) : R.Obeys p (Interp.timeLeft wait) := by
  unfold Interp.timeLeft
  split
  · exact R.pure _
  · refine R.bind (R.read _) fun now ↦ R.bind (R.op _) fun sum ↦ R.bind (R.op _) fun left ↦
      R.bind (R.op _) fun passed ↦ ?_
    split
    · exact R.pure _
    · split
      · exact R.bind (R.lift _) fun _ ↦ R.pure _
      · exact R.pure _

theorem holds {e : Option ContextId} (he : ∀ c ∈ e, R.own.contexts c) (values : Value) :
    R.Obeys p (I.holds e values) := by
  cases e with
  | none => exact R.pure _
  | some e => exact R.bind (h.run (he e rfl) values) fun _ ↦ R.bind (R.read _) fun _ ↦ R.pure _

omit h in
theorem partOf (full : Bool) (info : Value) (i : Int) : R.Obeys p (partOf full info i) :=
  R.ite (R.op _) (R.pure _)

theorem endsWait (hstate : ∀ c ∈ wait.stateExpr, R.own.contexts c)
    (hevent : ∀ c ∈ wait.eventExpr, R.own.contexts c) (message : Value) :
    R.Obeys p (I.endsWait wait message) := by
  refine R.bind (unpack message) fun m ↦ R.bind (R.read _) fun s ↦ R.ite ?_ (R.ite ?_ ?_)
  · exact R.bind (partOf _ _ _) fun values ↦ R.bind (h.holds hstate values) fun _ ↦
      R.ite (R.bind (partOf _ _ _) fun _ ↦ R.pure _) (R.pure _)
  · exact R.bind (h.holds hevent _) fun _ ↦ R.pure _
  · exact R.bind (R.context _) fun ctx ↦ R.bind (R.op _) fun shown ↦
      R.bind (R.say _ _ _) fun _ ↦ R.pure _

omit h in
theorem nextMoment (timeTrigger : Value) : R.Obeys p (Interp.nextMoment timeTrigger) := by
  unfold Interp.nextMoment
  split
  · exact R.pure _
  · exact secondsUntilNext _

theorem waitRounds (hstate : ∀ c ∈ wait.stateExpr, R.own.contexts c)
    (hevent : ∀ c ∈ wait.eventExpr, R.own.contexts c) (hq : R.own.queues wait.queue) (n : Nat) :
    R.Obeys p (I.waitRounds wait n) := by
  induction n with
  | zero => exact R.outOfFuel
  | succ n ih =>
    refine R.bind (nextMoment _) fun next ↦ R.bind (timeLeft wait) fun left ↦ ?_
    cases left with
    | none => exact R.bind (outcome _) fun _ ↦ R.pure _
    | some left =>
      refine R.ite (R.bind (outcome _) fun _ ↦ R.pure _) (R.bind (R.receiveFor hq _) fun m ↦ ?_)
      cases m with
      | none => exact R.bind (outcome _) fun _ ↦ R.pure _
      | some m =>
        refine R.bind (h.endsWait hstate hevent m) fun v ↦ ?_
        cases v with
        | none => exact ih
        | some v => exact R.pure _

theorem holdsNow {stateExpr : Option ContextId} (hstate : ∀ c ∈ stateExpr, R.own.contexts c) :
    R.Obeys p (I.holdsNow stateExpr) := by
  cases stateExpr with
  | none => exact R.pure _
  | some e => exact h.holds hstate .none

omit h in
theorem watchedNames (stateExpr : Option ContextId) : R.Obeys p (watchedNames stateExpr) := by
  cases stateExpr with
  | none => exact R.pure _
  | some e => exact R.mentioned e

omit h in
theorem watchNames (names : List (Option String)) (hq : R.own.queues q) :
    R.Obeys p (watchNames names q) :=
  R.ite (R.pure _) (watchStates _ hq)

omit h in
theorem eventList (trigger : Value) : R.Obeys p (Interp.eventList trigger) := by
  unfold Interp.eventList
  split
  · exact R.op _
  · exact R.pure _

omit h in
theorem forget (names : List (Option String)) (eventTrigger : Value) (hq : R.own.queues q) :
    R.Obeys p (forget names eventTrigger q) := by
  refine R.bind (R.each names fun name ↦ ?_) fun _ ↦ ?_
  · cases name with
    | some name => exact unwatchStates _ hq
    | none => exact R.raise _
  · split
    · exact R.pure _
    · exact R.bind (R.op _) fun type ↦ unwatchEvents type hq

omit h in
theorem waitOnly (timeout : Value) : R.Obeys p (Interp.waitOnly timeout) := by
  unfold Interp.waitOnly
  split
  · exact outcome _
  · refine R.bind (R.read _) fun s ↦ R.bind (R.lift _) fun _ ↦ ?_
    split
    · exact R.bind (R.lift _) fun _ ↦ R.bind (R.sleep _) fun _ ↦ outcome _
    · exact outcome _

/-! ### The host -/

omit h in
theorem claim (name : Value) (yields : Bool) : R.Obeys p (claim name yields) := by
  refine R.bind (R.lift _) fun _ ↦ R.bind R.world fun w ↦ ?_
  split
  · exact R.modify fun w ↦ .claims w _
  · exact R.bind (R.stopTask _) fun _ ↦ R.modify fun w ↦ .claims w _

omit h in
theorem callHost (hwait : R.Waits I) (f : HostFunction) (a : Arguments) :
    R.Obeys p (I.callHost f a) := by
  cases f with
  | service domain name => exact R.bind (R.callService _ _ _) fun _ ↦ R.pure _
  | waitUntil c => exact R.bind (R.lift _) fun _ ↦ hwait c _
  | sleep =>
    refine R.bind (R.lift _) fun _ ↦ R.bind (R.op _) fun seconds ↦ ?_
    split
    · exact R.bind (R.sleep _) fun _ ↦ R.pure _
    · exact R.pure _
  | unique =>
    exact R.bind (R.lift _) fun _ ↦ R.bind (R.read _) fun s ↦ R.bind (claim _ _) fun _ ↦ R.pure _
  | fire =>
    exact R.bind (R.lift _) fun _ ↦ R.bind (eventTypeOf _) fun type ↦
      R.bind (R.fire _) fun _ ↦ R.pure _
  | callService =>
    exact R.bind (R.lift _) fun _ ↦ R.bind (R.op _) fun domain ↦ R.bind (R.op _) fun name ↦
      R.bind (R.callService _ _ _) fun _ ↦ R.pure _
  | log level logger => exact R.manner.callPrompt (.log level logger) a
  | hasService => exact R.manner.callPrompt .hasService a
  | getState => exact R.manner.callPrompt .getState a
  | setState => exact R.manner.callPrompt .setState a
  | declare f scoping inForce => exact R.manner.callPrompt (.declare f scoping inForce) a
  | interfere => exact R.manner.callPrompt .interfere a

/-! ### Expressions -/

omit h in
theorem unsupported (node : String) : R.Obeys p (unsupported c node : Activity α) :=
  R.bind (R.context c) fun _ ↦ R.raise _

omit h in
theorem keyValue (key : Key) : R.Obeys p (keyValue c key) := by
  refine R.bind R.world fun w ↦ R.bind (R.context c) fun ctx ↦ ?_
  split
  · exact R.lift _
  · split
    · exact R.pure _
    · exact R.raise _

omit h in
theorem nameNode (name : String) (access : Access) : R.Obeys p (nameNode c name access) := by
  cases access with
  | load => exact keyValue c (some name)
  | store => exact R.pure _
  | delete => exact R.pure _

omit h in
theorem memberOf {α : Type} (v : Value) (attr : String) (read : Value → Op α) :
    R.Obeys p (memberOf v attr read) :=
  R.bind (R.read _) fun _ ↦ R.ite R.outOfFuel (R.op _)

theorem memberNode (e value : Expr) (attr : String) (access : Access) :
    R.Obeys ⟨c, b⟩ (I.memberNode c e value attr access) := by
  unfold Interp.memberNode
  split
  · refine R.bind (nameNode c _ access) fun v ↦ ?_
    split
    · exact R.bind (nameNode c _ access) fun _ ↦ memberOf _ _ _
    · exact R.pure _
  · refine R.bind (h.evaluateOpen c value) fun v ↦ ?_
    split
    · exact nameNode c _ access
    · exact R.bind (memberOf _ _ _) fun _ ↦ R.pure _

def walk : Walk where
  Holds _ _ x := R.Obeys ⟨c, b⟩ (x I c)
  Calls := True
  mono hx _ := hx
  read _ := R.read _
  raise f := R.raise f
  op x := R.op x
  calling _ := R.manner.calling _
  unsupported node := unsupported c node
  bind hx hf := R.bind hx hf
  guarded pos hx := R.guarded c pos .value hx
  node e := h.node c e

theorem sliceValue (lower upper step : Option Expr) :
    R.Obeys ⟨c, b⟩ (I.sliceValue c lower upper step) :=
  (h.walk c).sliceValue lower upper step

theorem binary (leftName : String) {left : Activity Value} (hleft : R.Obeys ⟨c, b⟩ left)
    (op : Operator) (right : Expr) : R.Obeys ⟨c, b⟩ (I.binary c leftName left op right) :=
  (h.walk c).binary leftName [] (fun _ _ ↦ left) hleft (fun _ ↦ trivial) right

theorem apply (hwait : R.Waits I) (func : Expr) (f : Value) (args : List Value) (named : Entries) :
    R.Obeys ⟨c, b⟩ (I.apply c func f args named) := by
  unfold Interp.apply
  split
  · exact h.callFunction c _ args named
  · exact R.bind (R.op _) fun a ↦ callHost hwait _ a
  · exact R.ite (R.manner.calling _) (R.bind (R.op _) fun _ ↦ R.raise _)

theorem expression (hwait : R.Waits I) (e : Expr) : R.Obeys ⟨c, b⟩ (I.expression c e) := by
  refine (h.walk c).expression (e := e) (fun _ ↦ trivial) fun hlooked ↦ ?_
  cases e with
  | name pos id access => exact nameNode c id access
  | member pos value attr access => exact h.memberNode c _ value attr access
  | call pos func args keywords =>
    exact (h.walk c).callNode trivial func args keywords fun f vs named ↦
      h.apply c hwait func f vs named
  | _ => cases hlooked

/-! ### Statements -/

omit h in
theorem importModule (wording : String) (name : Option String) :
    R.Obeys p (importModule wording name) := by
  cases name with
  | some n => exact R.ite (R.raise _) (R.ite (R.raise _) (R.pure _))
  | none => exact R.raise _

omit h in
theorem importNames (names : List Alias) : R.Obeys ⟨c, true⟩ (importNames c names) :=
  R.each names fun _ ↦ R.bind (importModule _ _) fun _ ↦ R.bindCurrent c _ _

omit h in
theorem importFrom (module : Option String) (names : List Alias) :
    R.Obeys ⟨c, true⟩ (importFrom c module names) :=
  R.bind (importModule _ module) fun _ ↦
    R.each names fun _ ↦ R.bind (memberOf _ _ _) fun _ ↦ R.bindCurrent c _ _

theorem otherwise (stmts : List Stmt) : R.Obeys ⟨c, true⟩ (I.otherwise c stmts) := by
  induction stmts with
  | nil => exact R.pure _
  | cons s rest ih =>
    refine R.bind (h.execute c s) fun flow ↦ ?_
    split
    · exact R.pure _
    · exact ih

theorem finishLoop (last : Flow) (orelse : List Stmt) :
    R.Obeys ⟨c, true⟩ (I.finishLoop c last orelse) := by
  unfold Interp.finishLoop
  split
  · exact R.pure _
  · exact R.pure _
  · exact h.otherwise c orelse

theorem forRounds (target : Key) (stmts : List Stmt) (r : Ref) (n : Nat) (last : Interp.LastRound) :
    R.Obeys ⟨c, true⟩ (I.forRounds c target stmts r n last) := by
  induction n generalizing last with
  | zero => exact R.outOfFuel
  | succ n ih =>
    refine R.bind (R.manner.calling _) fun v ↦ ?_
    cases v with
    | none => exact R.pure _
    | some v =>
      refine R.bind (R.bindCurrent c target v) fun _ ↦ R.bind (h.sequence c _ stmts) fun flow ↦ ?_
      split
      · exact R.pure _
      · exact R.pure _
      · exact ih _

theorem whileRounds (test : Expr) (stmts : List Stmt) (n : Nat) :
    R.Obeys ⟨c, true⟩ (I.whileRounds c test stmts n) := by
  induction n with
  | zero => exact R.outOfFuel
  | succ n ih =>
    refine R.bind (h.evaluate c test) fun v ↦ R.bind (R.read _) fun s ↦
      R.ite (R.bind (h.sequence c _ stmts) fun flow ↦ ?_) (R.pure _)
    split
    · exact R.pure _
    · exact R.pure _
    · exact ih

theorem forLoop (target iter : Expr) (stmts orelse : List Stmt) :
    R.Obeys ⟨c, true⟩ (I.forLoop c target iter stmts orelse) := by
  refine R.bind (h.evaluate c target) fun key ↦ R.bind (h.evaluate c iter) fun v ↦
    R.bind (R.op _) fun r ↦ R.bind (h.forRounds c _ stmts r _ _) fun last ↦ ?_
  cases last with
  | none => exact R.raise _
  | some last => exact h.finishLoop c last orelse

theorem assignItem (base index : Expr) (value : Value) :
    R.Obeys ⟨c, b⟩ (I.assignItem c base index value) := by
  refine R.bind (R.read _) fun shape ↦ R.bind (h.evaluate c base) fun v ↦ ?_
  split
  · exact R.bind (h.sliceValue c _ _ _) fun _ ↦ R.manner.calling _
  · exact R.ite (R.bind (h.evaluate c _) fun _ ↦ R.manner.calling _) (R.pure _)

omit h in
theorem bindName (name : String) (value : Value) :
    R.Obeys ⟨c, true⟩ (bindName c name value) :=
  R.amend _ fun w _ hw ↦ by
    obtain ⟨t, ht, rfl⟩ := World.assign_cases hw
    exact .assign rfl w ht value

theorem assignTarget (value : Value) (target : Expr) :
    R.Obeys ⟨c, true⟩ (I.assignTarget c value target) := by
  unfold Interp.assignTarget
  split
  · exact h.assignItem c _ _ value
  · refine R.bind (h.evaluate c _) fun v ↦ ?_
    split
    · exact R.ite (R.manner.setVariable _ _ _) (bindName c _ value)
    · exact R.bind (R.read _) fun _ ↦ R.raise _

omit h in
theorem rebind (name value : Value) : R.Obeys ⟨c, true⟩ (rebind c name value) := by
  refine R.bind R.world fun w ↦ R.bind (R.context c) fun ctx ↦ ?_
  split
  · exact R.ite (R.manner.setVariable _ _ _) (bindName c _ value)
  · exact R.raise _

omit h in
theorem targetNode (name : Value) : R.Obeys p (Interp.targetNode c name) := by
  unfold Interp.targetNode
  split
  · exact R.bind (keyValue c _) fun v ↦ R.defined v
  · exact R.bind (keyValue c _) fun v ↦ R.defined v
  · exact R.bind (R.read _) fun _ ↦ R.raise _

omit h in
theorem targetValue (name : Value) : R.Obeys ⟨c, b⟩ (targetValue c name) :=
  R.guarded c _ .value (targetNode c name)

theorem augAssign (target : Expr) (operator : Operator) (value : Expr) :
    R.Obeys ⟨c, true⟩ (I.augAssign c target operator value) :=
  R.bind (h.evaluate c target) fun name ↦
    R.bind (R.guarded c _ .value (R.bind (h.binary c _ (targetValue c name) operator value) fun v ↦
      R.defined v)) fun v ↦ rebind c name v

omit h in
theorem deleteEach (v : Value) (r : Ref) (n : Nat) : R.Obeys p (deleteEach v r n) := by
  induction n with
  | zero => exact R.outOfFuel
  | succ n ih =>
    refine R.bind (R.op _) fun i ↦ ?_
    cases i with
    | none => exact R.pure _
    | some i => exact R.bind (R.manner.calling _) fun _ ↦ ih

theorem deleteItem (base index : Expr) : R.Obeys ⟨c, b⟩ (I.deleteItem c base index) := by
  refine R.bind (R.read _) fun shape ↦ R.bind (h.evaluate c base) fun v ↦ ?_
  split
  · exact R.bind (h.sliceValue c _ _ _) fun _ ↦ R.manner.calling _
  · refine R.ite (R.bind (h.evaluate c _) fun i ↦ ?_) (R.bind (R.context c) fun _ ↦ R.raise _)
    split
    · exact R.bind (R.op _) fun _ ↦ deleteEach v _ _
    · exact R.manner.calling _

omit h in
theorem unbindName (name : String) : R.Obeys ⟨c, true⟩ (unbindName c name) :=
  R.amend _ fun w _ hw ↦ by
    obtain rfl | ⟨t, ht, rfl⟩ := World.unbind_cases hw
    · exact .refl _
    · exact .unbind rfl w ht

theorem deleteTarget (target : Expr) : R.Obeys ⟨c, true⟩ (I.deleteTarget c target) := by
  unfold Interp.deleteTarget
  split
  · exact h.deleteItem c _ _
  · exact unbindName c _
  · exact R.bind (R.read _) fun _ ↦ R.raise _

theorem decorators (name : String) (es : List Expr) : R.Obeys ⟨c, b⟩ (I.decorators c name es) := by
  fun_induction Interp.decorators I c name es with
  | case1 => exact R.pure _
  | case2 _ _ id _ args _ rest ih =>
    exact R.bind (R.collect (h.evaluate c) args) fun _ ↦ R.bind ih fun _ ↦ R.pure _
  | case3 _ id _ rest ih => exact R.bind ih fun _ ↦ R.pure _
  | case4 e rest _ _ ih => exact R.bind (R.read _) fun _ ↦ R.bind (R.say _ _ _) fun _ ↦ ih

theorem defaultValue (e : Option Expr) : R.Obeys ⟨c, b⟩ (I.defaultValue c e) := by
  cases e with
  | none => exact R.pure _
  | some e => exact R.bind (h.evaluate c e) fun _ ↦ R.pure _

theorem defineFunction (name : String) (params : Syntax.Parameters) (stmts : List Stmt)
    (decs : List Expr) : R.Obeys ⟨c, true⟩ (I.defineFunction c name params stmts decs) := by
  cases params
  exact R.bind (R.collect (h.evaluate c) _) fun _ ↦ R.bind (R.collect (h.defaultValue c) _) fun _ ↦
    R.bind (h.decorators c name decs) fun _ ↦
    R.bind (R.modifyGet _ fun w ↦ .define w _) fun _ ↦ R.bindCurrent c _ _

omit h in
theorem declare (scoping : Scoping) (names : List String) :
    R.Obeys p (declare c scoping names) := by
  refine R.bind (R.context c) fun ctx ↦ ?_
  split
  · exact R.pure _
  · exact R.each names fun _ ↦ R.modify fun w ↦ .declare w ..

theorem statementNode (s : Stmt) : R.Obeys ⟨c, true⟩ (I.statementNode c s) := by
  unfold Interp.statementNode
  split
  · exact R.bind (h.defineFunction c _ _ _ _) fun _ ↦ R.pure _
  · split
    · exact R.bind (h.evaluate c _) fun _ ↦ R.pure _
    · exact R.bind (R.guarded c _ .unit (unsupported c _)) fun _ ↦ R.pure _
  · exact R.bind (R.each _ (h.deleteTarget c)) fun _ ↦ R.pure _
  · exact R.bind (h.evaluate c _) fun v ↦ R.bind (R.each _ (h.assignTarget c v)) fun _ ↦ R.pure _
  · exact R.bind (h.augAssign c _ _ _) fun _ ↦ R.pure _
  · exact h.forLoop c _ _ _ _
  · exact R.bind (h.whileRounds c _ _ _) fun last ↦ h.finishLoop c last _
  · exact R.bind (h.evaluate c _) fun _ ↦ R.bind (R.read _) fun _ ↦ h.sequence c _ _
  · exact R.bind (importNames c _) fun _ ↦ R.pure _
  · exact R.bind (importFrom c _ _) fun _ ↦ R.pure _
  · exact R.bind (declare c _ _) fun _ ↦ R.pure _
  · exact R.bind (declare c _ _) fun _ ↦ R.pure _
  · exact R.bind (h.evaluate c _) fun _ ↦ R.pure _
  · exact R.pure _
  · exact R.pure _
  · exact R.pure _
  · exact unsupported c _

end Obeyed

end Regime

/-! ### Waiting until something happens -/

namespace RegimeFamily

open Activity
open Regime (Obeyed)

variable {H : RegimeFamily} {E : Owned} {p : Site} {α β : Type} {Q : Owned → α → Prop}
  {R : Owned → β → Prop}

def Leads (H : RegimeFamily) (E : Owned) (p : Site) (Q : Owned → α → Prop) (x : Activity α) :
    Prop :=
  ∀ (β : Type) (k : α → Activity β),
    (∀ E' a, E ≤ E' → Q E' a → (H.regime E').Obeys p (k a)) → (H.regime E).Obeys p (x >>= k)

theorem Leads.pure {a : α} (ha : Q E a) : H.Leads E p Q (Pure.pure a) :=
  fun _ _ hk ↦ hk E a E.le_refl ha

variable {x : Activity α} {q : Notify.QueueId} {f : α → Activity β}

theorem Leads.bind (hx : H.Leads E p Q x) (hf : ∀ E' a, E ≤ E' → Q E' a → H.Leads E' p R (f a)) :
    H.Leads E p R (x >>= f) := by
  intro γ k hk
  rw [Activity.bind_assoc]
  exact hx γ _ fun E' a hE ha ↦ hf E' a hE ha γ k fun E'' b hE' ↦ hk E'' b (Owned.le_trans hE hE')

theorem Leads.ite {P : Prop} [Decidable P] {y : Activity α} (hx : H.Leads E p Q x)
    (hy : H.Leads E p Q y) : H.Leads E p Q (if P then x else y) := by
  split
  · exact hx
  · exact hy

theorem Leads.after (hx : (H.regime E).Obeys p x) (hf : ∀ a, H.Leads E p R (f a)) :
    H.Leads E p R (x >>= f) := by
  intro γ k hk
  rw [Activity.bind_assoc]
  exact (H.regime E).bind hx fun a ↦ hf a γ k hk

theorem owns_contexts (H : RegimeFamily) {c : ContextId} (hc : E.contexts c) :
    (H.regime E).own.contexts c :=
  (H.owns E).1 c hc

theorem owns_queues (H : RegimeFamily) (hq : E.queues q) : (H.regime E).own.queues q :=
  (H.owns E).2 q hq

theorem furnishedBeside (c : ContextId) (name : String) :
    H.Leads E p (fun E e ↦ E.contexts e) (furnished (newContextBeside c name)) := by
  have hnew : H.Leads E p (fun E e ↦ E.contexts e) (newContextBeside c name) :=
    fun _ _ hk ↦ H.fresh c name fun e ↦ hk _ e (E.le_withContext e) (.inr rfl)
  exact hnew.bind fun E' e _ he ↦
    .after ((H.regime E').installFunctions (H.owns_contexts he)) fun _ ↦ .pure he

theorem contextBeside (c : ContextId) (name : String) (source : Value) :
    H.Leads E p (fun E e ↦ ∀ c ∈ e, E.contexts c)
      (do return some (← expressionContext (newContextBeside c name) source)) := by
  have hcontext : H.Leads E p (fun E e ↦ E.contexts e)
      (expressionContext (newContextBeside c name) source) :=
    (furnishedBeside c name).bind fun E' e _ he ↦ .after ((H.regime E').sourceOf source) fun given ↦
      .after ((H.regime E').readScript (H.owns_contexts he) given _) fun _ ↦ .pure he
  refine hcontext.bind fun E' e _ he ↦ .pure ?_
  rintro _ ⟨⟩
  exact he

theorem stateContext (c : ContextId) (source : Value) :
    H.Leads E p (fun E e ↦ ∀ c ∈ e, E.contexts c) (Interp.stateContext c source) := by
  unfold Interp.stateContext
  split
  · exact .pure fun _ he ↦ by cases he
  · exact .after ((H.regime E).context c) fun _ ↦ contextBeside c _ _

theorem eventContext (c : ContextId) (trigger : Value) (hq : E.queues q) :
    H.Leads E p (fun E e ↦ ∀ c ∈ e, E.contexts c) (Interp.eventContext c trigger q) := by
  unfold Interp.eventContext
  split
  · exact .pure fun _ he ↦ by cases he
  · refine .after ((H.regime E).op _) fun type ↦
      .after (Obeyed.watchEvents type (H.owns_queues hq)) fun _ ↦
      .after (Obeyed.sizeOf _) fun size ↦ .ite ?_ (.pure fun _ he ↦ by cases he)
    exact .after ((H.regime E).op _) fun source ↦ .after ((H.regime E).context c) fun _ ↦
      contextBeside c _ _

theorem waitUntil {I : Interp} (h : ∀ E, (H.regime E).Obeyed I) (c : ContextId) (given : Waiting) :
    (H.regime E).Obeys p (I.waitUntil c given) := by
  refine (H.regime E).ite (Obeyed.waitOnly _) (H.freshQueue _ fun q ↦ ?_)
  refine stateContext c _ _ _ fun E₁ stateExpr hE₁ hstate ↦ ?_
  have hq₁ : E₁.queues q := hE₁.2 q (.inr rfl)
  have hstate₁ := fun c hc ↦ H.owns_contexts (hstate c hc)
  refine (H.regime E₁).bind ((h E₁).holdsNow hstate₁) fun _ ↦
    (H.regime E₁).ite (Obeyed.outcome _) ?_
  refine (H.regime E₁).bind (Obeyed.watchedNames _) fun names ↦
    (H.regime E₁).bind (Obeyed.watchNames _ (H.owns_queues hq₁)) fun _ ↦
    (H.regime E₁).bind (Obeyed.eventList _) fun eventTrigger ↦
    eventContext c _ hq₁ _ _ fun E₂ eventExpr hE₂ hevent ↦ ?_
  have hq₂ : (H.regime E₂).own.queues q := H.owns_queues (hE₂.2 q hq₁)
  have hstate₂ := fun c hc ↦ H.owns_contexts (hE₂.1 c (hstate c hc))
  have hevent₂ := fun c hc ↦ H.owns_contexts (hevent c hc)
  refine (H.regime E₂).bind ((H.regime E₂).read _) fun began ↦
    (H.regime E₂).bind ((h E₂).waitRounds hstate₂ hevent₂ hq₂ _) fun ending ↦ ?_
  cases ending with
  | abrupt v => exact (H.regime E₂).pure v
  | clean v => exact (H.regime E₂).bind (Obeyed.forget _ _ hq₂) fun _ ↦ (H.regime E₂).pure v

theorem obeyed_upTo (H : RegimeFamily) (n : Nat) (E : Owned) :
    (H.regime E).Obeyed (Interp.upTo n) := by
  induction n generalizing E with
  | zero =>
    exact ⟨fun _ _ ↦ Regime.outOfFuel _, fun _ _ ↦ Regime.outOfFuel _, fun _ _ _ ↦
      Regime.outOfFuel _⟩
  | succ n ih =>
    exact ⟨fun c e ↦ (ih E).expression c (waitUntil ih) e, fun c s ↦ (ih E).statementNode c s,
      fun c pos e ↦
      (H.regime E).bind ((ih E).evaluate c e) fun _ ↦ (H.regime E).pure _⟩

end RegimeFamily

namespace Discipline

def family (D : Discipline) : RegimeFamily where
  regime E :=
    { own := E
      Obeys p _ x := E ≤ D.own → D.Obeys p x
      prompt hx hE := D.prompt (hx.mono hE)
      pausing hx hE := D.pausing (hx.mono hE.2)
      bind hx hf hE := D.bind (hx hE) fun a ↦ hf a hE
      guarded c pos _ _ hvacant hx hE := D.guarded c pos hvacant (hx hE)
      callBody I c r t stmts hbody hE := D.callBody I c r t stmts (hbody hE)
      runTree I c hc hscript hE := D.runTree I c (hE.1 c hc) fun stmts ↦ hscript stmts hE }
  owns := Owned.le_refl
  fresh c name _ hf hE := D.fresh c name fun e he ↦ hf e (Owned.withContext_le hE he)
  freshQueue name _ hf hE := by
    refine D.bind (D.modifyGet _ fun w ↦ .addQueue w name) fun q ↦ hf q ?_
    exact Owned.withQueue_le hE (D.queues q)

theorem obeyed_upTo (D : Discipline) (n : Nat) : D.Obeyed (Interp.upTo n) := by
  have h := D.family.obeyed_upTo n D.own
  exact ⟨fun c e ↦ h.node c e D.own.le_refl, fun c s ↦ h.statement c s D.own.le_refl,
    fun c pos e ↦ h.expr c pos e D.own.le_refl⟩

end Discipline

end TriggerScript
