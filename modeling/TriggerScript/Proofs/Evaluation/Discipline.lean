import TriggerScript.Proofs.Evaluation.Manner

/-!
# Disciplines of evaluation

Evaluation is written layer by layer over a small vocabulary. A **regime** is a property of
activities that the vocabulary has and that sequencing keeps. A **discipline** holds of all of
evaluation (`Discipline.obeyed_upTo`), so a new invariant needs a proof for the vocabulary and no
walk through the tree.

* Whatever ends at once is one word (`Regime.prompt`), and what it does to the world is an `Act`.
* The table of a call is opened and closed by one word (`Regime.callBody`).
* Catching is allowed around a computation on the store, around one request, and where errors are
  recorded (`Regime.guarded`).
-/

namespace TriggerScript

open Syntax (Position Stmt)
open Notify (QueueId)

variable {α β γ : Type}

protected theorem Step.bind_assoc (s : Step α) (k : α → World → Step β) (l : β → World → Step γ) :
    (s.bind k).bind l = s.bind fun a w ↦ (k a w).bind l := by
  induction s with
  | ended r w => cases r <;> rfl
  | waiting request w resume ih =>
    show waiting request w _ = waiting request w _
    congr 1
    funext reply w₁
    exact ih reply w₁

protected theorem Activity.bind_assoc (x : Activity α) (f : α → Activity β) (g : β → Activity γ) :
    (x >>= f) >>= g = x >>= fun a ↦ f a >>= g :=
  funext fun w ↦ Step.bind_assoc (x w) f g

/-- Where an activity stands. Names are bound at the site of statements only, in its context. -/
structure Site where
  context : ContextId
  binds : Bool
  deriving Inhabited

def Syntax.Stmt.isExpression : Stmt → Bool
  | .expr _ _ => true
  | _ => false

def Site.script (c : ContextId) (stmts : List Stmt) : Site := ⟨c, !stmts.all (·.isExpression)⟩

/-- What may stand in for a result after an error. -/
inductive Vacant : {α : Type} → α → Prop
  | value : Vacant Value.none
  | flow : Vacant (Flow.value .none)
  | unit : Vacant ()

namespace World

variable {w w' : World} {ctx : Context} {name : String}

def Binds (w : World) (ctx : Context) (name : String) (t : TableId) : Prop :=
  (w.isGlobal ctx name ∧ t = ctx.globals) ∨ t = ctx.current ∨
    (w.isNonlocal ctx name ∧ t ∈ ctx.suspended)

theorem binds_of_suspendedWith? {t : TableId} (hname : w.isNonlocal ctx name)
    (h : w.suspendedWith? ctx (some name) = some t) : w.Binds ctx name t :=
  .inr (.inr ⟨hname, List.mem_of_find?_eq_some h⟩)

theorem assign_cases {v : Value} (h : w.assign ctx name v = .ok w') :
    ∃ t, w.Binds ctx name t ∧ w' = w.updateTable t (·.put (some name) v) := by
  unfold assign bindingTable at h
  split at h
  · exact ⟨_, .inl ⟨‹_›, rfl⟩, (Except.ok.inj h).symm⟩
  · split at h
    · split at h
      · exact ⟨_, binds_of_suspendedWith? ‹_› ‹_›, (Except.ok.inj h).symm⟩
      · cases h
    · exact ⟨_, .inr (.inl rfl), (Except.ok.inj h).symm⟩

theorem unbind_cases (h : w.unbind ctx name = .ok w') :
    w' = w ∨ ∃ t, w.Binds ctx name t ∧ w' = w.updateTable t (·.erase (some name)) := by
  unfold unbind at h
  split at h
  · exact .inr ⟨_, .inl ⟨‹_›, rfl⟩, (Except.ok.inj h).symm⟩
  · grind [binds_of_suspendedWith?, Binds, bind]

end World

/-- The contexts and queues that belong to an activity. -/
@[ext]
structure Owned where
  contexts : ContextId → Prop
  queues : QueueId → Prop

namespace Owned

def whole : Owned := ⟨fun _ ↦ True, fun _ ↦ True⟩

instance : LE Owned where
  le E E' := (∀ c, E.contexts c → E'.contexts c) ∧ ∀ q, E.queues q → E'.queues q

protected theorem le_refl (E : Owned) : E ≤ E := ⟨fun _ h ↦ h, fun _ h ↦ h⟩

protected theorem le_trans {E₁ E₂ E₃ : Owned} (h : E₁ ≤ E₂) (h' : E₂ ≤ E₃) : E₁ ≤ E₃ :=
  ⟨fun c hc ↦ h'.1 c (h.1 c hc), fun q hq ↦ h'.2 q (h.2 q hq)⟩

def withContext (E : Owned) (e : ContextId) : Owned :=
  { E with contexts := fun c ↦ E.contexts c ∨ c = e }

def withQueue (E : Owned) (r : QueueId) : Owned := { E with queues := fun q ↦ E.queues q ∨ q = r }

theorem le_withContext (E : Owned) (e : ContextId) : E ≤ E.withContext e :=
  ⟨fun _ ↦ .inl, fun _ h ↦ h⟩

variable {E E' : Owned}

theorem withContext_le (h : E ≤ E') {e : ContextId} (he : E'.contexts e) :
    E.withContext e ≤ E' := by
  refine ⟨?_, h.2⟩
  rintro c (hc | rfl)
  · exact h.1 c hc
  · exact he

theorem withQueue_le (h : E ≤ E') {r : QueueId} (hr : E'.queues r) : E.withQueue r ≤ E' := by
  refine ⟨h.1, ?_⟩
  rintro q (hq | rfl)
  · exact h.2 q hq
  · exact hr

end Owned

def Job.Announced : Job → Prop
  | .deliver _ _ | .serve _ _ => True
  | _ => False

theorem Job.Announced.ne_watch {job : Job} (h : job.Announced) (t : TriggerId) :
    job ≠ .watch t := by
  rintro rfl
  exact h

def Request.Within (Q : QueueId → Prop) : Request → Prop
  | .receive q _ => Q q
  | _ => True

theorem Request.Within.mono {Q Q' : QueueId → Prop} {r : Request} (h : r.Within Q)
    (hQ : ∀ q, Q q → Q' q) : r.Within Q' := by
  cases r with
  | receive q deadline => exact hQ q h
  | _ => trivial

/-- What may be done to a world at once, at the site `p`, by one who owns `E`. -/
inductive Act (E : Owned) (p : Site) : World → World → Prop
  | refl (w : World) : Act E p w w
  | trans {w₁ w₂ w₃ : World} : Act E p w₁ w₂ → Act E p w₂ w₃ → Act E p w₁ w₃
  -- objects and functions
  | store (w : World) (s : Store) :
    Act E p w { w with store := { s with functions := w.store.functions } }
  | define (w : World) (f : Function) : Act E p w (w.addFunction f).2
  | declare (w : World) (r : Ref) (name : String) (inForce : Bool) (scoping : Scoping) :
    Act E p w (w.updateFunction r (·.declare name inForce scoping))
  -- tables and contexts
  | bind (hp : p.binds) (w : World) (key : Key) (v : Value) :
    Act E p w (w.bindCurrent p.context key v)
  | assign (hp : p.binds) (w : World) {name : String} {t : TableId}
    (ht : w.Binds (w.context p.context) name t) (v : Value) :
    Act E p w (w.updateTable t (·.put (some name) v))
  | unbind (hp : p.binds) (w : World) {name : String} {t : TableId}
    (ht : w.Binds (w.context p.context) name t) :
    Act E p w (w.updateTable t (·.erase (some name)))
  | give (w : World) {c : ContextId} (hc : E.contexts c) (entries : List (Key × Value)) :
    Act E p w (w.give c entries)
  | context (w : World) (c : ContextId) (name : String) :
    Act E p w (w.addContext name (w.context c).globals).2
  | install (w : World) {c : ContextId} (hc : E.contexts c) (t : Table) :
    Act E p w ((w.addTable t).2.updateContext c fun ctx ↦ { ctx with locals := w.tables.size })
  | remember (w : World) {c : ContextId} (hc : E.contexts c) (f : Context → Context)
    (hf : ∀ ctx, ∃ file tree error errorLong, f ctx = { ctx with file, tree, error, errorLong }) :
    Act E p w (w.updateContext c f)
  -- the log
  | say (w : World) (logger : String) (level : Level) (text : String) :
    Act E p w (w.say logger level text)
  | loggers (w : World) (names : List String) : Act E p w { w with loggers := names }
  -- the host
  | note (w : World) (f : Notes → Notes) :
    Act E p w { w with host := { w.host with notes := f w.host.notes } }
  | putState (w : World) (entity : String) (state : EntityState) :
    Act E p w { w with host := w.host.putState entity state }
  -- queues and what they are registered for
  | addQueue (w : World) (name : String) : Act E p w (w.addQueue name).2
  | take (w : World) {q : QueueId} (hq : E.queues q) (rest : List Value) :
    Act E p w { w with queues := w.queues.modify q ({ · with messages := rest }) }
  | watchStates (w : World) (names : Notify.Watched) {q : QueueId} (hq : E.queues q) :
    Act E p w { w with stateTable := (w.stateTable.add names q).1 }
  | unwatchStates (w : World) (names : Notify.Watched) {q : QueueId} (hq : E.queues q) :
    Act E p w { w with stateTable := (w.stateTable.remove names q).1 }
  | watchEvents (w : World) (type : String) {q : QueueId} (hq : E.queues q) :
    Act E p w { w with
      eventTable := (w.eventTable.add w.host type q).1
      host := (w.eventTable.add w.host type q).2 }
  | unwatchEvents (w : World) (type : String) {q : QueueId} (hq : E.queues q) :
    Act E p w { w with
      eventTable := (w.eventTable.remove w.host type q).1.1
      host := (w.eventTable.remove w.host type q).1.2 }
  -- tasks
  | start (w : World) (oversight : Oversight) (job : Job) (hjob : job.Announced) :
    Act E p w (w.startTask oversight job).2
  | cancel (w : World) (t : TaskId) : Act E p w (w.cancel t)
  | attend (w : World) (f : Task → Task)
    (hf : ∀ task, ∃ joining stopping, f task = { task with joining, stopping }) :
    Act E p w (w.updateTask w.running f)
  | claims (w : World) (cs : List (Value × TaskId)) : Act E p w { w with claims := cs }

namespace Act

variable {E E' : Owned} {p : Site} {w w' : World}

theorem mono (h : Act E p w w') (hE : E ≤ E') : Act E' p w w' := by
  induction h with
  | refl w => exact .refl w
  | trans _ _ ih₁ ih₂ => exact ih₁.trans ih₂
  | store => exact .store ..
  | define => exact .define ..
  | declare => exact .declare ..
  | bind hp => exact .bind hp ..
  | assign hp _ ht => exact .assign hp _ ht _
  | unbind hp _ ht => exact .unbind hp _ ht
  | give _ hc => exact .give _ (hE.1 _ hc) _
  | context => exact .context ..
  | install _ hc => exact .install _ (hE.1 _ hc) _
  | remember _ hc _ hf => exact .remember _ (hE.1 _ hc) _ hf
  | say => exact .say ..
  | loggers => exact .loggers ..
  | note => exact .note ..
  | putState => exact .putState ..
  | addQueue => exact .addQueue ..
  | take _ hq => exact .take _ (hE.2 _ hq) _
  | watchStates _ _ hq => exact .watchStates _ _ (hE.2 _ hq)
  | unwatchStates _ _ hq => exact .unwatchStates _ _ (hE.2 _ hq)
  | watchEvents _ _ hq => exact .watchEvents _ _ (hE.2 _ hq)
  | unwatchEvents _ _ hq => exact .unwatchEvents _ _ (hE.2 _ hq)
  | start _ _ _ hjob => exact .start _ _ _ hjob
  | cancel => exact .cancel ..
  | attend _ _ hf => exact .attend _ _ hf
  | claims => exact .claims ..

end Act

namespace Activity

variable {α : Type} {E E' : Owned} {Q : QueueId → Prop} {p : Site}

def Proper (E : Owned) (p : Site) (x : Activity α) : Prop :=
  ∀ w, ∃ r w', x w = .ended r w' ∧ Act E p w w'

def Pauses (Q : QueueId → Prop) (x : Activity α) : Prop :=
  ∀ w, ∃ request resume, x w = .waiting request w resume ∧ request.Within Q ∧
    ∀ reply w₁, ∃ r, resume reply w₁ = .ended r w₁

variable {x : Activity α} {r : Request}

theorem Proper.mono (hx : Proper E p x) (hE : E ≤ E') : Proper E' p x := by
  intro w
  obtain ⟨r, w', hend, hact⟩ := hx w
  exact ⟨r, w', hend, hact.mono hE⟩

theorem Pauses.mono {Q' : QueueId → Prop} (hx : Pauses Q x) (hQ : ∀ q, Q q → Q' q) :
    Pauses Q' x := by
  intro w
  obtain ⟨request, resume, hwait, hwithin, hresume⟩ := hx w
  exact ⟨request, resume, hwait, hwithin.mono hQ, hresume⟩

theorem read_bind_apply {β : Type} (f : World → α) (k : α → Activity β) (w : World) :
    (read f >>= k) w = k (f w) w := rfl

theorem proper_read (f : World → α) : Proper E p (read f) := fun w ↦ ⟨_, w, rfl, .refl w⟩

theorem proper_modifyGet {f : World → α × World} (hf : ∀ w, Act E p w (f w).2) :
    Proper E p (modifyGet f) :=
  fun w ↦ ⟨_, _, rfl, hf w⟩

theorem proper_amend {f : World → Except Fault World} (hf : ∀ w w', f w = .ok w' → Act E p w w') :
    Proper E p (amend f) := by
  intro w
  unfold amend
  split
  · exact ⟨_, _, rfl, hf _ _ ‹_›⟩
  · exact ⟨_, w, rfl, .refl w⟩

theorem run_get_bind (k : Store → Op α) (s : Store) :
    ((get : Op Store) >>= k).run.run s = (k s).run.run s := rfl

theorem op_apply (x : Op α) (w : World) :
    ∃ (r : Except Stop α) (s : Store),
      op x w = .ended r { w with store := { s with functions := w.store.functions } } := by
  unfold op
  dsimp only
  split <;> exact ⟨_, _, rfl⟩

theorem proper_op (x : Op α) : Proper E p (op x) := by
  intro w
  obtain ⟨r, s, hend⟩ := op_apply x w
  exact ⟨r, _, hend, .store w s⟩

theorem proper_newContextBeside (c : ContextId) (name : String) :
    Proper E p (newContextBeside c name) :=
  fun w ↦ ⟨_, _, rfl, .context w c name⟩

theorem Proper.attempt (hx : Proper E p x) : Proper E p x.attempt := by
  intro w
  obtain ⟨r, w', hend, hact⟩ := hx w
  unfold Activity.attempt
  rw [hend]
  rcases r with (f | _ | _) | a <;> exact ⟨_, w', rfl, hact⟩

theorem pauses_ask (hr : r.Within Q) : Pauses Q (ask r) := by
  refine fun w ↦ ⟨r, _, rfl, hr, fun reply w₁ ↦ ?_⟩
  cases reply <;> exact ⟨_, rfl⟩

theorem pauses_settle_ask (hr : r.Within Q) : Pauses Q (settle (do let _ ← ask r)) := by
  refine fun w ↦ ⟨r, _, rfl, hr, fun reply w₁ ↦ ?_⟩
  cases reply <;> exact ⟨_, rfl⟩

end Activity

namespace Interp

def treeValue (I : Interp) (c : ContextId) (tree : Syntax.Module) : Activity Value := do
  match ← Activity.guarded c none (.value .none) (I.sequence c (.value .none) tree.body) with
  | .value v => return v
  | _ => return .none

variable {c : ContextId} {w : World}

theorem runTree_of_none (I : Interp) (htree : (w.context c).tree = none) :
    I.runTree c w = .ended (.ok .none) w := by
  unfold runTree
  rw [show Activity.context c = Activity.read (·.context c) from rfl, Activity.read_bind_apply,
    htree]
  rfl

theorem runTree_of_tree (I : Interp) {tree : Syntax.Module}
    (htree : (w.context c).tree = some tree) : I.runTree c w = I.treeValue c tree w := by
  unfold runTree
  rw [show Activity.context c = Activity.read (·.context c) from rfl, Activity.read_bind_apply,
    htree]
  rfl

section

variable {P : {α : Type} → Activity α → Prop}
  (hread : ∀ {α : Type} (f : World → α), P (Activity.read f))
  (hbind : ∀ {α β : Type} {x : Activity α} {f : α → Activity β}, P x → (∀ a, P (f a)) → P (x >>= f))
  {c : ContextId} (hguarded : ∀ {α : Type} (pos : Option Position) {fallback : α} {x : Activity α},
    Vacant fallback → P x → P (Activity.guarded c pos fallback x))
  {I : Interp}

include hread hbind hguarded

theorem treeValue_of_sequence {tree : Syntax.Module}
    (h : P (I.sequence c (.value .none) tree.body)) : P (I.treeValue c tree) := by
  refine hbind (hguarded _ .flow h) fun flow ↦ ?_
  cases flow with
  | value v => exact hread fun _ ↦ v
  | _ => exact hread fun _ ↦ Value.none

theorem runTree_of_sequence (h : ∀ stmts, P (I.sequence c (.value .none) stmts)) :
    P (I.runTree c) := by
  refine hbind (hread _) fun ctx ↦ ?_
  cases ctx.tree with
  | none => exact hread fun _ ↦ Value.none
  | some tree => exact treeValue_of_sequence hread hbind hguarded (h tree.body)

end

end Interp

/-- A property of activities that the vocabulary has and that sequencing keeps. -/
structure Regime where
  own : Owned
  Obeys : Site → {α : Type} → Activity α → Prop
  prompt : ∀ {p : Site} {α : Type} {x : Activity α}, x.Proper own p → Obeys p x
  pausing : ∀ {p : Site} {α : Type} {x : Activity α}, x.Pauses own.queues → Obeys p x
  bind : ∀ {p : Site} {α β : Type} {x : Activity α} {f : α → Activity β},
    Obeys p x → (∀ a, Obeys p (f a)) → Obeys p (x >>= f)
  guarded : ∀ {b : Bool} {α : Type} (c : ContextId) (pos : Option Position) {fallback : α}
    {x : Activity α}, Vacant fallback → Obeys ⟨c, b⟩ x →
      Obeys ⟨c, b⟩ (Activity.guarded c pos fallback x)
  callBody : ∀ {b : Bool} (I : Interp) (c : ContextId) (r : Ref) (t : Table) (stmts : List Stmt),
    Obeys ⟨c, true⟩ (I.body c stmts) → Obeys ⟨c, b⟩ (I.callBody c r t stmts)
  runTree : ∀ {p : Site} (I : Interp) (c : ContextId), own.contexts c →
    (∀ stmts, Obeys (.script c stmts) (I.sequence c (.value .none) stmts)) → Obeys p (I.runTree c)

/-- A regime for which it does not matter when a context was made. -/
structure Discipline extends Regime where
  queues : ∀ q, own.queues q
  fresh : ∀ {p : Site} {β : Type} (c : ContextId) (name : String) {f : ContextId → Activity β},
    (∀ e, own.contexts e → Obeys p (f e)) → Obeys p (Activity.newContextBeside c name >>= f)

/-- A regime for each stage: what belongs to an activity grows with what it makes. -/
structure RegimeFamily where
  regime : Owned → Regime
  owns : ∀ E, E ≤ (regime E).own
  fresh : ∀ {E : Owned} {p : Site} {β : Type} (c : ContextId) (name : String)
    {f : ContextId → Activity β}, (∀ e, (regime (E.withContext e)).Obeys p (f e)) →
    (regime E).Obeys p (Activity.newContextBeside c name >>= f)
  freshQueue : ∀ {E : Owned} {p : Site} {β : Type} (name : String)
    {f : QueueId → Activity β}, (∀ q, (regime (E.withQueue q)).Obeys p (f q)) →
    (regime E).Obeys p (Activity.modifyGet (·.addQueue name) >>= f)

namespace Regime

open Activity

variable (R : Regime) {p : Site}

/-! ### The rest of the vocabulary -/

variable {α : Type} {new : Activity ContextId} {c : ContextId} {r : Request}

theorem read (f : World → α) : R.Obeys p (Activity.read f) := R.prompt (proper_read f)

theorem result (a : α) : R.Obeys p (Activity.result a) := R.read fun _ ↦ a

theorem raise (f : Fault) : R.Obeys p (Activity.raise f : Activity α) :=
  R.prompt fun w ↦ ⟨_, w, rfl, .refl w⟩

theorem outOfFuel : R.Obeys p (Activity.outOfFuel : Activity α) :=
  R.prompt fun w ↦ ⟨_, w, rfl, .refl w⟩

theorem modifyGet (f : World → α × World) (hf : ∀ w, Act R.own p w (f w).2) :
    R.Obeys p (Activity.modifyGet f) :=
  R.prompt (proper_modifyGet hf)

theorem amend (f : World → Except Fault World) (hf : ∀ w w', f w = .ok w' → Act R.own p w w') :
    R.Obeys p (Activity.amend f) :=
  R.prompt (proper_amend hf)

theorem op (x : Op α) : R.Obeys p (Activity.op x) := R.prompt (proper_op x)

theorem attempt_op (x : Op α) : R.Obeys p (Activity.op x).attempt := R.prompt (proper_op x).attempt

theorem ask (hr : r.Within R.own.queues) : R.Obeys p (Activity.ask r) := R.pausing (pauses_ask hr)

theorem settle_ask (hr : r.Within R.own.queues) :
    R.Obeys p (Activity.settle (do let _ ← Activity.ask r)) :=
  R.pausing (pauses_settle_ask hr)

theorem pure (a : α) : R.Obeys p (Pure.pure a : Activity α) := R.result a

theorem world : R.Obeys p Activity.world := R.read id

theorem modify {f : World → World} (hf : ∀ w, Act R.own p w (f w)) :
    R.Obeys p (Activity.modify f) :=
  R.modifyGet (fun w ↦ ((), f w)) hf

theorem lift (x : Except Fault α) : R.Obeys p (Activity.lift x) := by
  cases x with
  | ok a => exact R.result a
  | error f => exact R.raise f

theorem ite {P : Prop} [Decidable P] {x y : Activity α} (hx : R.Obeys p x) (hy : R.Obeys p y) :
    R.Obeys p (if P then x else y) := by
  split
  · exact hx
  · exact hy

theorem say (logger : String) (level : Level) (text : String) :
    R.Obeys p (Activity.say logger level text) :=
  R.modify fun w ↦ .say w logger level text

theorem each (xs : List α) {f : α → Activity Unit} (hf : ∀ x, R.Obeys p (f x)) :
    R.Obeys p (Activity.each xs f) := by
  induction xs with
  | nil => exact R.result ()
  | cons x rest ih => exact R.bind (hf x) fun _ ↦ ih

theorem collect {β : Type} {f : α → Activity β} (hf : ∀ x, R.Obeys p (f x)) (xs : List α) :
    R.Obeys p (Activity.collect f xs) := by
  induction xs with
  | nil => exact R.result []
  | cons x rest ih => exact R.bind (hf x) fun _ ↦ R.bind ih fun _ ↦ R.pure _

/-! ### Contexts -/

theorem context (c : ContextId) : R.Obeys p (Activity.context c) := R.read _

theorem bindCurrent (c : ContextId) (key : Key) (v : Value) :
    R.Obeys ⟨c, true⟩ (Activity.bindCurrent c key v) :=
  R.modify fun w ↦ .bind rfl w key v

theorem defined (v : Value) : R.Obeys p (Activity.defined v) := by
  unfold Activity.defined
  split
  · exact R.raise _
  · exact R.result _

theorem contextValue (c : ContextId) (name : String) (f : ContextFunction) :
    R.Obeys p (Activity.contextValue c name f) := by
  cases f with
  | log level =>
    refine R.bind (R.modify fun w ↦ ?_) fun _ ↦ R.pure _
    split
    · exact .refl w
    · exact .loggers w _
  | waitUntil => exact R.pure _
  | answer v => exact R.op (Op.newList [.text name, v])

theorem installFunctions (hc : R.own.contexts c) : R.Obeys p (Activity.installFunctions c) := by
  refine R.bind (R.context c) fun ctx ↦ R.bind (R.read _) fun functions ↦ ?_
  refine R.bind (R.collect (fun e ↦ ?_) functions) fun entries ↦ ?_
  · exact R.bind (R.contextValue c ctx.name e.2) fun _ ↦ R.pure _
  · exact R.modify fun w ↦ .install w hc _

theorem furnished (hnew : R.Obeys p new) (hown : ∀ c, R.own.contexts c) :
    R.Obeys p (Activity.furnished new) :=
  R.bind hnew fun c ↦ R.bind (R.installFunctions (hown c)) fun _ ↦ R.pure c

theorem sourceOf (v : Value) : R.Obeys p (Activity.sourceOf v) := by
  refine R.bind (R.read _) fun s ↦ ?_
  split <;> exact R.pure _

theorem readScript (hc : R.own.contexts c) (source : Syntax.Source.Given) (file : String) :
    R.Obeys p (Activity.readScript c source file) := by
  unfold Activity.readScript
  split
  · exact R.bind (R.modify fun w ↦ .remember w hc _ fun ctx ↦ ⟨_, _, _, _, rfl⟩) fun _ ↦ R.pure _
  · exact R.bind (R.modify fun w ↦ .remember w hc _ fun ctx ↦ ⟨_, _, _, _, rfl⟩) fun _ ↦
      R.bind (R.say _ _ _) fun _ ↦ R.pure _

theorem expressionContext (hnew : R.Obeys p new) (hown : ∀ c, R.own.contexts c) (source : Value) :
    R.Obeys p (Activity.expressionContext new source) :=
  R.bind (R.furnished hnew hown) fun c ↦ R.bind (R.sourceOf source) fun given ↦
    R.bind (R.readScript (hown c) given _) fun _ ↦ R.pure c

theorem mentioned (c : ContextId) : R.Obeys p (Activity.mentioned c) :=
  R.bind (R.context c) fun _ ↦ R.pure _

/-! ### Acting on the host -/

theorem note (f : Notes → Notes) : R.Obeys p (Activity.note f) := R.modify fun w ↦ .note w f

theorem deliver (e : Event) : R.Obeys p (Activity.deliver e) := by
  have started (ls : List Listener) : ∀ w : World,
      Act R.own p w (ls.foldl (fun w l ↦ (w.startTask .noted (.deliver l e)).2) w) := by
    induction ls with
    | nil => exact fun w ↦ .refl w
    | cons l rest ih => exact fun w ↦ .trans (.start w .noted (.deliver l e) trivial) (ih _)
  exact R.modify fun w ↦ started _ w

theorem fire (e : Event) : R.Obeys p (Activity.fire e) := R.bind (R.note _) fun _ ↦ R.deliver e

theorem manner : Manner (R.Obeys p) where
  read _ := R.read _
  raise := R.raise
  outOfFuel := R.outOfFuel
  op := R.op
  attempt_op := R.attempt_op
  bind := R.bind
  say := R.say
  note := R.note
  putState _ _ := R.modify fun w ↦ .putState w _ _
  declare _ _ _ _ := R.modify fun w ↦ .declare w _ _ _ _
  deliver := R.deliver

theorem callService (domain name : String) (data : Entries) :
    R.Obeys p (Activity.callService domain name data) := by
  refine R.bind (R.read _) fun service ↦ ?_
  cases service with
  | none => exact R.raise _
  | some service =>
    refine R.bind (R.note _) fun _ ↦ ?_
    split
    · exact R.pure _
    · exact R.modify fun w ↦ .start w _ _ trivial

/-! ### Waiting and stopping -/

theorem yieldTurn : R.Obeys p Activity.yieldTurn := R.bind (R.ask trivial) fun _ ↦ R.pure _

theorem sleep (seconds : Float) : R.Obeys p (Activity.sleep seconds) :=
  R.ite R.yieldTurn (R.bind R.world fun _ ↦ R.bind (R.ask trivial) fun _ ↦ R.pure _)

section

variable {q : QueueId} (hq : R.own.queues q)

include hq

theorem takeMessage : R.Obeys p (Activity.takeMessage q) := by
  refine R.modifyGet _ fun w ↦ ?_
  split
  · exact .take w hq _
  · exact .refl w

theorem receive : R.Obeys p (Activity.receive q) := by
  refine R.bind (R.takeMessage hq) fun m ↦ ?_
  cases m with
  | some m => exact R.pure m
  | none =>
    refine R.bind (R.ask hq) fun reply ↦ ?_
    split <;> exact R.pure _

theorem receiveFor (patience : Option Float) : R.Obeys p (Activity.receiveFor q patience) := by
  cases patience with
  | none => exact R.bind (R.receive hq) fun _ ↦ R.pure _
  | some seconds =>
    show R.Obeys p (receiveWithin q seconds)
    unfold receiveWithin
    split
    · exact R.bind R.yieldTurn fun _ ↦ R.pure _
    · refine R.bind R.world fun w ↦ R.bind (R.ask hq) fun reply ↦ ?_
      split <;> exact R.pure _

end

theorem join (t : TaskId) : R.Obeys p (Activity.join t) := by
  refine R.bind (R.read _) fun pending ↦ ?_
  split
  · exact R.bind (R.modify fun w ↦ .attend w _ fun _ ↦ ⟨_, _, rfl⟩) fun _ ↦
      R.bind (R.settle_ask trivial) fun _ ↦ R.modify fun w ↦ .attend w _ fun _ ↦ ⟨_, _, rfl⟩
  · exact R.pure _

theorem stopTask (t : TaskId) : R.Obeys p (Activity.stopTask t) := by
  refine R.bind R.world fun w ↦ ?_
  split
  · exact R.settle_ask trivial
  · exact R.bind (R.modify fun w ↦ .cancel w t) fun _ ↦ R.join t

end Regime

end TriggerScript
