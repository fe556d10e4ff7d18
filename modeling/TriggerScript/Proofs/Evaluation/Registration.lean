import TriggerScript.Proofs.Evaluation.Patience
import TriggerScript.Proofs.Notify.Registered

/-!
# What stays registered after waiting

Who waits until something happens makes a queue and registers it for what is waited for. The queue
is taken away after the rounds of waiting and not whenever they end:

* a task that is cancelled, or whose condition fails, leaves its queue registered
  (`Remains.abandoned`);
* a task whose registration fails leaves behind what was registered by then (`Remains.unfinished`);
* otherwise the queue is taken away from the type of event that the trigger names then, which may be
  another one by that time (`Remains.cleared`).

Nobody else comes near the queue (`Step.Minds.unmoved`), so nobody takes it away later.
-/

namespace TriggerScript

open Notify (QueueId entities entityOf?)

/-! ### Runs that leave the registrations of a queue alone -/

/-- The queue is registered for what it was registered for. -/
structure World.Unmoved (q : QueueId) (w w' : World) : Prop extends w.Widens w' where
  registered : ∀ o, w'.Registered q o ↔ w.Registered q o

namespace World.Unmoved

variable {q : QueueId} {w w₁ w' : World}

theorem of_eq (hcontexts : w'.contexts = w.contexts) (hqueues : w'.queues = w.queues)
    (hstates : w'.stateTable = w.stateTable) (hevents : w'.eventTable = w.eventTable) :
    Unmoved q w w' := by
  refine ⟨.of_eq hcontexts hqueues, fun o ↦ ?_⟩
  cases o with
  | entity name => rw [Registered, hstates, Registered]
  | event type => rw [Registered, hevents, Registered]

theorem refl (w : World) : Unmoved q w w := of_eq rfl rfl rfl rfl

theorem trans (h₁ : Unmoved q w w₁) (h₂ : Unmoved q w₁ w') : Unmoved q w w' :=
  ⟨h₁.toWidens.trans h₂.toWidens, fun o ↦ (h₂.registered o).trans (h₁.registered o)⟩

theorem none (h : Unmoved q w w') (hw : ∀ o, ¬ w.Registered q o) (o : Occasion) :
    ¬ w'.Registered q o :=
  fun ho ↦ hw o ((h.registered o).1 ho)

end World.Unmoved

/-- Others leave the registrations of the queue alone. -/
def sparing (q : QueueId) : Environment := fun _ w _ w' ↦ w.Unmoved q w'

variable {α : Type} {E : Owned} {q : QueueId} {reply : Reply} {request : Request} {t : TaskId}
    {w w' : World}

theorem Evolves.unmoved (h : Evolves (E.beyond w) w w') (hq : ¬ E.queues q)
    (hlt : q < w.queues.size) : w.Unmoved q w' :=
  ⟨h.widens, (h.ignores (Owned.not_queues_beyond hq hlt) hlt).registered⟩

theorem Step.Minds.unmoved {s : Step α} {w₀ : World} {r : Except Stop α} (h : s.Minds E w₀)
    (hq : ¬ E.queues q) (hlt : q < w₀.queues.size) (hrun : s.Finishes (sparing q) r w') :
    w₀.Unmoved q w' := by
  induction hrun generalizing E w₀ with
  | ended r w => exact Evolves.unmoved h hq hlt
  | @resumed request w w₁ w' resume r reply hother _ ih =>
    obtain ⟨hevolves, -, hresume⟩ := h
    have hbefore := (hevolves.unmoved hq hlt).trans hother
    -- what is made in a slice is not the queue, since the queue was there before
    exact hbefore.trans (ih (hresume reply w₁ hother.toWidens) (Owned.not_queues_between hq hlt w)
      (Nat.lt_of_lt_of_le hlt hbefore.queues))

namespace Activity

variable {α β : Type} {n : Nat} {q : QueueId}

def Unmoving (n : Nat) (q : QueueId) (x : Activity α) : Prop :=
  ∀ ⦃w r w'⦄, (x w).Finishes (sparing q) r w' → n ≤ w.queues.size → w.Unmoved q w'

variable {x : Activity α}

theorem unmoving_of_aloof (hx : (minding.regime .aloof).Obeys default x) : x.Unmoving (q + 1) q :=
  fun w _ _ hrun hlt ↦ (hx trivial w).unmoved (fun h ↦ h) hlt hrun

theorem Unmoving.bind {f : α → Activity β} (hx : x.Unmoving n q) (hf : ∀ a, (f a).Unmoving n q) :
    (x >>= f).Unmoving n q := by
  intro w r w' hrun hle
  rcases hrun.of_bind (s := x w) with ⟨a, w₁, hfirst, hsecond⟩ | ⟨e, hfirst, -⟩
  · have hbefore := hx hfirst hle
    exact hbefore.trans (hf a hsecond (Nat.le_trans hle hbefore.queues))
  · exact hx hfirst hle

theorem unmoving_read (f : World → α) : (read f).Unmoving n q := by
  intro w r w' hrun _
  cases hrun
  exact .refl w

theorem unmoving_lift (x : Except Fault α) : (lift x).Unmoving n q := by
  intro w r w' hrun _
  cases x <;>
  · cases hrun
    exact .refl w

theorem unmoving_op (x : Op α) : (op x).Unmoving n q := by
  intro w r w' hrun _
  obtain ⟨r', s, hend⟩ := op_apply x w
  rw [hend] at hrun
  cases hrun
  exact .of_eq rfl rfl rfl rfl

theorem unmoving_ask (request : Request) : (ask request).Unmoving n q := by
  intro w r w' hrun _
  obtain _ | ⟨reply, hother, hrest⟩ := hrun
  cases reply <;>
  · cases hrest
    exact hother

theorem unmoving_yieldTurn : yieldTurn.Unmoving n q :=
  (unmoving_ask _).bind fun _ ↦ unmoving_read fun _ ↦ ()

theorem unmoving_sleep (seconds : Float) : (sleep seconds).Unmoving n q := by
  unfold sleep
  split
  · exact unmoving_yieldTurn
  · exact (unmoving_read id).bind fun w ↦ (unmoving_ask _).bind fun _ ↦ unmoving_read fun _ ↦ ()

theorem unmoving_takeMessage (q : QueueId) : (takeMessage q).Unmoving n q := by
  intro w r w' hrun _
  unfold takeMessage modifyGet at hrun
  dsimp only at hrun
  split at hrun <;> cases hrun
  · refine ⟨⟨Nat.le_refl _, by simp⟩, fun o ↦ ?_⟩
    cases o <;> rfl
  · exact .refl w

theorem unmoving_receive (q : QueueId) : (receive q).Unmoving n q := by
  refine (unmoving_takeMessage q).bind fun message ↦ ?_
  cases message with
  | some m => exact unmoving_read fun _ ↦ m
  | none => exact (unmoving_ask _).bind fun reply ↦ by cases reply <;> exact unmoving_read fun _ ↦ _

theorem unmoving_receiveFor (q : QueueId) (patience : Option Float) :
    (receiveFor q patience).Unmoving n q := by
  cases patience with
  | none => exact (unmoving_receive q).bind fun m ↦ unmoving_read fun _ ↦ some m
  | some seconds =>
    show (receiveWithin q seconds).Unmoving n q
    unfold receiveWithin
    split
    · exact unmoving_yieldTurn.bind fun _ ↦ unmoving_read fun _ ↦ none
    · refine (unmoving_read id).bind fun w ↦ (unmoving_ask _).bind fun reply ↦ ?_
      cases reply <;> exact unmoving_read fun _ ↦ _

end Activity

namespace Interp

open Activity

variable {I : Interp} {q : QueueId}

/-! ### Registering, waiting and taking away -/

/-- The names, the trigger and the waiting that a queue was registered with. -/
structure Enrolment where
  names : List (Option String)
  trigger : Value
  wait : Wait

def enrol (c : ContextId) (given : Waiting) (queue : QueueId) (stateExpr : Option ContextId) :
    Activity Enrolment := do
  let names ← watchedNames stateExpr
  watchNames names queue
  let trigger ← eventList given.eventTrigger
  let eventExpr ← eventContext c trigger queue
  let began ← read (·.seconds)
  return { names, trigger, wait := { context := c, queue, given, stateExpr, eventExpr, began } }

def conclude (e : Enrolment) : WaitEnd → Activity Value
  | .abrupt v => return v
  | .clean v => do
    forget e.names e.trigger e.wait.queue
    return v

theorem waitUntil_eq (I : Interp) (c : ContextId) {given : Waiting} (h : ¬ given.NoTrigger) :
    I.waitUntil c given = (do
      let queue ← modifyGet (·.addQueue "?")
      let stateExpr ← stateContext c given.stateTrigger
      if ← I.holdsNow stateExpr then outcome "state"
      else
        let e ← enrol c given queue stateExpr
        conclude e (← I.waitRounds e.wait roundLimit)) := by
  have hsome :
      (given.stateTrigger.isNone && given.timeTrigger.isNone && given.eventTrigger.isNone) =
        false := by
    rw [Bool.eq_false_iff]
    intro hnone
    simp only [Bool.and_eq_true, Value.isNone_iff] at hnone
    exact h ⟨hnone.1.1, hnone.1.2, hnone.2⟩
  unfold waitUntil
  rw [hsome]
  refine bind_congr fun queue ↦ bind_congr fun stateExpr ↦ bind_congr fun now ↦ ?_
  cases now with
  | true => rfl
  | false =>
    unfold enrol
    simp only [Activity.bind_assoc]
    refine bind_congr fun names ↦ bind_congr fun _ ↦ bind_congr fun trigger ↦
      bind_congr fun eventExpr ↦
      bind_congr fun began ↦ bind_congr fun ending ↦ ?_
    cases ending <;> rfl

variable {n : Nat}

theorem unmoving_outcome (type : String) : (outcome type).Unmoving n q := unmoving_op _

theorem unmoving_waitOnly (timeout : Value) : (waitOnly timeout).Unmoving n q := by
  by_cases hnone : timeout = .none
  · subst hnone
    exact unmoving_outcome _
  · rw [waitOnly_of_ne_none hnone]
    refine (unmoving_read _).bind fun s ↦ (unmoving_lift _).bind fun _ ↦ ?_
    cases timeout.num? with
    | none => exact unmoving_outcome _
    | some x =>
      exact (unmoving_lift _).bind fun seconds ↦ (unmoving_sleep seconds).bind fun _ ↦
        unmoving_outcome _

theorem unmoving_waitRounds (hI : (minding.regime .aloof).Obeyed I) (wait : Wait) (n : Nat) :
    (I.waitRounds wait n).Unmoving (wait.queue + 1) wait.queue := by
  have hends (m : Value) : (I.endsWait wait m).Unmoving (wait.queue + 1) wait.queue :=
    unmoving_of_aloof (hI.endsWait (fun _ _ ↦ trivial) (fun _ _ ↦ trivial) m)
  have hsays (type : String) (f : Value → WaitEnd) :
      (do return f (← outcome type) : Activity WaitEnd).Unmoving (wait.queue + 1) wait.queue :=
    (unmoving_outcome type).bind fun v ↦ unmoving_read fun _ ↦ f v
  induction n with
  | zero => exact unmoving_of_aloof (Regime.outOfFuel _)
  | succ n ih =>
    rw [waitRounds_succ]
    refine (unmoving_of_aloof (Regime.Obeyed.nextMoment _)).bind fun next ↦
      (unmoving_of_aloof (Regime.Obeyed.timeLeft wait)).bind fun left ↦ ?_
    cases left with
    | none => exact hsays "timeout" .clean
    | some left =>
      show (I.waitingFor wait n (shorter next left)).Unmoving (wait.queue + 1) wait.queue
      unfold waitingFor
      split
      · exact hsays "none" .abrupt
      · refine (unmoving_receiveFor wait.queue _).bind fun message ↦ ?_
        cases message with
        | none => exact hsays "time" .clean
        | some m =>
          refine (hends m).bind fun ended ↦ ?_
          cases ended with
          | none => exact ih
          | some v => exact unmoving_read fun _ ↦ WaitEnd.clean v

theorem of_abrupt {wait : Wait} {E : Environment} {w w' : World} {v : Value}
    (h : (I.waitRounds wait n w).Finishes E (.ok (.abrupt v)) w') :
    wait.given.stateTrigger = .none ∧ wait.given.eventTrigger = .none := by
  have never {type : String} {w : World}
      (h : ((do return .clean (← outcome type) : Activity WaitEnd) w).Finishes E (.ok (.abrupt v))
        w') :
      False := by
    obtain ⟨_, _, -, h⟩ := h.of_bind_ok (s := outcome type w)
    cases h
  induction n generalizing w with
  | zero => cases h
  | succ n ih =>
    rw [waitRounds_succ] at h
    obtain ⟨next, w₁, -, h⟩ := h.of_bind_ok (s := nextMoment _ w)
    obtain ⟨left, w₂, -, h⟩ := h.of_bind_ok (s := timeLeft wait w₁)
    cases left with
    | none => exact (never h).elim
    | some left =>
      replace h : (I.waitingFor wait n (shorter next left) w₂).Finishes E (.ok (.abrupt v)) w' := h
      unfold waitingFor at h
      split at h
      · rename_i hidle
        simp only [Bool.and_eq_true, Value.isNone_iff] at hidle
        exact ⟨hidle.1.2, hidle.2⟩
      · obtain ⟨message, w₃, -, h⟩ := h.of_bind_ok (s := receiveFor _ _ w₂)
        cases message with
        | none => exact (never h).elim
        | some m =>
          obtain ⟨ended, w₄, -, h⟩ := h.of_bind_ok (s := I.endsWait wait m w₃)
          cases ended with
          | none => exact ih h
          | some v => cases h

end Interp

def Store.eventNamed (s : Store) (trigger : Value) : Except Fault String := do
  let v ← ((Op.getItem trigger (.int 0)).run.run s).1
  v.checkKey
  v.plain s

def World.NamesEvent (w : World) (trigger : Value) (type : String) : Prop :=
  trigger ≠ .none ∧ w.store.eventNamed trigger = .ok type

namespace Interp

open Activity

variable {I : Interp} {q : QueueId} {E : Environment} {w w' : World}

def namedType (trigger : Value) : Activity String := do
  eventTypeOf (← op (Op.getItem trigger (.int 0)))

theorem namedType_apply (trigger : Value) (w : World) :
    namedType trigger w = .ended ((w.store.eventNamed trigger).mapError .raised) w := by
  unfold Store.eventNamed
  show (op (Op.getItem trigger (.int 0)) w).bind eventTypeOf = _
  rw [op_of_looks (looks_getItem trigger 0)]
  cases ((Op.getItem trigger (.int 0)).run.run w.store).1 with
  | error f => rfl
  | ok v =>
    show (lift v.checkKey w).bind _ =
      .ended (Except.mapError _ (v.checkKey >>= fun _ ↦ v.plain w.store)) w
    cases v.checkKey with
    | error f => rfl
    | ok _ =>
      show op (Op.look v.plain) w = _
      rw [op_of_looks (looks_look _), run_look]
      rfl

variable {c : ContextId} {e : Enrolment} {r : Except Stop Value} {names : List (Option String)}
  {stateExpr : Option ContextId} {type : String} {trigger : Value} {given : Waiting}

theorem finishes_namedType (h : (namedType trigger w).Finishes E (.ok type) w') :
    w.store.eventNamed trigger = .ok type ∧ w = w' := by
  rw [namedType_apply, Step.finishes_ended] at h
  refine ⟨?_, h.2⟩
  cases hnamed : w.store.eventNamed trigger with
  | ok type' =>
    rw [hnamed] at h
    cases h.1
    rfl
  | error f =>
    rw [hnamed] at h
    cases h.1

theorem registered_watchNames (h : (watchNames names q w).Finishes E (.ok ()) w') :
    none ∉ names ∧ w.Widens w' ∧
      (∀ name, w'.Registered q (.entity name) ↔ name ∈ entities names ∨
        w.Registered q (.entity name)) ∧
      ∀ type, w'.Registered q (.event type) ↔ w.Registered q (.event type) := by
  unfold watchNames at h
  split at h
  · rename_i hempty
    obtain rfl := List.isEmpty_iff.1 hempty
    cases h
    exact ⟨by simp, .refl w, by simp, fun _ ↦ .rfl⟩
  · have hfault : (w.stateTable.add (.names names) q).2 = _ :=
      w.stateTable.addNames_fault (.names names) q names
    rw [Notify.watchStates_eq, Step.finishes_ended] at h
    obtain ⟨hok, rfl⟩ := h
    refine ⟨fun hnone ↦ ?_, .of_eq rfl rfl, fun name ↦ ?_, fun _ ↦ .rfl⟩
    · rw [hfault, if_pos hnone] at hok
      cases hok
    · refine (w.stateTable.mem_watchersOf_add (.names names) q q name).trans ?_
      simp [World.Registered, Notify.Watched.toList]

def watchType (type : String) (q : QueueId) : Activity Unit :=
  modify fun w ↦ { w with
    eventTable := (w.eventTable.add w.host type q).1
    host := (w.eventTable.add w.host type q).2 }

def eventCondition (c : ContextId) (trigger : Value) : Activity (Option ContextId) := do
  if (← sizeOf trigger) > 1 then
    let source ← op (Op.getItem trigger (.int 1))
    let name := "trigger " ++ (← context c).name ++ " wait_until event_trigger"
    return some (← expressionContext (newContextBeside c name) source)
  else return none

theorem eventContext_eq (c : ContextId) (h : trigger ≠ .none) (q : QueueId) :
    eventContext c trigger q = (do
      let type ← namedType trigger
      watchType type q
      eventCondition c trigger) := by
  unfold eventContext
  split
  · exact absurd rfl h
  · unfold namedType watchEvents
    simp only [Activity.bind_assoc]
    rfl

theorem obeys_contextBeside (c : ContextId) (name : String) (source : Value) :
    (minding.regime .aloof).Obeys default
      (do return some (← expressionContext (newContextBeside c name) source)) := by
  refine Regime.bind _ (Regime.expressionContext _ (Regime.prompt _ fun w ↦ ?_) (fun _ ↦ trivial)
    source) fun e ↦ Regime.pure _ (some e)
  exact ⟨_, _, rfl, .context w c name⟩

theorem unmoving_stateContext (c : ContextId) (source : Value) :
    (stateContext c source).Unmoving (q + 1) q := by
  refine unmoving_of_aloof ?_
  unfold stateContext
  split
  · exact Regime.pure _ none
  · exact Regime.bind _ (Regime.context _ c) fun _ ↦ obeys_contextBeside c _ _

theorem unmoving_eventCondition (c : ContextId) (trigger : Value) :
    (eventCondition c trigger).Unmoving (q + 1) q := by
  refine unmoving_of_aloof (Regime.bind _ (Regime.Obeyed.sizeOf trigger) fun size ↦ Regime.ite _ ?_
    (Regime.pure _ none))
  exact Regime.bind _ (Regime.op _ _) fun source ↦ Regime.bind _ (Regime.context _ c) fun _ ↦
    obeys_contextBeside c _ source

theorem registered_eventContext {eventExpr : Option ContextId} (hlt : q < w.queues.size)
    (h : (eventContext c trigger q w).Finishes (sparing q) (.ok eventExpr) w') :
    w.Widens w' ∧ (∀ name, w'.Registered q (.entity name) ↔ w.Registered q (.entity name)) ∧
      ∀ type, w'.Registered q (.event type) ↔ w.NamesEvent trigger type ∨
        w.Registered q (.event type) := by
  by_cases hnone : trigger = .none
  · subst hnone
    cases h
    exact ⟨.refl w, fun _ ↦ .rfl, by simp [World.NamesEvent]⟩
  · rw [eventContext_eq c hnone] at h
    obtain ⟨type, w₁, htype, h⟩ := h.of_bind_ok (s := namedType trigger w)
    obtain ⟨_, w₂, hadd, h⟩ := h.of_bind_ok (s := watchType type q w₁)
    obtain ⟨hnamed, rfl⟩ := finishes_namedType htype
    obtain ⟨-, rfl⟩ := Step.finishes_ended.1 hadd
    have hafter := unmoving_eventCondition c trigger h hlt
    refine ⟨⟨hafter.contexts, hafter.queues⟩, fun name ↦ hafter.registered _, fun type' ↦ ?_⟩
    refine (hafter.registered _).trans
      ((w.eventTable.mem_queuesOf_add w.host type q q type').trans ?_)
    simp [World.Registered, World.NamesEvent, hnone, hnamed, eq_comm]

theorem eventNamed_singleton {s : Store} {r : Ref} (h : s.listAt r = [.text type]) :
    s.eventNamed (.list r) = .ok type := by
  have hlook : (Op.getItem (.list r) (.int 0)).run.run s =
      (Op.look fun s ↦ itemAt s (.list r) (.int 0) (s.listAt r) (.indexOutOfRange "list")).run.run
        s := rfl
  rw [Store.eventNamed, hlook, run_look, h]
  rfl

theorem namesEvent_of_text (h : (eventList (.text type) w).Finishes E (.ok trigger) w') :
    w'.NamesEvent trigger type := by
  obtain ⟨htrigger, rfl⟩ := Step.finishes_ended.1 h
  obtain rfl := Except.ok.inj htrigger
  refine ⟨nofun, eventNamed_singleton ?_⟩
  simp [Store.listAt, Store.get?, Store.push]

/-- What the queue is registered for when the rounds of waiting begin. -/
structure Enrolled (q : QueueId) (given : Waiting) (e : Enrolment) (w : World) : Prop where
  queue : e.wait.queue = q
  waits : e.wait.given = given
  lt : q < w.queues.size
  named : none ∉ e.names
  entity : ∀ name, w.Registered q (.entity name) ↔ name ∈ entities e.names
  event : ∃ u : World, ∀ type, w.Registered q (.event type) ↔ u.NamesEvent e.trigger type
  text : ∀ type, given.eventTrigger = .text type → w.Registered q (.event type)
  noState : given.stateTrigger = .none → e.names = []
  noEvent : given.eventTrigger = .none → e.trigger = .none

theorem enrolled_of_finishes (hstate : given.stateTrigger = .none → stateExpr = none)
    (hlt : q < w.queues.size) (hclear : ∀ o, ¬ w.Registered q o)
    (h : (enrol c given q stateExpr w).Finishes (sparing q) (.ok e) w') :
    Enrolled q given e w' := by
  obtain ⟨names, w₁, hnames, h⟩ := h.of_bind_ok (s := watchedNames stateExpr w)
  obtain ⟨_, w₂, hstates, h⟩ := h.of_bind_ok (s := watchNames names q w₁)
  obtain ⟨trigger, w₃, htrigger, h⟩ := h.of_bind_ok (s := eventList _ w₂)
  obtain ⟨eventExpr, w₄, hevents, h⟩ := h.of_bind_ok (s := eventContext c trigger q w₃)
  obtain ⟨began, w₅, hbegan, h⟩ := h.of_bind_ok (s := read _ w₄)
  cases hbegan
  cases h
  have h₁ := unmoving_of_aloof (Regime.Obeyed.watchedNames stateExpr) hnames hlt
  have hlt₁ := Nat.lt_of_lt_of_le hlt h₁.queues
  obtain ⟨hnamed, h₂, hentity₂, hevent₂⟩ := registered_watchNames hstates
  have hlt₂ := Nat.lt_of_lt_of_le hlt₁ h₂.queues
  have h₃ := unmoving_of_aloof (Regime.Obeyed.eventList given.eventTrigger) htrigger hlt₂
  have hlt₃ := Nat.lt_of_lt_of_le hlt₂ h₃.queues
  obtain ⟨h₄, hentity₄, hevent₄⟩ := registered_eventContext hlt₃ hevents
  have hevent (type : String) : w'.Registered q (.event type) ↔ w₃.NamesEvent trigger type := by
    rw [hevent₄, h₃.registered, hevent₂, h₁.registered]
    simp [hclear]
  refine ⟨rfl, rfl, Nat.lt_of_lt_of_le hlt₃ h₄.queues, hnamed, fun name ↦ ?_, ⟨w₃, hevent⟩,
    fun type htext ↦ ?_, fun hnone ↦ ?_, fun hnone ↦ ?_⟩
  · rw [hentity₄, h₃.registered, hentity₂, h₁.registered]
    simp [hclear]
  · rw [htext] at htrigger
    exact (hevent type).2 (namesEvent_of_text htrigger)
  · rw [hstate hnone] at hnames
    cases hnames
    rfl
  · rw [hnone] at htrigger
    cases htrigger
    rfl

def unwatchType (type : String) (q : QueueId) : Activity Unit := do
  let fault ← modifyGet fun w ↦ ((w.eventTable.remove w.host type q).2, { w with
    eventTable := (w.eventTable.remove w.host type q).1.1
    host := (w.eventTable.remove w.host type q).1.2 })
  fault.elim (pure ()) raise

theorem unwatchEvents_eq (v : Value) (q : QueueId) :
    unwatchEvents v q = (do unwatchType (← eventTypeOf v) q) :=
  bind_congr fun _ ↦ bind_congr fun fault ↦ by cases fault <;> rfl

theorem finishes_unwatchType {r : Except Stop Unit} (h : (unwatchType type q w).Finishes E r w') :
    (∀ name, w'.Registered q (.entity name) ↔ w.Registered q (.entity name)) ∧
      (∀ type', w'.Registered q (.event type') ↔ w.Registered q (.event type') ∧ type' ≠ type) ∧
      ∀ e, r = .error e → ∃ f, e = .raised f := by
  have hgone (type' : String) : q ∈ (w.eventTable.remove w.host type q).1.1.queuesOf type' ↔
      w.Registered q (.event type') ∧ type' ≠ type := by
    simp [Notify.EventTable.mem_queuesOf_remove, World.Registered]
  replace h : ((w.eventTable.remove w.host type q).2.elim (pure ()) raise _).Finishes E r w' := h
  cases hfault : (w.eventTable.remove w.host type q).2 <;>
  · rw [hfault] at h
    cases h
    exact ⟨fun _ ↦ .rfl, hgone, by simp⟩

theorem each_unwatch {f : Option String → Activity Unit}
    (hf : ∀ name, f (some name) = unwatchStates (.single name) q) (hnamed : none ∉ names)
    (w : World) :
    ∃ t, each names f w = .ended (.ok ()) { w with stateTable := t } ∧
      ∀ name, q ∈ (t.watchersOf name).map (·.1) ↔
        q ∈ (w.stateTable.watchersOf name).map (·.1) ∧ name ∉ entities names := by
  induction names generalizing w with
  | nil => exact ⟨w.stateTable, rfl, by simp⟩
  | cons name names ih =>
    cases name with
    | none => exact absurd List.mem_cons_self hnamed
    | some name =>
      have hfault : (w.stateTable.remove (.single name) q).2 = none := by
        show (w.stateTable.removeNames q [some name]).2 = none
        rw [Notify.StateTable.removeNames]
        cases entityOf? name with
        | none => rfl
        | some e =>
          dsimp only
          split <;> rfl
      have hfirst : f (some name) w =
          .ended (.ok ()) { w with stateTable := (w.stateTable.remove (.single name) q).1 } := by
        rw [hf, Notify.unwatchStates_eq, hfault]
        rfl
      obtain ⟨t, hrest, hentity⟩ := ih (fun h ↦ hnamed (List.mem_cons_of_mem _ h))
        { w with stateTable := (w.stateTable.remove (.single name) q).1 }
      refine ⟨t, (bind_of_ended hfirst).trans hrest, fun name' ↦ ?_⟩
      rw [hentity, Notify.StateTable.mem_watchersOf_remove_single, Notify.entities_some]
      cases entityOf? name <;> simp [and_assoc, eq_comm]

def unwatchNamed (trigger : Value) (q : QueueId) : Activity Unit :=
  if trigger.isNone then pure () else namedType trigger >>= fun type ↦ unwatchType type q

theorem forget_eq (names : List (Option String)) (trigger : Value) (q : QueueId) :
    ∃ f : Option String → Activity Unit, (∀ name, f (some name) = unwatchStates (.single name) q) ∧
      forget names trigger q = each names f >>= fun _ ↦ unwatchNamed trigger q := by
  refine ⟨_, fun _ ↦ rfl, bind_congr fun _ ↦ ?_⟩
  unfold unwatchNamed namedType
  rw [Activity.bind_assoc]
  cases trigger with
  | none => rfl
  | _ => exact bind_congr fun v ↦ unwatchEvents_eq v q

theorem registered_forget {r : Except Stop Unit} (hnamed : none ∉ names)
    (h : (forget names trigger q w).Finishes E r w') :
    (∀ name, w'.Registered q (.entity name) ↔ w.Registered q (.entity name) ∧
      name ∉ entities names) ∧ (∀ type, w'.Registered q (.event type) ↔
        w.Registered q (.event type) ∧ ¬ w.NamesEvent trigger type) ∧
      ∀ e, r = .error e → ∃ f, e = .raised f := by
  obtain ⟨f, hf, heq⟩ := forget_eq names trigger q
  obtain ⟨t, hentities, hentity⟩ := each_unwatch hf hnamed w
  rw [heq, bind_of_ended hentities] at h
  unfold unwatchNamed at h
  split at h
  · rename_i hnone
    rw [Value.isNone_iff] at hnone
    cases h
    exact ⟨hentity, fun _ ↦ by simp [World.NamesEvent, World.Registered, hnone], nofun⟩
  · rename_i hsome
    rw [Value.isNone_iff] at hsome
    rcases h.of_bind (s := namedType trigger _) with ⟨type, w₁, htype, h⟩ | ⟨e, htype, rfl⟩
    · obtain ⟨hnames, rfl⟩ := finishes_namedType htype
      replace hnames : w.store.eventNamed trigger = .ok type := hnames
      obtain ⟨hentity', hevent, hraised⟩ := finishes_unwatchType h
      refine ⟨fun name ↦ (hentity' name).trans (hentity name), fun type' ↦ (hevent type').trans ?_,
        hraised⟩
      simp [World.NamesEvent, hsome, hnames, eq_comm, World.Registered]
    · rw [namedType_apply, Step.finishes_ended] at htype
      obtain ⟨hfault, rfl⟩ := htype
      replace hfault : (w.store.eventNamed trigger).mapError Stop.raised = .error e := hfault
      cases hnames : w.store.eventNamed trigger with
      | ok type =>
        rw [hnames] at hfault
        cases hfault
      | error f =>
        rw [hnames] at hfault
        cases hfault
        refine ⟨hentity, fun type ↦ by simp [World.NamesEvent, hnames, World.Registered], ?_⟩
        rintro _ ⟨⟩
        exact ⟨f, rfl⟩

/-! ### What is left at the end -/

/-- What is left of the registrations of `q` when the waiting has ended with a result. -/
inductive Remains (I : Interp) (c : ContextId) (given : Waiting) (q : QueueId) :
    Except Stop Value → World → Prop
  | nothing {r : Except Stop Value} {w' : World} (h : ∀ o, ¬ w'.Registered q o) :
    Remains I c given q r w'
  /-- The queue could not be registered for all that was to be waited for. -/
  | unfinished {stateExpr : Option ContextId} {e : Stop} {w w' : World}
    (h : ∀ o, ¬ w.Registered q o)
    (hrun : (enrol c given q stateExpr w).Finishes (sparing q) (.error e) w') :
    Remains I c given q (.error e) w'
  /-- The rounds of waiting did not end as they should. The queue is registered for all that it was
  registered for when they began. -/
  | abandoned {enrolment : Enrolment} {e : Stop} {w w' : World} (h : Enrolled q given enrolment w)
    (hrun : (I.waitRounds enrolment.wait roundLimit w).Finishes (sparing q) (.error e) w')
    (hkept : ∀ o, w'.Registered q o ↔ w.Registered q o) : Remains I c given q (.error e) w'
  /-- The rounds of waiting ended as they should. The queue is registered for no entity, and for a
  type of event only if the trigger does not name it any more. -/
  | cleared {enrolment : Enrolment} {v : Value} {r : Except Stop Value} {w w₁ w' : World}
    (h : Enrolled q given enrolment w)
    (hrun : (I.waitRounds enrolment.wait roundLimit w).Finishes (sparing q) (.ok (.clean v)) w₁)
    (hr : r = .ok v ∨ ∃ f, r = .error (.raised f))
      (hentity : ∀ name, ¬ w'.Registered q (.entity name))
    (hevent : ∀ type, w'.Registered q (.event type) ↔
      w.Registered q (.event type) ∧ ¬ w₁.NamesEvent enrolment.trigger type) :
    Remains I c given q r w'

theorem remains_of_enrolled (hI : (minding.regime .aloof).Obeyed I)
    (henrolled : Enrolled q given e w)
    (h : ((I.waitRounds e.wait roundLimit >>= conclude e : Activity Value) w).Finishes (sparing q) r
      w') :
    Remains I c given q r w' := by
  obtain rfl := henrolled.queue
  have hwait {r : Except Stop WaitEnd} {w₁ : World}
      (hrun : (I.waitRounds e.wait roundLimit w).Finishes (sparing e.wait.queue) r w₁) :
      w.Unmoved e.wait.queue w₁ :=
    unmoving_waitRounds hI e.wait roundLimit hrun henrolled.lt
  rcases h.of_bind (s := I.waitRounds e.wait roundLimit w) with
    ⟨ending, w₁, hrun, h⟩ | ⟨stop, hrun, rfl⟩
  · cases ending with
    | abrupt v =>
      cases h
      obtain ⟨hnoState, hnoEvent⟩ := of_abrupt hrun
      rw [henrolled.waits] at hnoState hnoEvent
      refine .nothing ((hwait hrun).none fun o ↦ ?_)
      cases o with
      | entity name =>
        rw [henrolled.entity, henrolled.noState hnoState]
        simp
      | event type =>
        obtain ⟨u, hu⟩ := henrolled.event
        rw [hu, henrolled.noEvent hnoEvent]
        simp [World.NamesEvent]
    | clean v =>
      have hcleared {r : Except Stop Value} {r' : Except Stop Unit} {w' : World}
          (hforget : (forget e.names e.trigger e.wait.queue w₁).Finishes (sparing e.wait.queue) r'
            w')
          (hr : r = .ok v ∨ ∃ f, r = .error (.raised f)) : Remains I c given e.wait.queue r w' := by
        obtain ⟨hentity, hevent, -⟩ := registered_forget henrolled.named hforget
        refine .cleared henrolled hrun hr (fun name hname ↦ ?_) fun type ↦ ?_
        · obtain ⟨hin, hout⟩ := (hentity name).1 hname
          exact hout ((henrolled.entity name).1 (((hwait hrun).registered _).1 hin))
        · rw [hevent, (hwait hrun).registered]
      rcases h.of_bind (s := forget _ _ _ w₁) with ⟨_, w₂, hforget, h⟩ | ⟨stop, hforget, rfl⟩
      · cases h
        exact hcleared hforget (.inl rfl)
      · obtain ⟨-, -, hraised⟩ := registered_forget henrolled.named hforget
        obtain ⟨f, rfl⟩ := hraised stop rfl
        exact hcleared hforget (.inr ⟨f, rfl⟩)
  · exact .abandoned henrolled hrun (hwait hrun).registered

theorem remains_of_stateExpr (hI : (minding.regime .aloof).Obeyed I)
    (hstate : given.stateTrigger = .none → stateExpr = none) (hlt : q < w.queues.size)
    (hclear : ∀ o, ¬ w.Registered q o) (h : (((do
      if ← I.holdsNow stateExpr then outcome "state"
      else
        let e ← enrol c given q stateExpr
        conclude e (← I.waitRounds e.wait roundLimit)) :
          Activity Value) w).Finishes (sparing q) r w') :
    Remains I c given q r w' := by
  have hnow : (I.holdsNow stateExpr).Unmoving (q + 1) q :=
    unmoving_of_aloof (hI.holdsNow fun _ _ ↦ trivial)
  rcases h.of_bind (s := I.holdsNow stateExpr w) with ⟨now, w₁, hholds, h⟩ | ⟨e, hholds, rfl⟩
  · have h₁ := hnow hholds hlt
    have hlt₁ := Nat.lt_of_lt_of_le hlt h₁.queues
    cases now with
    | true => exact .nothing ((h₁.trans (unmoving_outcome _ h hlt₁)).none hclear)
    | false =>
      rcases h.of_bind (s := enrol c given q stateExpr w₁) with ⟨e, w₂, henrol, h⟩ |
        ⟨e, henrol, rfl⟩
      · exact remains_of_enrolled hI (enrolled_of_finishes hstate hlt₁ (h₁.none hclear) henrol) h
      · exact .unfinished (h₁.none hclear) henrol
  · exact .nothing ((hnow hholds hlt).none hclear)

end Interp

/-- **What stays registered after waiting.** However waiting ends, the queue that was made for it is
left registered as `Interp.Remains` says: for nothing if waiting ended before it was registered, and
for no entity and no type of event that the trigger still names if the rounds ended as they should.
But if they are cancelled or fail, for all that it was registered for. -/
theorem registered_after_wait_until (c : ContextId) (given : Waiting) {w₀ w' : World}
    {r : Except Stop Value} (hfresh : ∀ o, ¬ w₀.Registered w₀.queues.size o)
    (hrun : (Interp.full.waitUntil c given w₀).Finishes (sparing w₀.queues.size) r w') :
    Interp.Remains Interp.full c given w₀.queues.size r w' := by
  have hfull : (minding.regime .aloof).Obeyed Interp.full := minding.obeyed_upTo _ _
  by_cases hnone : given.NoTrigger
  · have heq : Interp.full.waitUntil c given = Interp.waitOnly given.timeout := by
      unfold Interp.waitUntil
      rw [hnone.1, hnone.2.1, hnone.2.2]
      rfl
    rw [heq] at hrun
    exact .nothing ((Interp.unmoving_waitOnly _ hrun (Nat.zero_le _)).none hfresh)
  · rw [Interp.waitUntil_eq _ c hnone] at hrun
    replace hrun : ((Interp.stateContext c given.stateTrigger >>= _ : Activity Value)
      (w₀.addQueue "?").2).Finishes (sparing w₀.queues.size) r w' := hrun
    have hlt : w₀.queues.size < (w₀.addQueue "?").2.queues.size := by simp [World.addQueue]
    have hclear : ∀ o, ¬ (w₀.addQueue "?").2.Registered w₀.queues.size o := by
      intro o ho
      exact hfresh o (by cases o <;> exact ho)
    rcases hrun.of_bind (s := Interp.stateContext c _ _) with
      ⟨stateExpr, w₁, hstate, hrun⟩ | ⟨e, hstate, rfl⟩
    · have h₁ := Interp.unmoving_stateContext c _ hstate hlt
      refine Interp.remains_of_stateExpr hfull (fun hnone ↦ ?_) (Nat.lt_of_lt_of_le hlt h₁.queues)
        (h₁.none hclear) hrun
      rw [hnone] at hstate
      cases hstate
      rfl
    · exact .nothing ((Interp.unmoving_stateContext c _ hstate hlt).none hclear)

/-! ### A task that ends, and one that is cancelled -/

theorem World.Answers.unmoved (h : w.Answers t request reply w') : w.Unmoved q w' := by
  cases h with
  | cancelled _ => exact .of_eq rfl rfl rfl rfl
  | message _ _ =>
    refine ⟨⟨Nat.le_refl _, by simp⟩, fun o ↦ ?_⟩
    cases o <;> rfl
  | _ => exact .refl w

theorem sparing_of_undisturbed (h : Step.undisturbed t request w reply w') :
    sparing q request w reply w' := by
  obtain ⟨i, w₁, hanswer, rfl⟩ := h
  have hclock : w.Unmoved q { w with elapsed := max w.elapsed i } := .of_eq rfl rfl rfl rfl
  exact (hclock.trans (World.answers_of_answer? hanswer).unmoved).trans (.of_eq rfl rfl rfl rfl)

def Step.interrupt {α : Type} (t : TaskId) : Step α → Step α
  | ended r w => ended r w
  | waiting request w resume => waiting request (w.cancel t) resume

theorem Step.finishes_of_interrupt {E : Environment} {s : Step α} {r : Except Stop α}
    (hE : ∀ request w reply w', E request (w.cancel t) reply w' → E request w reply w')
    (h : (s.interrupt t).Finishes E r w') : s.Finishes E r w' := by
  cases s with
  | ended r₁ w₁ => exact h
  | waiting request w resume =>
    obtain _ | ⟨reply, hreply, hrest⟩ := h
    exact .resumed reply (hE _ _ _ _ hreply) hrest

theorem sparing_of_cancel
    (h : scheduled request (w.cancel t) reply w' ∧ sparing q request (w.cancel t) reply w') :
    scheduled request w reply w' ∧ sparing q request w reply w' := by
  have hcancel : w.Unmoved q (w.cancel t) := .of_eq rfl rfl rfl rfl
  exact ⟨h.1, hcancel.trans h.2⟩

def waiterWorld : World := { waitingWorld with tasks := #[{ job := .script 0 .none }] }

def ringOrLight : Waiting := { eventTrigger := .text "ring", stateTrigger := .text "light.a" }

def stopOf : Except Stop Value → Option Stop
  | .ok _ => none
  | .error e => some e

def leftBehind (type entity : String) (p : Except Stop Value × World) :
    Option Stop × List QueueId × List QueueId :=
  (stopOf p.1, p.2.eventTable.queuesOf type, (p.2.stateTable.watchersOf entity).map (·.1))

/-- A task that waits for an event and a state leaves nothing registered when its second is over. -/
theorem registered_after_wait_until_second : ∃ r w',
    (Interp.full.waitUntil 0 { ringOrLight with timeout := .int 1 } waiterWorld).Finishes
    (sparing 0) r w' ∧
    Interp.Remains Interp.full 0 { ringOrLight with timeout := .int 1 } 0 r w' ∧
    leftBehind "ring" "light.a" (r, w') = (none, [], []) := by
  obtain ⟨⟨r, w'⟩, hreplay, hleft⟩ := Option.map_eq_some_iff.1 (show
    ((Interp.full.waitUntil 0 { ringOrLight with timeout := .int 1 } waiterWorld).replay 0
      [1000000]).map (leftBehind "ring" "light.a") = some (none, [], []) by decide +kernel)
  have hrun : Step.Finishes (sparing waiterWorld.queues.size) _ r w' :=
    (Step.finishes_of_replay hreplay).mono fun _ _ _ _ ↦ sparing_of_undisturbed
  have hfresh : ∀ o, ¬ waiterWorld.Registered waiterWorld.queues.size o := by
    intro o
    cases o <;> exact List.not_mem_nil
  exact ⟨r, w', hrun, registered_after_wait_until 0 _ hfresh hrun, hleft⟩

/-- **A task that is cancelled while it waits leaves its queue registered**, for the type of event
and for the entity that it waited for. -/
theorem registered_when_cancelled : ∃ w',
    (Interp.full.waitUntil 0 ringOrLight waiterWorld).Finishes
      (fun request w reply w' ↦ scheduled request w reply w' ∧ sparing 0 request w reply w')
      (.error .cancelled) w' ∧
    w'.Registered 0 (.event "ring") ∧ w'.Registered 0 (.entity "light.a") := by
  obtain ⟨⟨r, w'⟩, hreplay, hleft⟩ := Option.map_eq_some_iff.1 (show
    (((Interp.full.waitUntil 0 ringOrLight waiterWorld).interrupt 0).replay 0 [0]).map
      (leftBehind "ring" "light.a") = some (some .cancelled, [0], [0]) by decide +kernel)
  obtain rfl : r = .error .cancelled := by
    have hstop : stopOf r = some .cancelled := congrArg (·.1) hleft
    cases r with
    | ok v => cases hstop
    | error e => exact congrArg Except.error (Option.some.inj hstop)
  have hevent : w'.eventTable.queuesOf "ring" = [0] := congrArg (·.2.1) hleft
  have hentity : (w'.stateTable.watchersOf "light.a").map (·.1) = [0] := congrArg (·.2.2) hleft
  have hrun : Step.Finishes
      (fun request w reply w' ↦ scheduled request w reply w' ∧ sparing 0 request w reply w') _ _
        w' :=
    (Step.finishes_of_replay hreplay).mono fun _ _ _ _ h ↦
      ⟨Step.scheduled_of_undisturbed h, sparing_of_undisturbed h⟩
  refine ⟨w', Step.finishes_of_interrupt (fun _ _ _ _ ↦ sparing_of_cancel) hrun, ?_, ?_⟩
  · rw [World.Registered, hevent]
    exact List.mem_singleton_self 0
  · rw [World.Registered, hentity]
    exact List.mem_singleton_self 0

end TriggerScript
