import Mathlib.Logic.Relation
import TriggerScript.Proofs.Evaluation.Binding
import TriggerScript.Proofs.Task.Finish

/-!
# How waiting ends

A script that waits until something happens waits in rounds, each for the shorter of two times:
until the next moment that the time specification names, and until the end of patience. When the
wait of a round runs out, nobody looks which of the two it was: the answer is `time`. The answer
`timeout` is given only where a round finds, when it begins, that no time is left, and where there
is nothing else to wait for (`wait_until_answer`).
-/

namespace TriggerScript

theorem Value.isNone_iff {v : Value} : v.isNone = true ↔ v = .none := by
  cases v <;> simp [Value.isNone]

/-! ### Answers that tell a type only -/

def telling (type : String) : Object := .dict [(.text "trigger_type", .text type)]

namespace World

def Tells (w : World) (v : Value) (type : String) : Prop :=
  ∃ r, v = .dict r ∧ w.store.get? r = some (telling type)

def told? (w : World) : Value → Option String
  | .dict r =>
    match w.store.get? r with
    | some (.dict [(.text "trigger_type", .text type)]) => some type
    | _ => none
  | _ => none

variable {type : String} {v : Value}

theorem told?_eq_some {w : World} : w.told? v = some type ↔ w.Tells v type := by
  constructor
  · intro h
    cases v with
    | dict r =>
      unfold told? at h
      dsimp only at h
      split at h
      · rename_i hr
        cases h
        exact ⟨r, rfl, hr⟩
      · cases h
    | _ => cases h
  · rintro ⟨r, rfl, hr⟩
    simp [told?, hr, telling]

instance (w : World) (v : Value) (type : String) : Decidable (w.Tells v type) :=
  decidable_of_iff (w.told? v = some type) told?_eq_some

theorem Tells.of_store {w w' : World} (h : w.Tells v type) (hstore : w'.store = w.store) :
    w'.Tells v type := by
  obtain ⟨r, hv, hr⟩ := h
  exact ⟨r, hv, hstore ▸ hr⟩

def Names (w : World) (spec : Value) (seconds : Float) : Prop :=
  spec ≠ .none ∧ ∃ specs t warnings, Activity.specsOf spec w = .ended (.ok specs) w ∧
    (Schedule.next w.sun specs w.now).run.run [] = (.ok (some t), warnings) ∧
    seconds = Calendar.Duration.toSeconds (t.since w.now)

end World

namespace Activity

variable {α : Type} {E : Environment} {w w' : World}

theorem tells_of_outcome {f : Value → α} {type : String} {a : α}
    (h : ((do return f (← outcome type) : Activity α) w).Finishes E (.ok a) w') :
    ∃ v, a = f v ∧ w'.Tells v type ∧ w'.elapsed = w.elapsed := by
  replace h : (Step.ended (.ok (f (.dict w.store.objects.size)))
    (w.withObject (telling type))).Finishes E (.ok a) w' := h
  obtain ⟨ha, rfl⟩ := Step.finishes_ended.1 h
  refine ⟨_, (Except.ok.inj ha).symm, ⟨_, rfl, ?_⟩, rfl⟩
  simp [World.withObject, Store.push, Store.get?]

/-! ### What happens at one moment of the clock -/

def SameInstant (w w' : World) : Prop := w'.elapsed = w.elapsed

def SameObjects (w w' : World) : Prop := w'.elapsed = w.elapsed ∧ w'.store = w.store

theorem SameInstant.refl (w : World) : SameInstant w w := rfl

theorem SameObjects.refl (w : World) : SameObjects w w := ⟨rfl, rfl⟩

theorem SameInstant.trans (w w₁ w' : World) (h : SameInstant w w₁) (h' : SameInstant w₁ w') :
    SameInstant w w' :=
  Eq.trans h' h

theorem SameObjects.trans (w w₁ w' : World) (h : SameObjects w w₁) (h' : SameObjects w₁ w') :
    SameObjects w w' :=
  ⟨h'.1.trans h.1, h'.2.trans h.2⟩

theorem looks_getItem (v : Value) (i : Int) : Looks (Op.getItem v (.int i)) := by
  refine looks_get fun s ↦ ?_
  cases v with
  | list r => exact looks_look _
  | tuple xs => exact looks_look _
  | text t => exact (looks_look _).bind fun _ ↦ looks_pure _
  | bytes bs => exact (looks_look _).bind fun _ ↦ looks_pure _
  | byteArray r => exact (looks_look _).bind fun _ ↦ looks_pure _
  | range a b c =>
    refine (looks_look _).bind fun n ↦ ?_
    dsimp only
    generalize (if n < 0 then _ else n) = m
    by_cases h : 0 ≤ m ∧ m < rangeLength a b c
    · rw [if_pos h]
      exact looks_pure _
    · rw [if_neg h]
      exact looks_throw _
  | dict r =>
    refine (looks_look _).bind fun _ ↦ ?_
    cases Entries.get? s (s.dictAt r) (.int i) with
    | some v => exact looks_pure v
    | none => exact looks_throw _
  | _ => exact looks_throw _

theorem op_of_looks {x : Op α} (hx : Looks x) (w : World) :
    op x w = .ended ((x.run.run w.store).1.mapError .raised) w := by
  have hs := hx w.store
  unfold op
  dsimp only
  generalize x.run.run w.store = p at hs
  obtain ⟨r, s⟩ := p
  obtain rfl : s = w.store := hs
  cases r <;> rfl

theorem immediate_op_of_looks {x : Op α} (hx : Looks x) : (op x).Immediate SameObjects :=
  fun w ↦ ⟨_, w, op_of_looks hx w, rfl, rfl⟩

theorem immediate_reading (x : Schedule.Reading α) : (reading x).Immediate SameInstant := by
  refine Immediate.bind (immediate_each .refl SameInstant.trans _ fun text ↦ ?_) SameInstant.trans
    fun _ ↦ immediate_lift .refl _
  exact fun w ↦ ⟨_, _, rfl, rfl⟩

theorem reading_ok {x : Schedule.Reading α} {a : α} (h : (reading x w).Finishes E (.ok a) w') :
    ∃ warnings, x.run.run [] = (.ok a, warnings) := by
  unfold reading at h
  generalize x.run.run [] = p at h ⊢
  obtain ⟨r, warnings⟩ := p
  obtain ⟨_, w₁, -, hlift⟩ := h.of_bind_ok (s := each warnings _ w)
  obtain ⟨rfl, -⟩ := finishes_lift hlift
  exact ⟨warnings, rfl⟩

theorem immediate_specsOf (spec : Value) : (specsOf spec).Immediate Eq := by
  refine (immediate_read .refl _).bind (fun _ _ _ ↦ Eq.trans) fun s ↦ ?_
  cases spec <;> exact immediate_read .refl fun _ ↦ _

theorem immediate_secondsUntilNext (spec : Value) :
    (secondsUntilNext spec).Immediate SameInstant := by
  refine ((immediate_specsOf spec).mono fun w w' h ↦ h ▸ rfl).bind SameInstant.trans fun specs ↦
    (immediate_read .refl _).bind SameInstant.trans fun w ↦
    (immediate_reading _).bind SameInstant.trans fun next ↦ ?_
  cases next <;> exact immediate_read .refl fun _ ↦ _

theorem immediate_unwatchStates (names : Notify.Watched) (q : Notify.QueueId) :
    (unwatchStates names q).Immediate SameObjects := by
  refine Immediate.bind (fun w ↦ ⟨_, _, rfl, rfl, rfl⟩) SameObjects.trans fun fault ↦ ?_
  cases fault with
  | none => exact immediate_read .refl fun _ ↦ ()
  | some f => exact immediate_raise .refl f

theorem immediate_unwatchEvents (type : Value) (q : Notify.QueueId) :
    (unwatchEvents type q).Immediate SameObjects := by
  refine Immediate.bind (Immediate.bind (immediate_lift .refl _) SameObjects.trans fun _ ↦
    immediate_op_of_looks (looks_look _)) SameObjects.trans fun type ↦ ?_
  refine Immediate.bind (fun w ↦ ⟨_, _, rfl, rfl, rfl⟩) SameObjects.trans fun fault ↦ ?_
  cases fault with
  | none => exact immediate_read .refl fun _ ↦ ()
  | some f => exact immediate_raise .refl f

end Activity

namespace Interp

open Activity

theorem immediate_nextMoment (timeTrigger : Value) :
    (nextMoment timeTrigger).Immediate SameInstant := by
  cases timeTrigger with
  | none => exact immediate_read .refl fun _ ↦ none
  | _ => exact immediate_secondsUntilNext _

theorem immediate_timeLeft (wait : Wait) : (timeLeft wait).Immediate SameInstant := by
  unfold timeLeft
  split
  · exact immediate_read .refl fun _ ↦ _
  · refine (immediate_read .refl _).bind SameInstant.trans fun now ↦
      (immediate_op (fun _ _ ↦ rfl) _).bind SameInstant.trans fun sum ↦
      (immediate_op (fun _ _ ↦ rfl) _).bind SameInstant.trans fun left ↦
      (immediate_op (fun _ _ ↦ rfl) _).bind SameInstant.trans fun isOver ↦ ?_
    split
    · exact immediate_read .refl fun _ ↦ _
    · split
      · exact (immediate_lift .refl _).bind SameInstant.trans fun _ ↦ immediate_read .refl fun _ ↦ _
      · exact immediate_read .refl fun _ ↦ _

theorem immediate_forget (names : List (Option String)) (eventTrigger : Value)
    (q : Notify.QueueId) : (forget names eventTrigger q).Immediate SameObjects := by
  refine Immediate.bind (immediate_each .refl SameObjects.trans _ fun name ↦ ?_) SameObjects.trans
    fun _ ↦ ?_
  · cases name with
    | some name => exact immediate_unwatchStates _ q
    | none => exact immediate_raise .refl _
  · have hevent (trigger : Value) :
        (op (Op.getItem trigger (.int 0)) >>= fun type ↦ unwatchEvents type q).Immediate
          SameObjects :=
      (immediate_op_of_looks (looks_getItem trigger 0)).bind SameObjects.trans fun type ↦
        immediate_unwatchEvents type q
    cases eventTrigger with
    | none => exact immediate_read .refl fun _ ↦ ()
    | _ => exact hevent _

/-! ### One round -/

def shorter (next left : Option Float) : Option Float :=
  next.elim left fun x ↦ left.elim (some x) fun y ↦ if x > y then some y else some x

variable {seconds : Float} {I : Interp} {n : Nat} {left next : Option Float} {wait : Wait}
  {e : WaitEnd} {u u₀ u₁ w' : World}

theorem shorter_eq_some (h : shorter next left = some seconds) :
    next = some seconds ∧ (∀ y, left = some y → ¬ seconds > y) ∨
      left = some seconds ∧ ∀ x, next = some x → x > seconds := by
  cases next with
  | none => exact .inr ⟨h, by simp⟩
  | some x =>
    cases left with
    | none => exact .inl ⟨h, by simp⟩
    | some y => grind [shorter]

theorem shorter_eq_none (h : shorter next left = none) : next = none ∧ left = none := by
  cases next with
  | none => exact ⟨rfl, h⟩
  | some x =>
    cases left with
    | none => cases h
    | some y =>
      replace h : (if x > y then some y else some x) = none := h
      split at h <;> cases h

/-- A round begins with this next moment and this time left. -/
def RoundBegins (wait : Wait) (u : World) (next : Option Float) (left : Option (Option Float))
    (u₁ : World) : Prop :=
  ∃ u₀, nextMoment wait.given.timeTrigger u = .ended (.ok next) u₀ ∧
    timeLeft wait u₀ = .ended (.ok left) u₁ ∧ u₁.elapsed = u.elapsed

def GoesOn (I : Interp) (wait : Wait) (u u' : World) : Prop :=
  ∃ next left m u₁ u₂, RoundBegins wait u next (some left) u₁ ∧
    (receiveFor wait.queue (shorter next left) u₁).Finishes scheduled (.ok (some m)) u₂ ∧
    (I.endsWait wait m u₂).Finishes scheduled (.ok none) u'

/-- How the last round ends. -/
inductive FinalRound (I : Interp) (wait : Wait) (u : World) (v : Value) (w' : World) : Prop
  /-- No time was left when it began. -/
  | overdue {next : Option Float} {u₁ : World} (h : RoundBegins wait u next none u₁)
    (hv : w'.Tells v "timeout")
  | idle {u₁ : World} (h : RoundBegins wait u none (some none) u₁)
    (hstate : wait.given.stateTrigger = .none) (hevent : wait.given.eventTrigger = .none)
    (hv : w'.Tells v "none")
  /-- The next moment of the time specification came, not after the end of patience. -/
  | time {x : Float} {left : Option Float} {u₁ : World}
    (h : RoundBegins wait u (some x) (some left) u₁) (hnext : u.Names wait.given.timeTrigger x)
    (hfirst : ∀ y, left = some y → ¬ x > y) (hpassed : u.Passed x w') (hv : w'.Tells v "time")
  /-- Patience ended, before the next moment if there was one. -/
  | late {next : Option Float} {y : Float} {u₁ : World}
    (h : RoundBegins wait u next (some (some y)) u₁) (hfirst : ∀ x, next = some x → x > y)
    (hpassed : u.Passed y w') (hv : w'.Tells v "time")
  /-- A message came in time, and ended the waiting with what it told. -/
  | message {next left : Option Float} {m : Value} {u₁ u₂ u₃ : World}
    (h : RoundBegins wait u next (some left) u₁)
    (hreceive : (receiveFor wait.queue (shorter next left) u₁).Finishes scheduled (.ok (some m)) u₂)
    (hearly : ∀ seconds, shorter next left = some seconds → ¬ u.Passed seconds u₂)
    (hends : (I.endsWait wait m u₂).Finishes scheduled (.ok (some v)) u₃)

theorem FinalRound.of_sameObjects {w : World} {v : Value} (h : FinalRound I wait u v w)
    (hsame : SameObjects w w') : FinalRound I wait u v w' := by
  obtain ⟨helapsed, hstore⟩ := hsame
  cases h with
  | overdue h hv => exact .overdue h (hv.of_store hstore)
  | idle h hstate hevent hv => exact .idle h hstate hevent (hv.of_store hstore)
  | time h hnext hfirst hpassed hv =>
    exact .time h hnext hfirst (World.Passed.congr hpassed rfl helapsed) (hv.of_store hstore)
  | late h hfirst hpassed hv =>
    exact .late h hfirst (World.Passed.congr hpassed rfl helapsed) (hv.of_store hstore)
  | message h hreceive hearly hends => exact .message h hreceive hearly hends

theorem names_of_nextMoment {timeTrigger : Value} {x : Float}
    (h : nextMoment timeTrigger u = .ended (.ok (some x)) u₀) : u.Names timeTrigger x := by
  have hnone : timeTrigger ≠ .none := by
    rintro rfl
    cases h
  have hseconds : secondsUntilNext timeTrigger u = .ended (.ok (some x)) u₀ := by
    cases timeTrigger with
    | none => exact absurd rfl hnone
    | _ => exact h
  have hrun : (secondsUntilNext timeTrigger u).Finishes scheduled (.ok (some x)) u₀ :=
    hseconds ▸ .ended _ _
  obtain ⟨specs, u₁, hspecs, hrun⟩ := hrun.of_bind_ok (s := specsOf timeTrigger u)
  obtain ⟨hspecs, rfl⟩ := (immediate_specsOf timeTrigger).eq_ended hspecs
  obtain ⟨next, u₁, hreading, hrun⟩ := Step.Finishes.of_bind_ok
    (s := reading (Schedule.next u.sun specs u.now) u) hrun
  obtain ⟨warnings, hnext⟩ := reading_ok hreading
  cases next with
  | none => cases hrun
  | some t =>
    obtain ⟨hx, -⟩ := Step.finishes_ended.1 hrun
    have hx : some (Calendar.Duration.toSeconds (t.since u.now)) = some x := Except.ok.inj hx
    exact ⟨hnone, specs, t, warnings, hspecs, hnext, (Option.some.inj hx).symm⟩

def waitingFor (I : Interp) (wait : Wait) (n : Nat) (patience : Option Float) : Activity WaitEnd :=
  if patience.isNone && wait.given.stateTrigger.isNone && wait.given.eventTrigger.isNone then do
    return .abrupt (← outcome "none")
  else do
    (← receiveFor wait.queue patience).elim (do return .clean (← outcome "time")) fun m ↦ do
      (← I.endsWait wait m).elim (I.waitRounds wait n) fun v ↦ return .clean v

theorem waitRounds_succ (I : Interp) (wait : Wait) (n : Nat) :
    I.waitRounds wait (n + 1) = (do
      let next ← nextMoment wait.given.timeTrigger
      (← timeLeft wait).elim (do return .clean (← outcome "timeout")) fun left ↦
        I.waitingFor wait n (shorter next left)) := by
  unfold waitRounds
  congr 1
  funext next
  congr 1
  funext left
  cases left with
  | none => rfl
  | some left =>
    cases next <;> cases left <;>
    · refine ite_congr rfl (fun _ ↦ rfl) fun _ ↦ ?_
      congr 1
      funext message
      cases message with
      | none => rfl
      | some m => grind

def WaitEnd.value : WaitEnd → Value
  | .clean v => v
  | .abrupt v => v

theorem round_cases (h : (I.waitRounds wait (n + 1) u).Finishes scheduled (.ok e) w') :
    FinalRound I wait u e.value w' ∨
      ∃ u', GoesOn I wait u u' ∧ (I.waitRounds wait n u').Finishes scheduled (.ok e) w' := by
  rw [waitRounds_succ] at h
  obtain ⟨next, u₀, hnext, h⟩ := h.of_bind_ok (s := nextMoment _ u)
  obtain ⟨left, u₁, hleft, h⟩ := h.of_bind_ok (s := timeLeft wait u₀)
  obtain ⟨hnext, hsame⟩ := (immediate_nextMoment _).eq_ended hnext
  obtain ⟨hleft, hsame'⟩ := (immediate_timeLeft wait).eq_ended hleft
  have hinstant : u₁.elapsed = u.elapsed := Eq.trans hsame' hsame
  have hbegins : RoundBegins wait u next left u₁ := ⟨u₀, hnext, hleft, hinstant⟩
  cases left with
  | none =>
    obtain ⟨v, rfl, hv, -⟩ := tells_of_outcome (f := WaitEnd.clean) h
    exact .inl (.overdue hbegins hv)
  | some left =>
    replace h : (I.waitingFor wait n (shorter next left) u₁).Finishes scheduled (.ok e) w' := h
    unfold waitingFor at h
    split at h
    · rename_i hidle
      obtain ⟨v, rfl, hv, -⟩ := tells_of_outcome (f := WaitEnd.abrupt) h
      simp only [Bool.and_eq_true, Option.isNone_iff_eq_none, Value.isNone_iff] at hidle
      obtain ⟨⟨hpatience, hstate⟩, hevent⟩ := hidle
      obtain ⟨rfl, rfl⟩ := shorter_eq_none hpatience
      exact .inl (.idle hbegins hstate hevent hv)
    · obtain ⟨message, u₂, hreceive, h⟩ := h.of_bind_ok (s := receiveFor _ _ u₁)
      cases message with
      | none =>
        obtain ⟨v, rfl, hv, helapsed⟩ := tells_of_outcome (f := WaitEnd.clean) h
        obtain ⟨seconds, hseconds, hpassed⟩ := receiveFor_none hreceive
        have hpassed' := World.Passed.congr hpassed hinstant helapsed
        rcases shorter_eq_some hseconds with ⟨rfl, hfirst⟩ | ⟨rfl, hfirst⟩
        · exact .inl (.time hbegins (names_of_nextMoment hnext) hfirst hpassed' hv)
        · exact .inl (.late hbegins hfirst hpassed' hv)
      | some m =>
        obtain ⟨ended, u₃, hends, h⟩ := h.of_bind_ok (s := I.endsWait wait m u₂)
        cases ended with
        | none => exact .inr ⟨u₃, ⟨next, left, m, u₁, u₂, hbegins, hreceive, hends⟩, h⟩
        | some v =>
          obtain ⟨he, rfl⟩ := Step.finishes_ended.1 h
          obtain rfl : WaitEnd.clean v = e := Except.ok.inj he
          refine .inl (.message hbegins hreceive (fun seconds hs hpassed ↦ ?_) hends)
          exact receiveFor_some hreceive seconds hs
            (World.Passed.congr hpassed hinstant.symm rfl)

theorem rounds_cases (h : (I.waitRounds wait n u₀).Finishes scheduled (.ok e) w') :
    ∃ u, Relation.ReflTransGen (GoesOn I wait) u₀ u ∧ FinalRound I wait u e.value w' := by
  induction n generalizing u₀ with
  | zero => cases h
  | succ n ih =>
    rcases round_cases h with hlast | ⟨u', hgoes, hrest⟩
    · exact ⟨u₀, .refl, hlast⟩
    · obtain ⟨u, hrounds, hlast⟩ := ih hrest
      exact ⟨u, .head hgoes hrounds, hlast⟩

theorem waitRounds_bounded (I : Interp) (n : Nat) (hbegins : RoundBegins wait u next (some left) u₁)
    (hshorter : shorter next left = some seconds) (hpositive : ¬ seconds ≤ 0) :
    ∃ resume, I.waitRounds wait (n + 1) u =
        .waiting (.receive wait.queue (some (u.instantAfter seconds))) u₁ resume ∧
      ∀ w', resume .late w' = .ended (.ok (.clean (.dict w'.store.objects.size)))
        (w'.withObject (telling "time")) := by
  obtain ⟨u₀, hnext, hleft, hinstant⟩ := hbegins
  have hdeadline : u₁.instantAfter seconds = u.instantAfter seconds := by
    rw [World.instantAfter, World.seconds, hinstant, World.instantAfter, World.seconds]
  rw [waitRounds_succ]
  show ∃ resume, (nextMoment wait.given.timeTrigger u).bind _ = _ ∧ _
  rw [hnext]
  show ∃ resume, (timeLeft wait u₀).bind _ = _ ∧ _
  rw [hleft, ← hdeadline]
  show ∃ resume, I.waitingFor wait n (shorter next left) u₁ = _ ∧ _
  rw [hshorter]
  obtain ⟨resume, hreceive, hlate⟩ := receiveFor_apply (q := wait.queue) (w := u₁) hpositive
  show ∃ resume, (receiveFor wait.queue (some seconds) u₁).bind _ = _ ∧ _
  rw [hreceive]
  refine ⟨_, rfl, fun w' ↦ ?_⟩
  rw [hlate]
  rfl

theorem waitRounds_overdue (I : Interp) (n : Nat) (hbegins : RoundBegins wait u next none u₁) :
    I.waitRounds wait (n + 1) u = .ended (.ok (.clean (.dict u₁.store.objects.size)))
      (u₁.withObject (telling "timeout")) := by
  obtain ⟨u₀, hnext, hleft, -⟩ := hbegins
  rw [waitRounds_succ]
  show (nextMoment wait.given.timeTrigger u).bind _ = _
  rw [hnext]
  show (timeLeft wait u₀).bind _ = _
  rw [hleft]
  rfl

end Interp

/-! ### The waiting as a whole -/

def Waiting.NoTrigger (given : Waiting) : Prop :=
  given.stateTrigger = .none ∧ given.timeTrigger = .none ∧ given.eventTrigger = .none

namespace Interp

open Activity

/-- How the waiting as a whole ends. -/
inductive Answer (I : Interp) (given : Waiting) (w : World) (v : Value) (w' : World) : Prop
  | nothing (h : given.NoTrigger) (hnone : given.timeout = .none) (hv : w'.Tells v "none")
  | slept {x : Num} {seconds : Float} (h : given.NoTrigger) (hx : given.timeout.num? = some x)
    (hseconds : x.toFloat = .ok seconds) (hpassed : w.Passed seconds w') (hv : w'.Tells v "timeout")
  | state {e : ContextId} {w₁ w₂ : World} (h : given.stateTrigger ≠ .none)
    (hholds : (I.holds (some e) .none w₁).Finishes scheduled (.ok true) w₂)
      (hv : w'.Tells v "state")
  | waited {wait : Wait} {u₀ u : World} (h : ¬ given.NoTrigger) (hgiven : wait.given = given)
    (hbegan : wait.began = u₀.seconds) (hrounds : Relation.ReflTransGen (GoesOn I wait) u₀ u)
    (hlast : FinalRound I wait u v w')

variable {I : Interp} {v : Value} {given : Waiting} {w w' : World}

theorem order_int_of_not_num (s : Store) (op : Syntax.Comparison) (h : v.num? = none) (n : Int) :
    ∃ f, Value.order s op v (.int n) = .error f := by
  have hint : (Value.int n).num? = some (.int n) := rfl
  unfold Value.order comparisonDepth Value.orderTo
  simp only [h, hint]
  exact ⟨_, rfl⟩

theorem waitOnly_of_ne_none {timeout : Value} (h : timeout ≠ .none) :
    waitOnly timeout = (do
      let s ← read (·.store)
      let _ ← lift (Value.order s .ltE timeout (.int 0))
      timeout.num?.elim (outcome "timeout") fun x ↦ do
        sleep (← lift x.toFloat)
        outcome "timeout") := by
  cases timeout with
  | none => exact absurd rfl h
  | _ => rfl

theorem answer_waitOnly (hnone : given.NoTrigger)
    (h : (waitOnly given.timeout w).Finishes scheduled (.ok v) w') : Answer I given w v w' := by
  by_cases htimeout : given.timeout = .none
  · rw [htimeout] at h
    obtain ⟨_, rfl, hv, -⟩ := tells_of_outcome (f := id) h
    exact .nothing hnone htimeout hv
  · rw [waitOnly_of_ne_none htimeout] at h
    obtain ⟨positive, w₁, horder, h⟩ := h.of_bind_ok (s := lift _ w)
    cases hx : given.timeout.num? with
    | none =>
      obtain ⟨f, hf⟩ := order_int_of_not_num w.store .ltE hx 0
      rw [hf] at horder
      cases horder
    | some x =>
      rw [hx] at h
      obtain ⟨-, rfl⟩ := finishes_lift horder
      obtain ⟨seconds, w₁, hseconds, h⟩ := h.of_bind_ok (s := lift x.toFloat w)
      obtain ⟨_, w₂, hsleep, h⟩ := h.of_bind_ok (s := sleep seconds w₁)
      obtain ⟨_, rfl, hv, helapsed⟩ := tells_of_outcome (f := id) h
      obtain ⟨hok, rfl⟩ := finishes_lift hseconds
      exact .slept hnone hx hok (World.Passed.congr (passed_of_sleep hsleep) rfl helapsed) hv

theorem answer_of_finishes {c : ContextId}
    (h : (I.waitUntil c given w).Finishes scheduled (.ok v) w') : Answer I given w v w' := by
  unfold waitUntil at h
  split at h
  · rename_i hnone
    simp only [Bool.and_eq_true, Value.isNone_iff] at hnone
    exact answer_waitOnly ⟨hnone.1.1, hnone.1.2, hnone.2⟩ h
  · rename_i hsome
    have htrigger : ¬ given.NoTrigger := by
      rintro ⟨hstate, htime, hevent⟩
      exact hsome (by rw [hstate, htime, hevent]; rfl)
    obtain ⟨queue, w₁, -, h⟩ := h.of_bind_ok (s := modifyGet _ w)
    obtain ⟨stateExpr, w₂, hstate, h⟩ := h.of_bind_ok (s := stateContext c _ w₁)
    obtain ⟨now, w₃, hnow, h⟩ := h.of_bind_ok (s := I.holdsNow stateExpr w₂)
    cases now with
    | true =>
      obtain ⟨_, rfl, hv, -⟩ := tells_of_outcome (f := id) h
      cases stateExpr with
      | none => cases hnow
      | some e =>
        refine .state (fun hnone ↦ ?_) hnow hv
        rw [hnone] at hstate
        cases hstate
    | false =>
      obtain ⟨names, w₄, -, h⟩ := h.of_bind_ok (s := watchedNames stateExpr w₃)
      obtain ⟨_, w₅, -, h⟩ := h.of_bind_ok (s := watchNames names queue w₄)
      obtain ⟨eventTrigger, w₆, -, h⟩ := h.of_bind_ok (s := eventList _ w₅)
      obtain ⟨eventExpr, w₇, -, h⟩ := h.of_bind_ok (s := eventContext c _ queue w₆)
      obtain ⟨e, w₈, hrounds, h⟩ := h.of_bind_ok (s := I.waitRounds _ roundLimit w₇)
      obtain ⟨u, hgone, hlast⟩ := rounds_cases hrounds
      have hanswer {w' : World} (hlast : FinalRound I _ u e.value w') :
          Answer I given w e.value w' :=
        .waited htrigger rfl rfl hgone hlast
      cases e with
      | abrupt v =>
        cases h
        exact hanswer hlast
      | clean v =>
        obtain ⟨_, w₉, hforget, h⟩ := h.of_bind_ok (s := forget _ _ _ w₈)
        cases h
        exact hanswer (hlast.of_sameObjects ((immediate_forget _ _ _).eq_ended hforget).2)

end Interp

/-- **How waiting ends.** Every run that gives an answer gives one of those listed in
`Interp.Answer`. A round that waits with a bound says `time` when the bound is reached, whichever it
was, and a round says `timeout` only if no time is left when it begins. -/
theorem wait_until_answer (I : Interp) (c : ContextId) (given : Waiting) :
    (∀ w v w', (I.waitUntil c given w).Finishes scheduled (.ok v) w' →
      Interp.Answer I given w v w') ∧
    (∀ (wait : Interp.Wait) (n : Nat) (u u₁ : World) (next left : Option Float) (seconds : Float),
      Interp.RoundBegins wait u next (some left) u₁ → Interp.shorter next left = some seconds →
      ¬ seconds ≤ 0 → ∃ resume, I.waitRounds wait (n + 1) u =
          .waiting (.receive wait.queue (some (u.instantAfter seconds))) u₁ resume ∧
        ∀ w', resume .late w' = .ended (.ok (.clean (.dict w'.store.objects.size)))
          (w'.withObject (telling "time"))) ∧
    (∀ (wait : Interp.Wait) (n : Nat) (u u₁ : World) (next : Option Float),
      Interp.RoundBegins wait u next none u₁ → I.waitRounds wait (n + 1) u =
        .ended (.ok (.clean (.dict u₁.store.objects.size))) (u₁.withObject (telling "timeout"))) :=
  ⟨fun _ _ _ h ↦ Interp.answer_of_finishes h,
    fun _ n _ _ _ _ _ hbegins hshorter hpositive ↦
      I.waitRounds_bounded n hbegins hshorter hpositive,
    fun _ n _ _ _ hbegins ↦ I.waitRounds_overdue n hbegins⟩

def waitingWorld : World where
  start := default
  tables := #[{}]
  contexts := #[{ name := "f", globals := 0, current := 0, locals := 0 }]

def saying? (p : Except Stop Value × World) : Option (String × Instant) :=
  match p.1 with
  | .ok v => (p.2.told? v).map fun type ↦ (type, p.2.elapsed)
  | .error _ => none

theorem exists_of_saying {s : Step Value} (t : TaskId) (instants : List Instant) {type : String}
    {i : Instant} (h : (s.replay t instants).bind saying? = some (type, i)) :
    ∃ v w', s.Finishes scheduled (.ok v) w' ∧ w'.Tells v type ∧ w'.elapsed = i := by
  obtain ⟨⟨r, w'⟩, hreplay, hsays⟩ := Option.bind_eq_some_iff.1 h
  cases r with
  | error e => cases hsays
  | ok v =>
    obtain ⟨type', htold, heq⟩ := Option.map_eq_some_iff.1 hsays
    cases heq
    exact ⟨v, w', (Step.finishes_of_replay hreplay).mono fun _ _ _ _ ↦
      Step.scheduled_of_undisturbed, World.told?_eq_some.1 htold, rfl⟩

/-- Two seconds after midnight a script that waits for that time is told that the time has come. -/
theorem wait_until_answer_once : ∃ v w',
    (Interp.full.waitUntil 0 { timeTrigger := .text "once(00:00:02)", timeout := .int 5 }
      waitingWorld).Finishes scheduled (.ok v) w' ∧ w'.Tells v "time" ∧ w'.elapsed = 2000000 ∧
    Interp.Answer Interp.full { timeTrigger := .text "once(00:00:02)", timeout := .int 5 }
      waitingWorld v w' := by
  obtain ⟨v, w', hrun, htells, helapsed⟩ : ∃ v w',
      (Interp.full.waitUntil 0 { timeTrigger := .text "once(00:00:02)", timeout := .int 5 }
        waitingWorld).Finishes scheduled (.ok v) w' ∧ w'.Tells v "time" ∧ w'.elapsed = 2000000 :=
    exists_of_saying 0 [2000000] (by decide +kernel)
  exact ⟨v, w', hrun, htells, helapsed, (wait_until_answer Interp.full 0 _).1 _ v w' hrun⟩

/-- **Patience that ends is called a time**, though the script waits for an event only. -/
theorem ended_patience_says_time : ∃ v w',
    (Interp.full.waitUntil 0 { eventTrigger := .text "ring", timeout := .int 1 }
      waitingWorld).Finishes scheduled (.ok v) w' ∧ w'.Tells v "time" ∧
    waitingWorld.Passed 1 w' := by
  obtain ⟨v, w', hrun, htells, helapsed⟩ : ∃ v w',
      (Interp.full.waitUntil 0 { eventTrigger := .text "ring", timeout := .int 1 }
        waitingWorld).Finishes scheduled (.ok v) w' ∧ w'.Tells v "time" ∧ w'.elapsed = 1000000 :=
    exists_of_saying 0 [1000000] (by decide +kernel)
  refine ⟨v, w', hrun, htells, .inr ?_⟩
  rw [helapsed]
  decide +kernel

end TriggerScript
