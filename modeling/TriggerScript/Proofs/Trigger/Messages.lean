import TriggerScript.Proofs.Evaluation.Patience
import TriggerScript.Proofs.Notify.History
import TriggerScript.Proofs.Trigger.Rounds

/-!
# Messages and times of a trigger

The messages that begin rounds are those that were put into the queue, in order and each of them
once. The history of the queue is that of the rounds (`Told`), so no round starts two tasks and no
task is started between rounds.
-/

namespace TriggerScript

open Notify (QueueId messagesOf)

/-- What a round is begun by: a message, one of two kinds of time, or nothing at all. -/
inductive Begun where
  | message (m : Value)
  | late
  | turn
  | nothing

/-- A round of watching: what began it, and the call of the function that it started. -/
structure Round where
  begun : Begun
  call : Option (Job × Store)

namespace Begun

def IsTime (b : Begun) : Prop := b = late ∨ b = turn

def message? : Begun → Option Value
  | message m => some m
  | _ => none

def occurrences : Begun → List Occurrence
  | message m => [.taken m]
  | late => [.late]
  | turn => [.turn]
  | nothing => []

end Begun

namespace Round

def occurrences (r : Round) : List Occurrence :=
  r.begun.occurrences ++ (r.call.map fun p ↦ .called p.1 p.2).toList

/-- The call is one of the trigger's function; a time tells that it is one and nothing else. -/
structure Sound (t : Trigger) (r : Round) : Prop where
  begun : r.begun = .nothing → t.hasTrigger = false
  call : ∀ job s, r.call = some (job, s) → ∃ f named, t.action = some f ∧
    job = .call f t.context [] named ∧
    (r.begun.IsTime → ∃ d, named = .dict d ∧ s.dictAt d = [(.text "trigger_type", .text "time")])

end Round

def chronicle (rs : List Round) : List Occurrence := rs.flatMap (·.occurrences)

def handled (rs : List Round) : List Value := rs.filterMap (·.begun.message?)

/-- The history is that of the rounds, but for what has no weight. -/
structure Told (rs : List Round) (H : List Occurrence) : Prop where
  sublist : (chronicle rs).Sublist H
  weighty : H.filter (·.weighty) = (chronicle rs).filter (·.weighty)

namespace Told

variable {rs : List Round} {H : List Occurrence}

theorem nil : Told [] [] := ⟨.slnil, rfl⟩

theorem stable (rs : List Round) : Stable (Told rs) := by
  intro H o h ho
  refine ⟨h.sublist.trans (List.sublist_append_left H [o]), ?_⟩
  rw [List.filter_append, h.weighty]
  simp [ho]

theorem concat_put (h : Told rs H) (ms : List Value) : Told rs (H ++ ms.map .put) := by
  refine (stable rs).append h fun o ho ↦ ?_
  obtain ⟨m, -, rfl⟩ := List.mem_map.1 ho
  rfl

theorem extend {rs' : List Round} {os : List Occurrence} (h : Told rs H)
    (hos : chronicle rs' = chronicle rs ++ os) : Told rs' (H ++ os) := by
  refine ⟨?_, ?_⟩
  · rw [hos]
    exact h.sublist.append (.refl _)
  · rw [hos, List.filter_append, List.filter_append, h.weighty]

theorem begins (h : Told rs H) (b : Begun) : Told (rs ++ [⟨b, none⟩]) (H ++ b.occurrences) :=
  h.extend (by simp [chronicle, Round.occurrences])

theorem launch {b : Begun} (h : Told (rs ++ [⟨b, none⟩]) H) (job : Job) (s : Store) :
    Told (rs ++ [⟨b, some (job, s)⟩]) (H ++ [.called job s]) :=
  h.extend (by simp [chronicle, Round.occurrences])

theorem takes_eq (h : Told rs H) : takes H = handled rs := by
  have hweighty (H : List Occurrence) : takes (H.filter (·.weighty)) = takes H := by
    induction H with
    | nil => rfl
    | cons o H ih => cases o <;> simpa [takes, Occurrence.taken?, Occurrence.weighty] using ih
  have hchronicle : takes (chronicle rs) = handled rs := by
    clear h
    induction rs with
    | nil => rfl
    | cons r rs ih =>
      obtain ⟨b, call⟩ := r
      show takes (Round.occurrences ⟨b, call⟩ ++ chronicle rs) = _
      rw [takes_append, ih]
      cases b <;> cases call <;> rfl
  rw [← hweighty H, h.weighty, hweighty, hchronicle]

end Told

/-! ### One round -/

/-- At most one round has followed. -/
def Onward (t : Trigger) (rs : List Round) (H : List Occurrence) : Prop :=
  ∃ new : List Round, new.length ≤ 1 ∧ (∀ r ∈ new, r.Sound t) ∧ Told (rs ++ new) H

def Started (rs : List Round) (b : Begun) (H : List Occurrence) : Prop := Told (rs ++ [⟨b, none⟩]) H

def Dealt (t : Trigger) (rs : List Round) (b : Begun) (H : List Occurrence) : Prop :=
  ∃ call, Round.Sound t ⟨b, call⟩ ∧ Told (rs ++ [⟨b, call⟩]) H

def Trigger.Begins (t : Trigger) (b : Begun) : Prop := b = .nothing → t.hasTrigger = false

section

variable {t : Trigger} {rs : List Round} {b : Begun} {H : List Occurrence}

theorem Begun.IsTime.begins (h : b.IsTime) : t.Begins b := by
  rintro rfl
  rcases h with h | h <;> cases h

theorem Trigger.begins_message (m : Value) : t.Begins (.message m) := nofun

theorem Begun.not_isTime_message (m : Value) : ¬ (Begun.message m).IsTime := by
  rintro (h | h) <;> cases h

theorem Begun.not_isTime_nothing : ¬ Begun.nothing.IsTime := by
  rintro (h | h) <;> cases h

theorem Started.dealt (hb : t.Begins b) (h : Started rs b H) : Dealt t rs b H :=
  ⟨none, ⟨hb, nofun⟩, h⟩

theorem Dealt.onward (h : Dealt t rs b H) : Onward t rs H := by
  obtain ⟨call, hsound, htold⟩ := h
  refine ⟨[⟨b, call⟩], Nat.le_refl _, fun r hr ↦ ?_, htold⟩
  obtain rfl := List.mem_singleton.1 hr
  exact hsound

theorem Told.onward (h : Told rs H) : Onward t rs H :=
  ⟨[], Nat.zero_le _, nofun, by rwa [List.append_nil]⟩

end

namespace Activity

variable {α β : Type} {task : TaskId} {t : Trigger} {b : Begun}

def Deals (task : TaskId) (t : Trigger) (b : Begun) (x : Activity α) : Prop :=
  ∀ rs, x.Recounts task t.queue (Started rs b) (Dealt t rs b) fun _ ↦ Dealt t rs b

theorem deals_of_aloof {x : Activity α} (hb : t.Begins b)
    (hx : (minding.regime .aloof).Obeys default x) : x.Deals task t b :=
  fun _ ↦ (recounts_of_aloof hx (Told.stable _) fun _ ↦ Started.dealt hb).mono (fun _ h ↦ h)
    (fun _ h ↦ h) fun _ _ ↦ Started.dealt hb

theorem deals_after {x : Activity α} {f : α → Activity β} (hb : t.Begins b)
    (hx : (minding.regime .aloof).Obeys default x) (hf : ∀ a, (f a).Deals task t b) :
    (x >>= f).Deals task t b :=
  fun rs ↦ (recounts_of_aloof hx (Told.stable _) fun _ ↦ Started.dealt hb).bind (fun a ↦ hf a rs)
    fun _ _ ↦ Started.dealt hb

theorem Deals.ite {p : Prop} [Decidable p] {x y : Activity α} (hx : x.Deals task t b)
    (hy : y.Deals task t b) : (if p then x else y).Deals task t b :=
  fun rs ↦ (hx rs).ite (hy rs)

theorem recounts_launch {rs : List Round} {H : List Occurrence} {w : World} {named : Value}
    (hb : t.Begins b) (hH : Started rs b H) (hlt : t.queue < w.queues.size)
    (htime : b.IsTime → ∃ d, named = .dict d ∧
      w.store.dictAt d = [(.text "trigger_type", .text "time")]) :
    (launch t named w).Recounts task t.queue (Step.Knowing t.queue (Dealt t rs b))
      (fun _ ↦ Step.Knowing t.queue (Dealt t rs b)) H w := by
  unfold launch
  cases haction : t.action with
  | none =>
    refine ⟨[], .refl w, ?_, hlt⟩
    rw [List.append_nil]
    exact hH.dealt hb
  | some f =>
    refine ⟨[.called (.call f t.context [] named) w.store], .call .logged _ w, ?_, hlt⟩
    refine ⟨some (.call f t.context [] named, w.store), ⟨hb, ?_⟩, hH.launch _ _⟩
    rintro job s ⟨⟩
    exact ⟨f, named, haction, rfl, htime⟩

theorem deals_launch (hb : t.Begins b) (hnot : ¬ b.IsTime) (named : Value) :
    (launch t named).Deals task t b :=
  fun _ _ _ hH hlt ↦ recounts_launch hb hH hlt fun h ↦ absurd h hnot

theorem deals_launch_time (htime : b.IsTime) : (outcome "time" >>= launch t).Deals task t b := by
  intro rs H w hH hlt
  have hcalm : w.Calm t.queue (w.withObject (telling "time")) := .of_eq rfl rfl
  have hdict : (w.withObject (telling "time")).store.dictAt w.store.objects.size =
      [(.text "trigger_type", .text "time")] := by
    simp [World.withObject, Store.push, Store.dictAt, Store.get?, telling]
  have hrun : (launch t (.dict w.store.objects.size) (w.withObject (telling "time"))).Recounts task
      t.queue
      (Step.Knowing t.queue (Dealt t rs b)) (fun _ ↦ Step.Knowing t.queue (Dealt t rs b)) (H ++ [])
      (w.withObject (telling "time")) := by
    rw [List.append_nil]
    exact recounts_launch htime.begins hH hlt fun _ ↦ ⟨_, rfl, hdict⟩
  exact hrun.after (.quiet (.of_eq rfl rfl) hcalm)

end Activity

namespace Interp

open Activity

variable {task : TaskId} {t : Trigger} {b : Begun} {I : Interp}
    (hI : (minding.regime .aloof).Obeyed I)

include hI

theorem deals_onTime (htime : b.IsTime) : (I.onTime t).Deals task t b := by
  have hpass : (pure () : Activity Unit).Deals task t b :=
    deals_of_aloof htime.begins (Regime.pure _ ())
  refine deals_after htime.begins (hI.holds (fun _ _ ↦ trivial) _) fun _ ↦ .ite ?_ hpass
  exact deals_after htime.begins (Regime.Obeyed.activeIfGiven _) fun _ ↦
    .ite (deals_launch_time htime) hpass

theorem deals_onState (hb : t.Begins b) (hnot : ¬ b.IsTime) (info : Value) :
    (I.onState t info).Deals task t b := by
  have hpass : (pure () : Activity Unit).Deals task t b := deals_of_aloof hb (Regime.pure _ ())
  refine deals_after hb (Regime.Obeyed.unpackIfGiven info) fun parts ↦ ?_
  refine deals_after hb (hI.conditionsHold (fun _ ↦ trivial) t _ _) fun _ ↦ .ite ?_ hpass
  -- the condition is looked at once more, and only the task after it counts
  refine .ite (deals_after hb (hI.holds (fun _ _ ↦ trivial) _) fun _ ↦ ?_) hpass
  exact deals_launch hb hnot _

theorem deals_onEvent (hb : t.Begins b) (hnot : ¬ b.IsTime) (info : Value) :
    (I.onEvent t info).Deals task t b := by
  refine deals_after hb (hI.conditionsHold (fun _ ↦ trivial) t _ _) fun _ ↦ ?_
  exact .ite (deals_launch hb hnot info) (deals_of_aloof hb (Regime.pure _ ()))

theorem deals_onMessage (hb : t.Begins b) (hnot : ¬ b.IsTime) (type info : Value) :
    (I.onMessage t type info).Deals task t b := by
  refine deals_after hb (Regime.read _ _) fun s ↦ .ite (deals_onState hI hb hnot info)
    (.ite (deals_onEvent hI hb hnot info) ?_)
  exact deals_of_aloof hb (Regime.bind _ (Regime.op _ _) fun _ ↦ Regime.say _ _ _ _)

end Interp

/-! ### What begins a round -/

namespace Activity

variable {task : TaskId} {t : Trigger} {rs : List Round}

def Awaited (t : Trigger) (rs : List Round) : Except Stop Arrival → List Occurrence → Prop
  | .ok .time, H => ∃ b : Begun, b.IsTime ∧ Started rs b H
  | .ok (.message _ _), H => ∃ m, Started rs (.message m) H
  | .ok .nothing, H => t.hasTrigger = false ∧ Started rs .nothing H
  | .error _, H => Onward t rs H

def Received (rs : List Round) (deadline : Option Instant) : Except Stop Reply → List Occurrence →
    Prop
  | .ok (.message m), H => Started rs (.message m) H
  | .ok .late, H => deadline ≠ none ∧ Started rs .late H
  | .ok _, _ => False
  | .error _, H => Told rs H

theorem recounts_ask_receive (deadline : Option Instant) :
    (ask (.receive t.queue deadline)).Recounts task t.queue (Told rs) (Onward t rs)
      (Received rs deadline) := by
  refine recounts_ask _ (fun _ ↦ Told.onward) (fun H w ms reply w' hH hresumption hne ↦ ?_)
    fun H ms hH ↦
    hH.concat_put ms
  obtain ⟨-, -, hanswer⟩ := hresumption
  cases World.answers_of_answer? hanswer with
  | cancelled _ => exact absurd rfl hne
  | late hlate =>
    refine ⟨?_, ?_⟩
    · rintro rfl
      cases hlate
    · rw [Request.told, if_pos rfl]
      exact (hH.concat_put ms).begins .late
  | @message r _ name m rest _ _ =>
    rw [Request.told, if_pos rfl]
    exact (hH.concat_put ms).begins (.message m)

def Turned {α : Type} (rs : List Round) : Except Stop α → List Occurrence → Prop
  | .ok _, H => Started rs .turn H
  | .error _, H => Told rs H

theorem recounts_yieldTurn : yieldTurn.Recounts task t.queue (Told rs) (Onward t rs)
    (Turned rs) := by
  have hask : (ask .turn).Recounts task t.queue (Told rs) (Onward t rs) (Turned rs) := by
    refine recounts_ask _ (fun _ ↦ Told.onward) (fun H w ms reply w' hH hresumption hne ↦ ?_)
      fun H ms hH ↦
      hH.concat_put ms
    obtain ⟨-, -, hanswer⟩ := hresumption
    cases World.answers_of_answer? hanswer with
    | cancelled _ => exact absurd rfl hne
    | turn => exact (hH.concat_put ms).begins .turn
  exact hask.bind (fun _ ↦ recounts_pure fun _ h ↦ h) fun _ _ h ↦ h

def Waited (rs : List Round) : Except Stop (Option Value) → List Occurrence → Prop
  | .ok (some m), H => Started rs (.message m) H
  | .ok none, H => ∃ b : Begun, b.IsTime ∧ Started rs b H
  | .error _, H => Told rs H

theorem recounts_receiveWithin (seconds : Float) :
    (receiveWithin t.queue seconds).Recounts task t.queue (Told rs) (Onward t rs) (Waited rs) := by
  unfold receiveWithin
  split
  · refine recounts_yieldTurn.bind (fun _ ↦ recounts_pure fun _ h ↦ ?_) fun _ _ h ↦ h
    exact ⟨.turn, .inr rfl, h⟩
  · have hworld : world.Recounts task t.queue (Told rs) (Onward t rs) fun _ ↦ Told rs :=
      recounts_of_aloof (Regime.world _) (Told.stable rs) fun _ ↦ Told.onward
    refine hworld.bind (fun w ↦ ?_) fun _ _ h ↦ h
    refine (recounts_ask_receive _).bind (fun reply ↦ ?_) fun _ _ h ↦ h
    cases reply with
    | message m => exact recounts_pure fun _ h ↦ h
    | late => exact recounts_pure fun _ h ↦ ⟨.late, .inl rfl, h.2⟩
    | _ => exact recounts_pure fun _ h ↦ h.elim

def Taken (rs : List Round) : Except Stop Value → List Occurrence → Prop
  | .ok m, H => Started rs (.message m) H
  | .error _, H => Told rs H

def Looked (rs : List Round) : Except Stop (Option Value) → List Occurrence → Prop
  | .ok (some m), H => Started rs (.message m) H
  | _, H => Told rs H

theorem recounts_takeMessage :
    (takeMessage t.queue).Recounts task t.queue (Told rs) (Onward t rs) (Looked rs) := by
  refine recounts_of_ended fun H w hH _ ↦ ?_
  unfold takeMessage modifyGet
  dsimp only
  split
  · rename_i name m rest hqueue
    exact ⟨_, _, _, rfl, .take hqueue, hH.begins (.message m)⟩
  · exact ⟨[], _, _, rfl, .refl w, by rwa [List.append_nil]⟩

theorem recounts_receive : (receive t.queue).Recounts task t.queue (Told rs) (Onward t rs)
    (Taken rs) := by
  refine recounts_takeMessage.bind (fun message ↦ ?_) fun _ _ h ↦ h
  cases message with
  | some m => exact recounts_pure fun _ h ↦ h
  | none =>
    refine (recounts_ask_receive none).bind (fun reply ↦ ?_) fun _ _ h ↦ h
    cases reply with
    | message m => exact recounts_pure fun _ h ↦ h
    | late => exact recounts_pure fun _ h ↦ absurd rfl h.1
    | _ => exact recounts_pure fun _ h ↦ h.elim

theorem recounts_unpack (m : Value) {f : Value × Value → Activity Arrival}
    (hf : ∀ type info, f (type, info) = pure (.message type info)) :
    (unpack m >>= f).Recounts task t.queue (Started rs (.message m)) (Onward t rs)
    (Awaited t rs) := by
  have hstarted (H : List Occurrence) (h : Started rs (.message m) H) : Onward t rs H :=
    (h.dealt (Trigger.begins_message m)).onward
  refine (recounts_of_aloof (Regime.Obeyed.unpack m) (Told.stable _) hstarted).bind (fun parts ↦ ?_)
    fun _ ↦ hstarted
  obtain ⟨type, info⟩ := parts
  rw [hf]
  exact recounts_pure fun _ h ↦ ⟨m, h⟩

theorem recounts_await :
    (await t).Recounts task t.queue (Told rs) (Onward t rs) (Awaited t rs) := by
  have hpatience : (patienceOf t).Recounts task t.queue (Told rs) (Onward t rs) fun _ ↦ Told rs :=
    recounts_of_aloof (Regime.Obeyed.patienceOf t) (Told.stable rs) fun _ ↦ Told.onward
  refine hpatience.bind (fun patience ↦ ?_) fun _ _ ↦ Told.onward
  cases patience with
  | some seconds =>
    refine (recounts_receiveWithin seconds).bind (fun message ↦ ?_) fun _ _ ↦ Told.onward
    cases message with
    | none => exact recounts_pure fun _ h ↦ h
    | some m => exact recounts_unpack m fun _ _ ↦ rfl
  | none =>
    dsimp only
    split
    · exact recounts_receive.bind (fun m ↦ recounts_unpack m fun _ _ ↦ rfl) fun _ _ ↦ Told.onward
    · rename_i hnone
      refine recounts_pure fun H h ↦ ⟨by simpa using hnone, ?_⟩
      rw [← List.append_nil H]
      exact h.begins .nothing

theorem immediate_retire (t : Trigger) : (retire t).Immediate (Recounted t.queue []) := by
  have htrans (w w₁ w' : World) (h : Recounted t.queue [] w w₁) (h' : Recounted t.queue [] w₁ w') :
      Recounted t.queue [] w w' := h.trans h'
  have hquiet {w w' : World} (hcontexts : w'.contexts = w.contexts) (hqueues : w'.queues = w.queues)
      (hstarted : w'.started = w.started) : Recounted t.queue [] w w' :=
    .quiet (.of_eq hcontexts hqueues) (.of_eq hqueues hstarted)
  have hevents (type : Value) : (unwatchEvents type t.queue).Immediate (Recounted t.queue []) := by
    refine Immediate.bind (Immediate.bind (immediate_lift .refl _) htrans fun _ ↦
      immediate_op (fun _ _ ↦ hquiet rfl rfl rfl) _) htrans fun type ↦ ?_
    refine Immediate.bind (fun w ↦ ⟨_, _, rfl, hquiet rfl rfl rfl⟩) htrans fun fault ↦ ?_
    cases fault with
    | none => exact immediate_read .refl fun _ ↦ ()
    | some f => exact immediate_raise .refl f
  refine Immediate.bind ?_ htrans fun _ ↦ ?_
  · unfold retireStates
    split
    · exact immediate_read .refl fun _ ↦ ()
    · exact immediate_read .refl fun _ ↦ ()
    · exact fun w ↦ ⟨_, _, Notify.unwatchStates_eq _ _ w, hquiet rfl rfl rfl⟩
  · unfold retireEvent
    split
    · exact immediate_read .refl fun _ ↦ ()
    · exact (immediate_op (fun _ _ ↦ hquiet rfl rfl rfl) _).bind htrans hevents

end Activity

/-! ### All rounds -/

def Rounded (t : Trigger) (rs : List Round) (result : Except Stop Bool) (H : List Occurrence) :
    Prop :=
  ∃ new : List Round, new.length ≤ 1 ∧ (∀ r ∈ new, r.Sound t) ∧
    (result = .ok true → ∀ r ∈ new, r.begun ≠ .nothing) ∧ Told (rs ++ new) H

def Chronicled (t : Trigger) (rs : List Round) (H : List Occurrence) : Prop :=
  (∀ r ∈ rs, r.Sound t) ∧ (∀ r ∈ rs.dropLast, r.begun ≠ .nothing) ∧ Told rs H

section

variable {t : Trigger} {rs : List Round} {H : List Occurrence}

theorem Dealt.rounded {b : Begun} {result : Except Stop Bool} (h : Dealt t rs b H)
    (hb : result = .ok true → b ≠ .nothing) : Rounded t rs result H := by
  obtain ⟨call, hsound, htold⟩ := h
  refine ⟨[⟨b, call⟩], Nat.le_refl _, fun r hr ↦ ?_, fun hresult r hr ↦ ?_, htold⟩
  · obtain rfl := List.mem_singleton.1 hr
    exact hsound
  · obtain rfl := List.mem_singleton.1 hr
    exact hb hresult

theorem Rounded.onward {result : Except Stop Bool} (h : Rounded t rs result H) : Onward t rs H := by
  obtain ⟨new, hlength, hsound, -, htold⟩ := h
  exact ⟨new, hlength, hsound, htold⟩

theorem Onward.rounded {e : Stop} (h : Onward t rs H) : Rounded t rs (.error e) H := by
  obtain ⟨new, hlength, hsound, htold⟩ := h
  exact ⟨new, hlength, hsound, nofun, htold⟩

theorem Onward.chronicled (hrs : ∀ r ∈ rs, r.Sound t ∧ r.begun ≠ .nothing) (h : Onward t rs H) :
    ∃ rs, Chronicled t rs H := by
  obtain ⟨new, hlength, hsound, htold⟩ := h
  refine ⟨rs ++ new, fun r hr ↦ ?_, fun r hr ↦ ?_, htold⟩
  · rcases List.mem_append.1 hr with hr | hr
    · exact (hrs r hr).1
    · exact hsound r hr
  · have hmem : r ∈ rs := by
      cases new with
      | nil =>
        rw [List.append_nil] at hr
        exact (List.dropLast_sublist rs).subset hr
      | cons r' rest => simp_all
    exact (hrs r hmem).2

end

namespace Interp

open Activity

variable {task : TaskId} {t : Trigger} {rs : List Round} {I : Interp}
    (hI : (minding.regime .aloof).Obeyed I)

theorem recounts_round {b : Begun} {x : Activity Unit} (hx : x.Deals task t b) {again : Bool}
    (hb : again = true → b ≠ .nothing) :
    (x >>= fun _ ↦ pure again).Recounts task t.queue (Started rs b) (Onward t rs)
    (Rounded t rs) := by
  have hdealt : x.Recounts task t.queue (Started rs b) (Onward t rs) fun _ ↦ Dealt t rs b :=
    (hx rs).mono (fun _ h ↦ h) (fun _ ↦ Dealt.onward) fun _ _ h ↦ h
  refine hdealt.bind (fun _ ↦ recounts_pure fun H h ↦ h.rounded fun hresult ↦ ?_) fun e H h ↦
    h.rounded nofun
  exact hb (Except.ok.inj hresult)

include hI

theorem recounts_watchRound (task : TaskId) (t : Trigger) (rs : List Round) :
    (I.watchRound t).Recounts task t.queue (Told rs) (Onward t rs) (Rounded t rs) := by
  refine recounts_await.bind (fun arrival ↦ ?_) fun _ _ ↦ Onward.rounded
  cases arrival with
  | time =>
    refine .of_exists fun b ↦ ?_
    rintro H w ⟨htime, hH⟩ hlt
    refine recounts_round (deals_onTime hI htime) (fun _ hnothing ↦ ?_) hH hlt
    exact Begun.not_isTime_nothing (hnothing ▸ htime)
  | message type info =>
    refine .of_exists fun m ↦ recounts_round ?_ nofun
    exact deals_onMessage hI (Trigger.begins_message m) (Begun.not_isTime_message m) type info
  | nothing =>
    rintro H w ⟨hnone, hH⟩ hlt
    refine recounts_round (deals_onState hI (fun _ ↦ hnone) Begun.not_isTime_nothing .none)
      (fun h ↦ ?_) hH hlt
    rw [hnone] at h
    cases h

theorem recounts_watchRounds (task : TaskId) (n : Nat) (rs : List Round)
    (hrs : ∀ r ∈ rs, r.Sound t ∧ r.begun ≠ .nothing) :
    (I.watchRounds t n).Recounts task t.queue (Told rs) (fun H ↦ ∃ rs, Chronicled t rs H)
      fun _ H ↦ ∃ rs, Chronicled t rs H := by
  induction n generalizing rs with
  | zero => exact recounts_of_ended fun H w hH _ ↦
      ⟨[], _, w, rfl, .refl w, by rw [List.append_nil]; exact hH.onward.chronicled hrs⟩
  | succ n ih =>
    have hround := (recounts_watchRound hI task t rs).attempt.mono (fun _ h ↦ h)
      (fun _ h ↦ h.chronicled hrs) fun _ _ h ↦ h
    refine hround.bind (fun result ↦ ?_) fun _ _ h ↦ h.onward.chronicled hrs
    cases result with
    | ok again =>
      cases again with
      | false => exact recounts_pure fun _ h ↦ h.onward.chronicled hrs
      | true =>
        refine .of_exists fun new ↦ ?_
        rintro H w ⟨-, hsound, hbegun, hH⟩ hlt
        refine ih (rs ++ new) (fun r hr ↦ ?_) hH hlt
        rcases List.mem_append.1 hr with hr | hr
        · exact hrs r hr
        · exact ⟨hsound r hr, hbegun rfl r hr⟩
    | error f =>
      refine recounts_of_ended fun H w hH _ ↦ ?_
      obtain ⟨r, w', hend, hquiet⟩ := immediate_retire t w
      refine ⟨[], r, w', hend, hquiet, ?_⟩
      rw [List.append_nil]
      exact (Rounded.onward hH).chronicled hrs

theorem recounts_watch (task : TaskId) {i : TriggerId} {w : World} (ht : w.triggers[i]? = some t)
    (hlt : t.queue < w.queues.size) :
    (I.watch i w).Recounts task t.queue (Step.Knowing t.queue fun H ↦ ∃ rs, Chronicled t rs H)
      (fun _ ↦ Step.Knowing t.queue fun H ↦ ∃ rs, Chronicled t rs H) [] w := by
  have heq : I.watch i w = I.watchRounds t roundLimit w := by
    unfold watch
    rw [read_bind_apply, ht]
  rw [heq]
  exact recounts_watchRounds hI task roundLimit [] nofun Told.nil hlt

end Interp

/-- What came in was handled in rounds or is still in the queue. -/
def Handles (t : Trigger) (first : List Value) (H : List Occurrence) (w : World) : Prop :=
  ∃ rs, Chronicled t rs H ∧ first ++ puts H = handled rs ++ messagesOf w t.queue

/-- **Each message is handled once and in order, and starts at most one task.** Whatever others put
into the queue of a trigger and whenever its times come, rounds account for all that has happened
(`Handles`), wherever the task of the trigger waits, and where it ends. Each of them was begun by a
message, which it took from the front of the queue, or by a time, in which case it took none, or it
is the only round of a trigger that waits for nothing. Each started at most one task
(`Round.Sound`). One round of watching is one of these rounds. -/
theorem messages_handled_in_order (task : TaskId) {i : TriggerId} {t : Trigger} {w₀ : World}
    (ht : w₀.triggers[i]? = some t) (hlt : t.queue < w₀.queues.size) :
    (Interp.full.watch i w₀).Recounts task t.queue (Handles t (messagesOf w₀ t.queue))
      (fun _ ↦ Handles t (messagesOf w₀ t.queue)) [] w₀ ∧
    ∀ w, t.queue < w.queues.size → (Interp.full.watchRound t w).Recounts task t.queue
      (fun H _ ↦ Onward t [] H) (fun _ H _ ↦ Onward t [] H) [] w := by
  have hfull : (minding.regime .aloof).Obeyed Interp.full := minding.obeyed_upTo _ _
  constructor
  · have hwatch := (Interp.recounts_watch hfull task ht hlt).balanced (messagesOf w₀ t.queue)
      (by simp [puts, takes])
    have handles {H : List Occurrence} {w : World}
        (h : Step.Knowing t.queue (fun H ↦ ∃ rs, Chronicled t rs H) H w ∧
          messagesOf w₀ t.queue ++ puts H = takes H ++ messagesOf w t.queue) :
        Handles t (messagesOf w₀ t.queue) H w := by
      obtain ⟨⟨⟨rs, hrs⟩, -⟩, hbalance⟩ := h
      exact ⟨rs, hrs, by rw [hbalance, hrs.2.2.takes_eq]⟩
    exact hwatch.mono (fun _ _ ↦ handles) fun _ _ _ ↦ handles
  · intro w hlt
    exact (Interp.recounts_watchRound hfull task t [] Told.nil hlt).mono (fun _ _ h ↦ h.1)
      fun _ _ _ h ↦ h.1.onward

def bell : Trigger where
  name := "f"
  queue := 0
  eventTrigger := .tuple [.text "ring"]
  hasTrigger := true
  action := some 0

def rungTwice : World where
  start := default
  store :=
    { objects := #[.dict [(.text "who", .text "first")], .dict [(.text "who", .text "second")]] }
  queues := #[⟨"trig f", [.tuple [.text "event", .dict 0], .tuple [.text "event", .dict 1]]⟩]
  triggers := #[bell]

/-- When the task of that trigger has begun to wait for another message it has handled both. -/
theorem messages_handled_in_order_rungTwice : ∃ H rs, Chronicled bell rs H ∧
    handled rs = [.tuple [.text "event", .dict 0], .tuple [.text "event", .dict 1]] := by
  have hall (w : World) (ht : w.triggers[0]? = some bell) (hlt : bell.queue < w.queues.size)
      (hempty : (messagesOf (Interp.full.watch 0 w).world bell.queue).isEmpty = true) :
      ∃ H rs, Chronicled bell rs H ∧ handled rs = messagesOf w bell.queue := by
    obtain ⟨os, hos, rs, hrs, hbalance⟩ := (messages_handled_in_order 0 ht hlt).1.now
    rw [List.nil_append, hos.balance.1, List.append_nil, List.isEmpty_iff.1 hempty,
      List.append_nil] at hbalance
    exact ⟨os, rs, hrs, hbalance.symm⟩
  exact hall rungTwice rfl (by decide) (by decide +kernel)

end TriggerScript
