import Mathlib.Data.List.Chain
import TriggerScript.Proofs.Trigger.Alone

/-!
# When each trigger is watched once

Events of the host start and stop the triggers, a service compiles the scripts anew, and nothing
keeps these apart. So a second task may begin to watch for a trigger, and a task may go on to watch
for one that was replaced.

* Over a whole run, each trigger is watched once at every moment if and only if no task watches
  whenever tasks begin to watch or the table is replaced (`watchedOnce_iff_renewed_unwatched`).
* If only one of these things is handled at a time, it is enough to ask this of the start of the
  host. That is an invariant of the machine (`Machine.Orderly`).
-/

namespace TriggerScript

namespace World

/-- At most one job that handles triggers is pending. -/
def Single (w : World) : Prop :=
  ∀ i j job job', w.Pends i job → w.Pends j job' → job.Handles → job'.Handles → i = j

instance (w : World) : Decidable w.Single :=
  decidable_of_iff (∀ i < w.tasks.size, ∀ j < w.tasks.size, w.pendsFor (fun job ↦ job.Handles) i =
    true → w.pendsFor (fun job ↦ job.Handles) j = true → i = j) <| by
    refine ⟨fun h i j job job' hi hj hjob hjob' ↦ ?_, fun h i _ j _ hi hj ↦ ?_⟩
    · exact h i hi.lt j hj.lt (pendsFor_iff.2 ⟨job, hi, by simpa using hjob⟩)
        (pendsFor_iff.2 ⟨job', hj, by simpa using hjob'⟩)
    · obtain ⟨job, hi, hjob⟩ := pendsFor_iff.1 hi
      obtain ⟨job', hj, hjob'⟩ := pendsFor_iff.1 hj
      exact h i j job job' hi hj (by simpa using hjob) (by simpa using hjob')

def Starting (w : World) : Prop := ∃ i e, w.Pends i (.deliver .startTriggers e)

variable {w w₀ w' : World} {r t : TaskId}

theorem Readied.undisturbed {request : Request} (h : Readied t request w w₀) :
    Undisturbed r w w₀ where
  table := by rw [h.folder]
  triggers := Nat.le_of_eq (by rw [h.triggers])
  trigger t trigger ht := by rwa [h.triggers]
  watches t i hw := (h.pends i _).1 hw
  spares := ⟨h.spares.known, h.spares.ended, fun t u _ ↦ h.spares.joined t u trivial⟩

theorem Input.undisturbed (h : Input w w') : Undisturbed r w w' where
  table := h.table
  triggers := h.triggers
  trigger := h.trigger
  watches _ _ := h.watches_iff.1
  spares := ⟨h.spares.known, h.spares.ended, fun t u _ ↦ h.spares.joined t u trivial⟩

theorem undisturbed_endTask (h : t ≠ r) (w : World) (result : Except Stop Value) :
    Undisturbed r w (w.endTask t result) := by
  obtain ⟨phase, outcome, log, host, -, heq⟩ := w.endTask_eq t result
  have htriggers : (w.endTask t result).triggers = w.triggers := by rw [heq]; rfl
  refine ⟨by rw [heq]; rfl, Nat.le_of_eq (by rw [htriggers]), fun t trigger ht ↦ by rwa [htriggers],
    fun t i hw ↦ ((pends_endTask ..).1 hw).2, Spares.endTask (P := (· = r)) h w result⟩

theorem undisturbed_of_slice {m m' : Machine} {job : Job} (h : Machine.Slice m m' t job w₀ w)
    (hr : t ≠ r) : w.Undisturbed r m'.world := by
  rcases h.world with heq | ⟨result, heq⟩
  · rw [heq]
    exact .refl r w
  · rw [heq]
    exact undisturbed_endTask hr w result

end World

namespace Machine

variable {m m' : Machine} {th : Thread} {job : Job}

def Attends (job : Job) (w : World) (th : Thread) : Prop :=
  ∀ reply w₁, Rely.alone th.id th.request w w₁ →
    (th.resume reply w₁).Under (.alone th.id) job.Tidies (fun _ _ ↦ True) w₁

theorem Attends.later {w w' : World} (h : Attends job w th) (hw : w.Undisturbed th.id w') :
    Attends job w' th := by
  intro reply w₁ ⟨hundisturbed, hrunning, hjoin⟩
  refine h reply w₁ ⟨hw.trans hundisturbed, hrunning, fun u hu hjoined ↦ ?_⟩
  exact hjoin u hu (hw.spares.joined _ _ rfl hjoined)

theorem attends_threadOf {w : World} {t : TaskId} (hlists : w.Lists w.folder.triggers)
    (htidy : w.Tidy) (hpends : w.Pends t job) (hjob : job.Handles) (hsetup : job ≠ .setup) :
    Attends job w (threadOf work t job) := by
  intro reply w₁ hw₁
  have hknown : (w.tasks[t]?).isSome := by
    obtain ⟨task, htask, -⟩ := hpends
    exact Option.isSome_iff_exists.2 ⟨task, htask⟩
  have hhandling : w₁.Handling t :=
    ⟨hw₁.2.1, hw₁.1.spares.known t hknown,
      fun u hwatches ↦ hjob.ne_watch u (hpends.job_eq (hw₁.1.watches u t hwatches)),
      hw₁.1.lists hlists, hw₁.1.tidy htidy⟩
  cases reply with
  | cancelled => exact ⟨fun _ ↦ hhandling.tidy, fun _ _ ↦ trivial⟩
  | _ => exact Interp.under_perform_alone discreet_full hjob hsetup hhandling

/-- The machine is sound and tidy, and one thing is handled at a time. -/
structure Orderly (m : Machine) : Prop where
  sound : m.Sound
  tidy : m.world.Tidy
  attends : ∀ th ∈ m.threads, ∀ job, m.world.Pends th.id job → job.Handles → Attends job m.world th

namespace Orderly

theorem attends_adopt (h : m.Orderly) (hsetup : m.world.SetUp) :
    ∀ th ∈ (m.adopt work).threads, ∀ job, m.world.Pends th.id job → job.Handles →
      Attends job m.world th := by
  intro th hth job hpends hjob
  rcases List.mem_append.1 hth with hth | hth
  · exact h.attends th hth job hpends hjob
  · obtain ⟨p, hp, rfl⟩ := List.mem_map.1 hth
    obtain rfl := (h.sound.started p hp).job_eq hpends
    refine attends_threadOf h.sound.lists h.tidy hpends hjob ?_
    intro heq
    exact hsetup p.1 (heq ▸ hpends)

section Turn

variable {w₀ : World} {others : List Thread} {s : Step Value}

theorem turn_of_handles (h : m.Orderly) (hsetup : m.world.SetUp) (hsingle : m.world.Single)
    (hturn : Turn m m' th job w₀ others s) (hjob : job.Handles)
    (hstart : m.world.Starting → m.world.Renews m'.world → m.world.Unwatched) : m'.Orderly := by
  have hslice := hturn.slice h.sound
  have hready := hturn.readied
  have hunder : s.Under (.alone th.id) job.Tidies (fun _ _ ↦ True) w₀ := by
    obtain ⟨reply, rfl⟩ := hturn.resume
    exact h.attends_adopt hsetup th hturn.thread job hturn.pends hjob reply w₀
      ⟨hready.undisturbed, hready.running, hready.joined⟩
  have htidy : s.world.Tidy := by
    refine hunder.guarantee ?_
    rintro ⟨e, rfl⟩ hnew
    have hrenews : m.world.Renews m'.world := by
      rcases hnew with htable | ⟨t, i, hi, hw⟩
      · rw [← hslice.folder_eq, hready.folder] at htable
        exact .inl htable
      · exact .inr ⟨t, i, hready.tasks ▸ hi, (hslice.watches_iff hjob.ne_watch).2 hw⟩
    intro t i hw
    exact hstart ⟨th.id, e, hturn.pends⟩ hrenews t i ((hready.pends i _).1 hw)
  have hend : s.world.Undisturbed (th.id + 1) m'.world :=
    World.undisturbed_of_slice hslice (Nat.ne_of_lt (Nat.lt_succ_self th.id))
  refine ⟨hturn.sound h.sound, hend.tidy htidy, fun th' hth' job' hpends hjob' ↦ ?_⟩
  rcases hturn.mem_threads hth' with hth' | ⟨hid, hs⟩
  · -- no other one handles something
    have hpends' := hturn.pends_of_mem_others h.sound hth' hpends
    exact absurd (hsingle _ _ _ _ hturn.pends hpends' hjob hjob') (hturn.differ th' hth')
  · rw [hid] at hpends
    obtain rfl := (hslice.pends_of hturn.pends.lt hpends).job_eq hturn.pends
    rw [hs, ← hid] at hunder
    exact hunder.2

theorem turn_of_not_handles (h : m.Orderly) (hsetup : m.world.SetUp)
    (hturn : Turn m m' th job w₀ others s) (hjob : ¬ job.Handles) : m'.Orderly := by
  have hslice := hturn.slice h.sound
  have hready := hturn.readied
  have hundisturbed {r : TaskId} (hr : th.id ≠ r) : m.world.Undisturbed r m'.world :=
    (hready.undisturbed.trans
      ((hslice.allows.discreet hjob).undisturbed (hready.running ▸ hr))).trans
      (World.undisturbed_of_slice hslice hr)
  have htidy := (hundisturbed (Nat.ne_of_lt (Nat.lt_succ_self th.id))).tidy h.tidy
  refine ⟨hturn.sound h.sound, htidy, fun th' hth' job' hpends hjob' ↦ ?_⟩
  rcases hturn.mem_threads hth' with hth' | ⟨hid, -⟩
  · have hpends' := hturn.pends_of_mem_others h.sound hth' hpends
    exact (h.attends_adopt hsetup th' (hturn.subset hth') job' hpends' hjob').later
      (hundisturbed (hturn.differ th' hth'))
  · rw [hid] at hpends
    obtain rfl := (hslice.pends_of hturn.pends.lt hpends).job_eq hturn.pends
    exact absurd hjob' hjob

end Turn

theorem step (h : m.Orderly) (hsetup : m.world.SetUp) (hsingle : m.world.Single)
    (hstep : m.step? work = some m')
    (hstart : m.world.Starting → m.world.Renews m'.world → m.world.Unwatched) : m'.Orderly := by
  obtain ⟨th, job, w₀, others, s, hturn⟩ := h.sound.turn hstep
  by_cases hjob : job.Handles
  · exact h.turn_of_handles hsetup hsingle hturn hjob hstart
  · exact h.turn_of_not_handles hsetup hturn hjob

theorem moves (h : m.Orderly) (hsetup : m.world.SetUp) (hsingle : m.world.Single)
    (hmoves : m.Moves m')
    (hstart : m.world.Starting → m.world.Renews m'.world → m.world.Unwatched) : m'.Orderly := by
  cases hmoves with
  | step hstep => exact h.step hsetup hsingle hstep hstart
  | input hinput =>
    refine ⟨h.sound.input hinput, (hinput.undisturbed (r := 0)).tidy h.tidy,
      fun th hth job hpends hjob ↦ ?_⟩
    obtain ⟨_, hold, -⟩ := h.sound.threads th hth
    exact (h.attends th hth job ((hinput.pends _ _ hold.lt).1 hpends) hjob).later hinput.undisturbed

theorem run {ms : List Machine} (h : m.Orderly) (hrun : (m :: ms).IsChain Moves)
    (hsetup : ∀ m' ∈ m :: ms, m'.world.SetUp) (hsingle : ∀ m' ∈ m :: ms, m'.world.Single)
    (hstart : (m :: ms).IsChain fun m m' ↦
      m.world.Starting → m.world.Renews m'.world → m.world.Unwatched) :
    ∀ m' ∈ ms, m'.world.WatchedOnce := by
  induction ms generalizing m with
  | nil => nofun
  | cons m₁ ms ih =>
    obtain ⟨hmoves, hrun⟩ := List.isChain_cons_cons.1 hrun
    obtain ⟨hfirst, hstart⟩ := List.isChain_cons_cons.1 hstart
    have h₁ := h.moves (hsetup m List.mem_cons_self) (hsingle m List.mem_cons_self) hmoves hfirst
    intro m' hm'
    rcases List.mem_cons.1 hm' with rfl | hm'
    · exact h₁.tidy.watchedOnce
    · exact ih h₁ hrun (fun m' hm' ↦ hsetup m' (List.mem_cons_of_mem _ hm'))
        (fun m' hm' ↦ hsingle m' (List.mem_cons_of_mem _ hm')) hstart m' hm'

end Orderly

theorem Sound.run_watchedOnce_iff {ms : List Machine} (h : m.Sound) (hrun : (m :: ms).IsChain Moves)
    (hsetup : ∀ m' ∈ m :: ms, m'.world.SetUp) (honce : m.world.WatchedOnce) :
    (∀ m' ∈ ms, m'.world.WatchedOnce) ↔
      (m :: ms).IsChain fun m m' ↦ m.world.Renews m'.world → m.world.Unwatched := by
  induction ms generalizing m with
  | nil => simp
  | cons m₁ ms ih =>
    obtain ⟨hmoves, hrun⟩ := List.isChain_cons_cons.1 hrun
    have hmove := h.watchedOnce_iff (hsetup m List.mem_cons_self) hmoves honce
    have hrest (honce₁ : m₁.world.WatchedOnce) := ih (h.moves hmoves) hrun
      (fun m' hm' ↦ hsetup m' (List.mem_cons_of_mem _ hm')) honce₁
    rw [List.forall_mem_cons, List.isChain_cons_cons, ← hmove]
    exact and_congr_right hrest

end Machine

/-- **When each trigger is watched once.** Over a run of the machine from a moment at which no task
watches, each trigger of the last compilation is watched by one task at most, and no other trigger
is watched, if and only if no task watches whenever tasks begin to watch or the table of triggers is
replaced. If moreover at no moment two tasks are at work to start or stop triggers or to compile
scripts, then it is so if and only if no task watches whenever triggers are started because the host
has started. -/
theorem watchedOnce_iff_renewed_unwatched {m : Machine} {ms : List Machine} (hreached : m.Reached)
    (hrun : (m :: ms).IsChain Machine.Moves)
    (hsetup : ∀ m' ∈ m :: ms, m'.world.SetUp) (hnone : m.world.Unwatched) :
    ((∀ m' ∈ ms, m'.world.WatchedOnce) ↔
      (m :: ms).IsChain fun m m' ↦ m.world.Renews m'.world → m.world.Unwatched) ∧
    ((∀ i job, m.world.Pends i job → ¬ job.Handles) → (∀ m' ∈ ms, m'.world.Single) →
      ((∀ m' ∈ ms, m'.world.WatchedOnce) ↔
        (m :: ms).IsChain fun m m' ↦
          m.world.Starting → m.world.Renews m'.world → m.world.Unwatched)) := by
  have hsound : m.Sound := .of_reached hreached
  have hiff := hsound.run_watchedOnce_iff hrun hsetup hnone.watchedOnce
  refine ⟨hiff, fun hidle hsingle ↦ ⟨fun honce ↦ ?_, fun hstart ↦ ?_⟩⟩
  · exact (hiff.1 honce).imp fun _ _ h _ ↦ h
  · have horderly : m.Orderly :=
      ⟨hsound, hnone.tidy, fun th _ job hpends hjob ↦ absurd hjob (hidle th.id job hpends)⟩
    have hsingle₀ : m.world.Single := fun i j job job' hi _ hjob ↦ absurd hjob (hidle i job hi)
    exact horderly.run hrun hsetup (List.forall_mem_cons.2 ⟨hsingle₀, hsingle⟩) hstart

def oneTrigger : World where
  start := default
  queues := #[{ name := "trig f" }]
  triggers :=
    #[{ name := "f", queue := 0, eventTrigger := .tuple [.text "ring"], hasTrigger := true }]
  folder := { triggers := [("f", 0)] }

namespace Machine

def tellStarted (m : Machine) : Machine :=
  ⟨(m.world.startTask .noted (.deliver .startTriggers ⟨"homeassistant_started", []⟩)).2, m.threads⟩

theorem moves_tellStarted (m : Machine) : m.Moves m.tellStarted := by
  have hdiscreet : m.world.Discreet m.tellStarted.world := by
    refine .startTask .noted ?_ m.world
    exact nofun
  exact .input ⟨hdiscreet.toModest, hdiscreet.trigger, .startTask ..⟩

theorem moves_settleTo {m : Machine} (h : (m.step? work).isSome = true) :
    m.Moves (m.settleTo work 1) := by
  obtain ⟨m', hstep⟩ := Option.isSome_iff_exists.1 h
  have hsettle : m.settleTo work 1 = m' := by simp [settleTo, hstep]
  rw [hsettle]
  exact .step hstep

def startedOnce : Machine := (tellStarted ⟨oneTrigger, []⟩).settleTo work 1

def startingAgain : Machine := startedOnce.tellStarted.settleTo work 1

end Machine

open Machine in
/-- The theorem at a run in which the host tells that it has started, and tells it again later. -/
theorem watchedOnce_iff_renewed_unwatched_startedTwice :
    let m : Machine := ⟨oneTrigger, []⟩
    let ms := [m.tellStarted, startedOnce, startedOnce.tellStarted, startingAgain,
      startingAgain.settleTo work 1]
    m.Reached ∧ (m :: ms).IsChain Moves ∧ (∀ m' ∈ m :: ms, m'.world.SetUp) ∧ m.world.Unwatched ∧
      (∀ i job, m.world.Pends i job → ¬ job.Handles) ∧ (∀ m' ∈ ms, m'.world.Single) ∧
      ((∀ m' ∈ ms, m'.world.WatchedOnce) ↔
        (m :: ms).IsChain fun m m' ↦ m.world.Renews m'.world → m.world.Unwatched) ∧
      ((∀ m' ∈ ms, m'.world.WatchedOnce) ↔
        (m :: ms).IsChain fun m m' ↦
          m.world.Starting → m.world.Renews m'.world → m.world.Unwatched) := by
  intro m ms
  have hblank : m.Blank := ⟨rfl, rfl, by decide, by decide⟩
  have hreached : m.Reached := ⟨m, hblank, .refl⟩
  have hrun : (m :: ms).IsChain Moves := by
    refine .cons_cons (moves_tellStarted m) (.cons_cons (moves_settleTo ?_) (.cons_cons
      (moves_tellStarted _) (.cons_cons (moves_settleTo ?_) (.cons_cons (moves_settleTo ?_)
      (.singleton _)))))
    all_goals decide
  have hsetup : ∀ m' ∈ m :: ms, m'.world.SetUp := by decide
  have hidle (i : TaskId) (job : Job) (hpends : m.world.Pends i job) : ¬ job.Handles :=
    absurd hpends.lt (Nat.not_lt_zero i)
  have hnone : m.world.Unwatched := fun t i hw ↦ absurd hw.lt (Nat.not_lt_zero i)
  have hsingle : ∀ m' ∈ ms, m'.world.Single := by decide
  obtain ⟨hiff, halone⟩ := watchedOnce_iff_renewed_unwatched hreached hrun hsetup hnone
  exact ⟨hreached, hrun, hsetup, hnone, hidle, hsingle, hiff, halone hidle hsingle⟩

open Machine in
/-- A trigger that was started twice is watched by two tasks, and nobody is ready to run any
more. -/
theorem watched_twice_after_second_start :
    (startingAgain.settleTo work 2).step? work = none ∧
      (startingAgain.settleTo work 2).world.Watches 0 1 ∧
      (startingAgain.settleTo work 2).world.Watches 0 3 ∧
      ¬ (startingAgain.settleTo work 2).world.WatchedOnce := by
  have hfirst : (startingAgain.settleTo work 2).world.Watches 0 1 := by decide
  have hsecond : (startingAgain.settleTo work 2).world.Watches 0 3 := by decide
  refine ⟨Option.isNone_iff_eq_none.1 (by decide), hfirst, hsecond, fun honce ↦ ?_⟩
  exact absurd (honce.once 0 1 3 hfirst hsecond) (by decide)

end TriggerScript
