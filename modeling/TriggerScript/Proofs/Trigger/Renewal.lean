import Mathlib.Logic.Relation
import TriggerScript.Proofs.Task.Machine
import TriggerScript.Proofs.Trigger.Conduct

/-!
# Runs of a machine, and the tasks that watch

Every machine that nothing was going on in at first is sound, so a step is one slice of a task as
its job allows (`Machine.Sound.turn`). Each trigger is watched once after a move as before, unless
tasks begin to watch or the table is replaced while others watch (`Machine.Sound.watchedOnce_iff`).
-/

namespace TriggerScript

open World

namespace World

/-- What the host may do from outside. -/
structure Input (w w' : World) : Prop extends Modest w w' where
  trigger : ∀ (t : TriggerId) trigger, w.triggers[t]? = some trigger →
    w'.triggers[t]? = some trigger
  spares : Spares (fun _ ↦ True) w w'

def SetUp (w : World) : Prop := ∀ i, ¬ w.Pends i .setup

instance (w : World) : Decidable w.SetUp :=
  decidable_of_iff (∀ i < w.tasks.size, w.pendsFor (fun job ↦ match job with
    | .setup => true
    | _ => false) i = false) <| by
    refine ⟨fun h i hpends ↦ ?_, fun h i _ ↦ Bool.eq_false_iff.2 fun hpends ↦ ?_⟩
    · have hnot := h i hpends.lt
      rw [pendsFor_iff.2 ⟨_, hpends, rfl⟩] at hnot
      cases hnot
    · obtain ⟨job, hjob, hkind⟩ := pendsFor_iff.1 hpends
      split at hkind
      · exact h i hjob
      · cases hkind

/-- The task `r` is about to go on, with its request answered. -/
structure Readied (r : TaskId) (request : Request) (w w₀ : World) : Prop where
  running : w₀.running = r
  folder : w₀.folder = w.folder
  triggers : w₀.triggers = w.triggers
  tasks : w₀.tasks.size = w.tasks.size
  pends : ∀ i job, w₀.Pends i job ↔ w.Pends i job
  started : w₀.started = []
  spares : Spares (fun _ ↦ True) w w₀
  joined : ∀ u, request = .join u → w.Joined r u → w₀.Ended u

end World

namespace Machine

/-- A step of the machine, or something from outside. -/
inductive Moves : Machine → Machine → Prop
  | step {m m' : Machine} (h : m.step? work = some m') : Moves m m'
  | input {m : Machine} {w : World} (h : m.world.Input w) : Moves m ⟨w, m.threads⟩

/-- Nothing is going on. -/
structure Blank (m : Machine) : Prop where
  threads : m.threads = []
  started : m.world.started = []
  lists : m.world.Lists m.world.folder.triggers

def Reached (m : Machine) : Prop := ∃ b : Machine, b.Blank ∧ Relation.ReflTransGen Moves b m

def Conducts (job : Job) (w : World) (th : Thread) : Prop :=
  ∀ reply w₁, Rely.sound th.request w w₁ →
    (th.resume reply w₁).Under .sound job.Allows (fun _ _ ↦ True) w₁

/-- The threads are the pending tasks at work on their jobs. -/
structure Sound (m : Machine) : Prop where
  lists : m.world.Lists m.world.folder.triggers
  threads : ∀ th ∈ m.threads, ∃ job, m.world.Pends th.id job ∧ Conducts job m.world th
  started : ∀ p ∈ m.world.started, m.world.Pends p.1 p.2
  nodup : (m.threads.map (·.id) ++ m.world.started.map (·.1)).Nodup

end Machine

/-! ### What jobs allow -/

namespace Job

variable {job : Job} {w w' : World}

theorem Allows.cases (h : job.Allows w w') :
    job = .setup ∨ w.Modest w' ∨ (∀ t, job ≠ .watch t) ∧ w.Begins w' := by
  unfold Allows at h
  split at h
  · exact .inr (h.imp_right fun h ↦ ⟨nofun, h⟩)
  · exact .inr (h.imp_right fun h ↦ ⟨nofun, h⟩)
  · exact .inr (.inl h)
  · exact .inr (.inl h)
  · exact .inl rfl
  · exact .inr (.inl h.toModest)

theorem Allows.grows (h : job.Allows w w') : w.Grows w' := by
  rcases h.cases with rfl | hmodest | ⟨-, hbegins⟩
  · exact h.1
  · exact hmodest.toGrows
  · exact hbegins.toGrows

theorem Allows.lists (h : job.Allows w w') (hw : w.Lists w.folder.triggers) :
    w'.Lists w'.folder.triggers := by
  rcases h.cases with rfl | hmodest | ⟨-, hbegins⟩
  · exact h.2
  · rw [hmodest.table]
    exact hw.mono hmodest.triggers
  · exact hbegins.lists

theorem allows_refl (job : Job) (hw : w.Lists w.folder.triggers) : job.Allows w w := by
  unfold Allows
  split
  · exact .inl (.refl w)
  · exact .inl (.refl w)
  · exact .refl w
  · exact .refl w
  · exact ⟨.refl w, hw⟩
  · exact .refl w

end Job

namespace Machine

variable {m m' : Machine} {th : Thread} {job : Job}

theorem conducts_threadOf (w : World) (t : TaskId) (job : Job) :
    Conducts job w (threadOf work t job) := by
  intro reply w₁ hw₁
  cases reply with
  | cancelled => exact ⟨job.allows_refl hw₁.2, fun _ _ ↦ trivial⟩
  | _ => exact Interp.under_perform discreet_full job hw₁.2

theorem Conducts.later {w w' : World} (h : Conducts job w th)
    (hsize : w.triggers.size ≤ w'.triggers.size) : Conducts job w' th :=
  fun reply w₁ hw₁ ↦ h reply w₁ ⟨Nat.le_trans hsize hw₁.1, hw₁.2⟩

namespace Sound

theorem of_blank (h : m.Blank) : m.Sound where
  lists := h.lists
  threads := by simp [h.threads]
  started := by simp [h.started]
  nodup := by simp [h.threads, h.started]

theorem threads_adopt (h : m.Sound) :
    ∀ th ∈ (m.adopt work).threads, ∃ job, m.world.Pends th.id job ∧ Conducts job m.world th := by
  intro th hth
  rcases List.mem_append.1 hth with hth | hth
  · exact h.threads th hth
  · obtain ⟨p, hp, rfl⟩ := List.mem_map.1 hth
    exact ⟨p.2, h.started p hp, conducts_threadOf m.world p.1 p.2⟩

theorem nodup_adopt (h : m.Sound) : ((m.adopt work).threads.map (·.id)).Nodup := by
  have hids : (m.adopt work).threads.map (·.id) = m.threads.map (·.id) ++
      m.world.started.map (·.1) := by
    show (m.threads ++ m.world.started.map fun p ↦ threadOf work p.1 p.2).map (·.id) = _
    rw [List.map_append, List.map_map]
    rfl
  rw [hids]
  exact h.nodup

theorem endTask {w : World} {threads : List Thread} (h : Sound ⟨w, threads⟩) {t : TaskId}
    (ht : ∀ i ∈ threads.map (·.id) ++ w.started.map (·.1), t ≠ i) (result : Except Stop Value) :
    Sound ⟨w.endTask t result, threads⟩ := by
  obtain ⟨phase, outcome, log, host, -, heq⟩ := w.endTask_eq t result
  have htriggers : (w.endTask t result).triggers = w.triggers := by rw [heq]; rfl
  have hfolder : (w.endTask t result).folder = w.folder := by rw [heq]; rfl
  have hstarted : (w.endTask t result).started = w.started := by rw [heq]; rfl
  refine ⟨?_, fun th hth ↦ ?_, fun p hp ↦ ?_, ?_⟩
  · show (w.endTask t result).Lists _
    rw [hfolder]
    exact h.lists.mono (Nat.le_of_eq (by rw [htriggers]))
  · obtain ⟨job, hjob, hconducts⟩ := h.threads th hth
    have hne := ht th.id (List.mem_append_left _ (List.mem_map_of_mem hth))
    exact ⟨job, (pends_endTask ..).2 ⟨hne, hjob⟩,
      hconducts.later (Nat.le_of_eq (by rw [htriggers]))⟩
  · replace hp : p ∈ w.started := hstarted ▸ hp
    have hne := ht p.1 (List.mem_append_right _ (List.mem_map_of_mem hp))
    exact (pends_endTask ..).2 ⟨hne, h.started p hp⟩
  · show (threads.map (·.id) ++ (w.endTask t result).started.map (·.1)).Nodup
    rw [hstarted]
    exact h.nodup

end Sound

theorem readied_of_answer? {t : TaskId} {r : Request} {reply : Reply} {w : World}
    (h : (m.adopt work).world.answer? t r = some (reply, w)) :
    m.world.Readied t r { w with running := t } := by
  have hcases : w.folder = m.world.folder ∧ w.triggers = m.world.triggers ∧
      w.tasks.size = m.world.tasks.size ∧ (∀ i job, w.Pends i job ↔ m.world.Pends i job) ∧
      w.started = [] := by
    rcases answer?_cases h with ⟨-, rfl⟩ | ⟨⟨queues, rfl⟩, -⟩
    · refine ⟨rfl, rfl, by simp [updateTask, adopt], fun i job ↦ ?_, rfl⟩
      rw [pends_updateTask]
      · exact pends_of_tasks_eq rfl
      · exact fun _ ↦ ⟨rfl, rfl⟩
    · exact ⟨rfl, rfl, rfl, fun i job ↦ pends_of_tasks_eq rfl, rfl⟩
  obtain ⟨hfolder, htriggers, htasks, hpends, hstarted⟩ := hcases
  have hadopt : World.Spares (fun _ ↦ True) m.world (m.adopt work).world := .of_tasks_eq rfl
  have hanswer : World.Spares (fun _ ↦ True) (m.adopt work).world w := spares_answer? h
  have hspares : World.Spares (fun _ ↦ True) m.world { w with running := t } :=
    (hadopt.trans hanswer).trans (.of_tasks_eq rfl)
  refine ⟨rfl, hfolder, htriggers, htasks, fun i job ↦
    (pends_of_tasks_eq rfl).trans (hpends i job), hstarted, hspares, ?_⟩
  rintro u rfl hjoined
  exact hspares.ended u ((hadopt.joined t u trivial hjoined).ended_of_answer? h)

/-- A step of the machine, taken apart: the thread that goes on, and how. -/
structure Turn (m m' : Machine) (th : Thread) (job : Job) (w₀ : World) (others : List Thread)
    (s : Step Value) : Prop where
  thread : th ∈ (m.adopt work).threads
  subset : others ⊆ (m.adopt work).threads
  nodup : (others.map (·.id)).Nodup
  differ : ∀ th' ∈ others, th.id ≠ th'.id
  pends : m.world.Pends th.id job
  readied : m.world.Readied th.id th.request w₀
  conducts : Conducts job m.world th
  resume : ∃ reply, s = th.resume reply w₀
  eq : m' = after th.id others s

/-- One slice of the task `r`, as its job allows. -/
structure Slice (m m' : Machine) (r : TaskId) (job : Job) (w₀ w : World) : Prop where
  pends : m.world.Pends r job
  readied : ∃ request, m.world.Readied r request w₀
  allows : job.Allows w₀ w
  world : m'.world = w ∨ ∃ result, m'.world = w.endTask r result

namespace Sound

theorem turn (h : m.Sound) (hstep : m.step? work = some m') :
    ∃ th job w₀ others s, Turn m m' th job w₀ others s := by
  obtain ⟨th, reply, w, before, others, hthreads, hanswer, heq⟩ := step?_cases hstep
  have hmem : th ∈ (m.adopt work).threads := by simp [hthreads]
  obtain ⟨job, hjob, hconducts⟩ := h.threads_adopt th hmem
  have hnodup := h.nodup_adopt
  rw [hthreads, List.map_append, List.map_cons] at hnodup
  obtain ⟨hnot, hrest⟩ := List.nodup_cons.1 (List.perm_middle.nodup_iff.1 hnodup)
  rw [← List.map_append] at hnot hrest
  refine ⟨th, job, _, before ++ others, _, hmem, ?_, hrest, fun th' hth' hid ↦ hnot ?_, hjob,
    readied_of_answer? hanswer, hconducts, ⟨reply, rfl⟩, heq⟩
  · grind
  · rw [hid]
    exact List.mem_map_of_mem hth'

theorem of_slice {w₀ w : World} {threads : List Thread} (hw₀ : w₀.Lists w₀.folder.triggers)
    (hstarted : w₀.started = []) (hallows : job.Allows w₀ w)
    (hthreads : ∀ th ∈ threads, ∃ job, w₀.Pends th.id job ∧ Conducts job w th)
    (hnodup : (threads.map (·.id)).Nodup) : Sound ⟨w, threads⟩ := by
  have hgrows := hallows.grows
  obtain ⟨new, hnew, hids, hpends⟩ := hgrows.enlisted
  rw [hstarted, List.nil_append] at hnew
  refine ⟨hallows.lists hw₀, fun th hth ↦ ?_, fun p hp ↦ ?_, ?_⟩
  · obtain ⟨job, hjob, hconducts⟩ := hthreads th hth
    exact ⟨job, (hgrows.pends _ _ hjob.lt).2 hjob, hconducts⟩
  · exact (hpends p (hnew ▸ hp)).2
  · rw [hnew]
    refine List.nodup_append.2 ⟨hnodup, hids, ?_⟩
    rintro _ hi _ hj rfl
    obtain ⟨th, hth, rfl⟩ := List.mem_map.1 hi
    obtain ⟨p, hp, heq⟩ := List.mem_map.1 hj
    obtain ⟨job, hjob, -⟩ := hthreads th hth
    have hlt := hjob.lt
    rw [← show p.1 = th.id from heq] at hlt
    exact Nat.not_lt.2 (hpends p hp).1 hlt

end Sound

namespace Turn

variable {w₀ : World} {others : List Thread} {s : Step Value}

variable (hturn : Turn m m' th job w₀ others s) (h : m.Sound)

include hturn h

theorem lists : w₀.Lists w₀.folder.triggers := by
  rw [hturn.readied.folder]
  exact h.lists.mono (Nat.le_of_eq (by rw [hturn.readied.triggers]))

theorem under : s.Under .sound job.Allows (fun _ _ ↦ True) w₀ := by
  obtain ⟨reply, rfl⟩ := hturn.resume
  exact hturn.conducts reply w₀ ⟨Nat.le_of_eq (by rw [hturn.readied.triggers]), hturn.lists h⟩

theorem slice : Slice m m' th.id job w₀ s.world where
  pends := hturn.pends
  readied := ⟨_, hturn.readied⟩
  allows := (hturn.under h).guarantee
  world := by
    rw [hturn.eq]
    cases s with
    | ended result w => exact .inr ⟨result, rfl⟩
    | waiting request w resume => exact .inl rfl

theorem sound : m'.Sound := by
  have hready := hturn.readied
  have hallows : job.Allows w₀ s.world := (hturn.slice h).allows
  have hjob : w₀.Pends th.id job := (hready.pends _ _).2 hturn.pends
  have hsize : m.world.triggers.size ≤ s.world.triggers.size :=
    hready.triggers ▸ hallows.grows.triggers
  have hothers : ∀ th' ∈ others, ∃ job, w₀.Pends th'.id job ∧ Conducts job s.world th' := by
    intro th' hth'
    obtain ⟨job', hjob', hconducts'⟩ := h.threads_adopt th' (hturn.subset hth')
    exact ⟨job', (hready.pends _ _).2 hjob', hconducts'.later hsize⟩
  have hunder := hturn.under h
  rw [hturn.eq]
  cases s with
  | ended result w =>
    have hslice := Sound.of_slice (hturn.lists h) hready.started hallows hothers hturn.nodup
    refine hslice.endTask (fun i hi ↦ ?_) result
    rcases List.mem_append.1 hi with hi | hi
    · obtain ⟨th', hth', rfl⟩ := List.mem_map.1 hi
      exact hturn.differ th' hth'
    · -- a task that was just started is another one
      obtain ⟨p, hp, rfl⟩ := List.mem_map.1 hi
      obtain ⟨new, hnew, -, hpends⟩ := hallows.grows.enlisted
      rw [hready.started, List.nil_append] at hnew
      exact Nat.ne_of_lt (Nat.lt_of_lt_of_le hjob.lt (hpends p (hnew ▸ hp)).1)
  | waiting request w resume =>
    refine Sound.of_slice (hturn.lists h) hready.started hallows (fun th' hth' ↦ ?_) ?_
    · rcases List.mem_append.1 hth' with hth' | hth'
      · exact hothers th' hth'
      · cases List.mem_singleton.1 hth'
        exact ⟨job, hjob, hunder.2⟩
    · rw [List.map_append]
      refine List.nodup_append.2 ⟨hturn.nodup, List.nodup_singleton _, ?_⟩
      rintro i hi _ hj rfl
      obtain ⟨th', hth', hid⟩ := List.mem_map.1 hi
      exact hturn.differ th' hth' ((List.mem_singleton.1 hj).symm.trans hid.symm)

end Turn

namespace Sound

theorem input (h : m.Sound) {w : World} (hw : m.world.Input w) : Sound ⟨w, m.threads⟩ := by
  obtain ⟨new, hnew, hids, hpends⟩ := hw.enlisted
  have hold {i : TaskId} (hi : i ∈ m.threads.map (·.id) ++ m.world.started.map (·.1)) :
      i < m.world.tasks.size := by
    rcases List.mem_append.1 hi with hi | hi
    · obtain ⟨th, hth, rfl⟩ := List.mem_map.1 hi
      obtain ⟨job, hjob, -⟩ := h.threads th hth
      exact hjob.lt
    · obtain ⟨p, hp, rfl⟩ := List.mem_map.1 hi
      exact (h.started p hp).lt
  refine ⟨?_, fun th hth ↦ ?_, fun p hp ↦ ?_, ?_⟩
  · show w.Lists w.folder.triggers
    rw [hw.table]
    exact h.lists.mono hw.triggers
  · obtain ⟨job, hjob, hconducts⟩ := h.threads th hth
    exact ⟨job, (hw.pends _ _ hjob.lt).2 hjob, hconducts.later hw.triggers⟩
  · rcases List.mem_append.1 (hnew ▸ hp : p ∈ m.world.started ++ new) with hp | hp
    · have hjob := h.started p hp
      exact (hw.pends _ _ hjob.lt).2 hjob
    · exact (hpends p hp).2
  · show (m.threads.map (·.id) ++ w.started.map (·.1)).Nodup
    rw [hnew, List.map_append, ← List.append_assoc]
    refine List.nodup_append.2 ⟨h.nodup, hids, ?_⟩
    rintro i hi _ hj rfl
    obtain ⟨p, hp, heq⟩ := List.mem_map.1 hj
    have hlt := hold hi
    rw [← show p.1 = i from heq] at hlt
    exact Nat.not_lt.2 (hpends p hp).1 hlt

theorem moves (h : m.Sound) (hmoves : m.Moves m') : m'.Sound := by
  cases hmoves with
  | step hstep =>
    obtain ⟨th, job, w₀, others, s, hturn⟩ := h.turn hstep
    exact hturn.sound h
  | input hinput => exact h.input hinput

theorem of_reached (h : m.Reached) : m.Sound := by
  obtain ⟨b, hb, hrun⟩ := h
  induction hrun with
  | refl => exact .of_blank hb
  | tail _ hmoves ih => exact ih.moves hmoves

end Sound

/-! ### What a move does to the tasks that watch -/

namespace Slice

variable {r : TaskId} {w₀ w : World} {t : TriggerId} {i : TaskId}

variable (h : Slice m m' r job w₀ w)

include h

theorem folder_eq : m'.world.folder = w.folder := by
  rcases h.world with heq | ⟨result, heq⟩
  · rw [heq]
  · obtain ⟨phase, outcome, log, host, -, hend⟩ := w.endTask_eq r result
    rw [heq, hend]
    rfl

theorem pends_before {job' : Job} (hi : m'.world.Pends i job') : w.Pends i job' := by
  rcases h.world with heq | ⟨result, heq⟩
  · rwa [heq] at hi
  · rw [heq] at hi
    exact ((pends_endTask ..).1 hi).2

theorem pends_of {job' : Job} (hlt : i < m.world.tasks.size) (hi : m'.world.Pends i job') :
    m.world.Pends i job' := by
  obtain ⟨request, hready⟩ := h.readied
  rw [← hready.tasks] at hlt
  exact (hready.pends i _).1 ((h.allows.grows.pends i _ hlt).1 (h.pends_before hi))

theorem watches_iff (hjob : ∀ t, job ≠ .watch t) : m'.world.Watches t i ↔ w.Watches t i := by
  refine ⟨h.pends_before, fun hw ↦ ?_⟩
  rcases h.world with heq | ⟨result, heq⟩
  · rwa [heq]
  · rw [heq]
    refine (pends_endTask ..).2 ⟨?_, hw⟩
    rintro rfl
    obtain ⟨request, hready⟩ := h.readied
    have hr := (hready.pends _ _).2 h.pends
    exact hjob t (((h.allows.grows.pends _ _ hr.lt).2 hr).job_eq hw)

theorem not_renews (hmodest : w₀.Modest w) : ¬ m.world.Renews m'.world := by
  obtain ⟨request, hready⟩ := h.readied
  rintro (htable | ⟨t, i, hi, hw⟩)
  · rw [h.folder_eq, hmodest.table, hready.folder] at htable
    exact htable rfl
  · have hlt := hmodest.unwatching t i (h.pends_before hw)
    rw [hready.tasks] at hlt
    exact Nat.not_lt.2 hi hlt

theorem watchedOnce_iff_of_begins (hjob : ∀ t, job ≠ .watch t) (hbegins : w₀.Begins w) :
    m'.world.WatchedOnce ↔ m.world.Unwatched := by
  obtain ⟨request, hready⟩ := h.readied
  have hafter : m'.world.WatchedOnce ↔ w.WatchedOnce :=
    ⟨fun honce ↦ honce.of_watches (by rw [h.folder_eq]) fun t i ↦ (h.watches_iff hjob).2,
      fun honce ↦ honce.of_watches (by rw [h.folder_eq]) fun t i ↦ (h.watches_iff hjob).1⟩
  rw [hafter, hbegins.watchedOnce_iff]
  simp only [World.Unwatched, World.Watches, hready.pends]

end Slice

namespace Turn

variable {w₀ : World} {others : List Thread} {s : Step Value} {th' : Thread}

theorem mem_threads (hturn : Turn m m' th job w₀ others s) (hth' : th' ∈ m'.threads) :
    th' ∈ others ∨ th'.id = th.id ∧ s = .waiting th'.request m'.world th'.resume := by
  have hsame := hturn.eq
  subst hsame
  cases s with
  | ended result w => exact .inl hth'
  | waiting request w resume =>
    rcases List.mem_append.1 hth' with hth' | hth'
    · exact .inl hth'
    · cases List.mem_singleton.1 hth'
      exact .inr ⟨rfl, rfl⟩

theorem pends_of_mem_others (hturn : Turn m m' th job w₀ others s) (h : m.Sound) {job' : Job}
    (hth' : th' ∈ others) (hpends : m'.world.Pends th'.id job') : m.world.Pends th'.id job' := by
  obtain ⟨_, hold, -⟩ := h.threads_adopt th' (hturn.subset hth')
  exact (hturn.slice h).pends_of hold.lt hpends

end Turn

theorem watchedOnce_of_not_renews {w w' : World} (h : w.WatchedOnce) (hnot : ¬ w.Renews w')
    (hold : ∀ t i, i < w.tasks.size → w'.Watches t i → w.Watches t i) : w'.WatchedOnce := by
  obtain ⟨htable, hnone⟩ := not_or.1 hnot
  refine h.of_watches (not_not.1 htable) fun t i hw ↦ hold t i (Nat.not_le.1 fun hi ↦ ?_) hw
  exact hnone ⟨t, i, hi, hw⟩

theorem Sound.watchedOnce_iff (h : m.Sound) (hsetup : m.world.SetUp)
    (hmoves : m.Moves m') (honce : m.world.WatchedOnce) :
    m'.world.WatchedOnce ↔ (m.world.Renews m'.world → m.world.Unwatched) := by
  cases hmoves with
  | input hinput =>
    have hnot := hinput.toModest.not_renews
    refine iff_of_true (watchedOnce_of_not_renews honce hnot fun t i hi hw ↦ ?_) fun hnew ↦
      absurd hnew hnot
    exact (hinput.pends i _ hi).1 hw
  | step hstep =>
    obtain ⟨th, job, w₀, others, s, hturn⟩ := h.turn hstep
    have hslice := hturn.slice h
    have hold (t : TriggerId) (i : TaskId) (hi : i < m.world.tasks.size)
        (hw : m'.world.Watches t i) : m.world.Watches t i := hslice.pends_of hi hw
    rcases hslice.allows.cases with rfl | hmodest | ⟨hjob, hbegins⟩
    · exact absurd hslice.pends (hsetup th.id)
    · have hnot := hslice.not_renews hmodest
      exact iff_of_true (watchedOnce_of_not_renews honce hnot hold) fun hnew ↦ absurd hnew hnot
    · have hiff := hslice.watchedOnce_iff_of_begins hjob hbegins
      refine hiff.trans ⟨fun hnone _ ↦ hnone, fun hnone ↦ ?_⟩
      -- an empty table may take the place of an empty one, and then nothing is new
      by_cases hnew : m.world.Renews m'.world
      · exact hnone hnew
      · exact hiff.1 (watchedOnce_of_not_renews honce hnew hold)

end Machine

end TriggerScript
