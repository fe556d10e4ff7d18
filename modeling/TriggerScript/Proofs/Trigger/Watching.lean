import TriggerScript.Proofs.Evaluation.Scope
import TriggerScript.Proofs.Task.Rely
import TriggerScript.Work

/-!
# Tasks that watch

A slice of a task never ends a task, and is one of three things: discreet, modest, or the begin of
watching. Only the last can change whether each trigger is watched once
(`World.Begins.watchedOnce_iff`).
-/

namespace TriggerScript

namespace World

def Pends (w : World) (i : TaskId) (job : Job) : Prop :=
  ∃ task, w.tasks[i]? = some task ∧ task.job = job ∧ task.phase = .pending

def Watches (w : World) (t : TriggerId) (i : TaskId) : Prop := w.Pends i (.watch t)

def compiled (w : World) : List TriggerId := w.folder.triggers.map (·.2)

def taskOf? (w : World) (t : TriggerId) : Option TaskId := (w.triggers[t]?).bind (·.task)

/-- Each trigger of the last compilation has one task at most that watches for it, and other
triggers none. -/
structure WatchedOnce (w : World) : Prop where
  once : ∀ t i j, w.Watches t i → w.Watches t j → i = j
  compiled : ∀ t i, w.Watches t i → t ∈ w.compiled

def Unwatched (w : World) : Prop := ∀ t i, ¬ w.Watches t i

/-- The triggers of the table exist, and no two of them are one. -/
structure Lists (w : World) (table : List (String × TriggerId)) : Prop where
  nodup : (table.map (·.2)).Nodup
  exist : ∀ t ∈ table.map (·.2), t < w.triggers.size

variable {w w₁ w' : World} {i : TaskId} {job : Job} {t : TriggerId}

theorem Lists.mono {table : List (String × TriggerId)} (h : w.Lists table)
    (hsize : w.triggers.size ≤ w'.triggers.size) : w'.Lists table :=
  ⟨h.nodup, fun t ht ↦ Nat.lt_of_lt_of_le (h.exist t ht) hsize⟩

theorem Pends.lt (h : w.Pends i job) : i < w.tasks.size := by
  obtain ⟨task, htask, -⟩ := h
  exact (Array.getElem?_eq_some_iff.1 htask).1

theorem Pends.job_eq {job' : Job} (h : w.Pends i job) (h' : w.Pends i job') : job = job' := by
  obtain ⟨task, htask, rfl, -⟩ := h
  obtain ⟨task', htask', rfl, -⟩ := h'
  cases htask.symm.trans htask'
  rfl

theorem Pends.isPending (h : w.Pends i job) : w.isPending i = true := by
  obtain ⟨task, htask, -, hphase⟩ := h
  exact isPending_iff.2 ⟨task, htask, hphase⟩

def pendsFor (w : World) (kind : Job → Bool) (i : TaskId) : Bool :=
  (w.tasks[i]?).any fun task ↦ task.phase == .pending && kind task.job

theorem pendsFor_iff {kind : Job → Bool} :
    w.pendsFor kind i = true ↔ ∃ job, w.Pends i job ∧ kind job = true := by
  unfold pendsFor Pends
  cases w.tasks[i]? with
  | none => simp
  | some task => grind

instance (w : World) (t : TriggerId) (i : TaskId) : Decidable (w.Watches t i) :=
  decidable_of_iff (w.pendsFor (fun job ↦ match job with
    | .watch u => u == t
    | _ => false) i = true) <| by
    rw [pendsFor_iff]
    refine ⟨fun ⟨job, hpends, hjob⟩ ↦ ?_, fun h ↦ ⟨_, h, by simp⟩⟩
    split at hjob
    · rwa [beq_iff_eq.1 hjob] at hpends
    · cases hjob

theorem pends_of_tasks_eq (h : w'.tasks = w.tasks) : w'.Pends i job ↔ w.Pends i job := by
  rw [Pends, h, Pends]

theorem pends_updateTask {f : Task → Task}
    (hf : ∀ task, (f task).job = task.job ∧ (f task).phase = task.phase) (w : World) (u i : TaskId)
    (job : Job) : (w.updateTask u f).Pends i job ↔ w.Pends i job := by
  unfold Pends
  rw [getElem?_updateTask]
  split
  · cases w.tasks[i]? with
    | none => simp
    | some task => simp [hf]
  · rfl

theorem pends_startTask (w : World) (oversight : Oversight) (new : Job) (i : TaskId) (job : Job) :
    (w.startTask oversight new).2.Pends i job ↔ i = w.tasks.size ∧ job = new ∨ w.Pends i job := by
  rw [Pends, getElem?_startTask]
  split
  · rename_i heq
    subst heq
    have hnot : ¬ w.Pends w.tasks.size job := fun h ↦ Nat.lt_irrefl _ h.lt
    simp [hnot, eq_comm]
  · rename_i hne
    simp [hne, Pends]

theorem pends_endTask (w : World) (u : TaskId) (result : Except Stop Value) (i : TaskId)
    (job : Job) : (w.endTask u result).Pends i job ↔ u ≠ i ∧ w.Pends i job := by
  obtain ⟨phase, outcome, log, host, hphase, heq⟩ := w.endTask_eq u result
  rw [heq]
  show (∃ task, (w.updateTask u _).tasks[i]? = some task ∧ _) ↔ _
  rw [getElem?_updateTask]
  by_cases hi : u = i
  · subst hi
    cases w.tasks[u]? <;> simp [hphase]
  · simp [hi, Pends]

/-! ### Slices -/

/-- Tasks and triggers are added, and none is taken away. -/
structure Grows (w w' : World) : Prop where
  triggers : w.triggers.size ≤ w'.triggers.size
  tasks : w.tasks.size ≤ w'.tasks.size
  pends : ∀ i job, i < w.tasks.size → (w'.Pends i job ↔ w.Pends i job)
  enlisted : ∃ new, w'.started = w.started ++ new ∧ (new.map (·.1)).Nodup ∧
    ∀ p ∈ new, w.tasks.size ≤ p.1 ∧ w'.Pends p.1 p.2

/-- No task is started that watches, and the table of triggers is left as it is. -/
structure Modest (w w' : World) : Prop extends Grows w w' where
  table : w'.folder.triggers = w.folder.triggers
  unwatching : ∀ t i, w'.Watches t i → i < w.tasks.size

/-- A modest slice that leaves the triggers themselves as they are. -/
structure Discreet (w w' : World) : Prop extends Modest w w' where
  running : w'.running = w.running
  trigger : ∀ (t : TriggerId) trigger, w.triggers[t]? = some trigger →
    w'.triggers[t]? = some trigger
  spares : Spares (· ≠ w.running) w w'

/-- One task is started for each trigger of the table that there is afterwards. -/
structure Begins (w w' : World) : Prop extends Grows w w' where
  lists : w'.Lists w'.folder.triggers
  begun : ∀ t ∈ w'.compiled, ∃ i, w.tasks.size ≤ i ∧ w'.taskOf? t = some i
  watched : ∀ t i, w.tasks.size ≤ i → (w'.Watches t i ↔ t ∈ w'.compiled ∧ w'.taskOf? t = some i)

namespace Grows

theorem refl (w : World) : Grows w w where
  triggers := Nat.le_refl _
  tasks := Nat.le_refl _
  pends _ _ _ := Iff.rfl
  enlisted := ⟨[], by simp⟩

theorem trans (h : Grows w w₁) (h' : Grows w₁ w') : Grows w w' where
  triggers := Nat.le_trans h.triggers h'.triggers
  tasks := Nat.le_trans h.tasks h'.tasks
  pends i job hi := (h'.pends i job (Nat.lt_of_lt_of_le hi h.tasks)).trans (h.pends i job hi)
  enlisted := by
    obtain ⟨new, hstarted, hnodup, hnew⟩ := h.enlisted
    obtain ⟨more, hstarted', hnodup', hmore⟩ := h'.enlisted
    refine ⟨new ++ more, by rw [hstarted', hstarted, List.append_assoc], ?_, fun p hp ↦ ?_⟩
    · -- those that were started first have smaller numbers
      rw [List.map_append]
      refine List.nodup_append.2 ⟨hnodup, hnodup', ?_⟩
      rintro _ hi _ hj rfl
      obtain ⟨p, hp, rfl⟩ := List.mem_map.1 hi
      obtain ⟨q, hq, heq⟩ := List.mem_map.1 hj
      have hlt := (hnew p hp).2.lt
      rw [← show q.1 = p.1 from heq] at hlt
      exact Nat.not_lt.2 (hmore q hq).1 hlt
    · rcases List.mem_append.1 hp with hp | hp
      · obtain ⟨hge, hpends⟩ := hnew p hp
        exact ⟨hge, (h'.pends _ _ hpends.lt).2 hpends⟩
      · obtain ⟨hge, hpends⟩ := hmore p hp
        exact ⟨Nat.le_trans h.tasks hge, hpends⟩

theorem watches (h : Grows w w') (hw : w.Watches t i) : w'.Watches t i := (h.pends i _ hw.lt).2 hw

end Grows

namespace Modest

theorem refl (w : World) : Modest w w := ⟨.refl w, rfl, fun _ _ h ↦ h.lt⟩

theorem trans (h : Modest w w₁) (h' : Modest w₁ w') : Modest w w' where
  toGrows := h.toGrows.trans h'.toGrows
  table := h'.table.trans h.table
  unwatching t i hw := by
    have hi := h'.unwatching t i hw
    exact h.unwatching t i ((h'.pends i _ hi).1 hw)

theorem watches_iff (h : Modest w w') : w'.Watches t i ↔ w.Watches t i :=
  ⟨fun hw ↦ (h.pends i _ (h.unwatching t i hw)).1 hw, h.watches⟩

theorem unwatched_iff (h : Modest w w') : w'.Unwatched ↔ w.Unwatched := by
  simp only [Unwatched, h.watches_iff]

end Modest

namespace Discreet

theorem of_eq (htable : w'.folder.triggers = w.folder.triggers)
    (htriggers : w'.triggers = w.triggers) (htasks : w'.tasks = w.tasks)
    (hstarted : w'.started = w.started)
    (hrunning : w'.running = w.running) : Discreet w w' where
  triggers := Nat.le_of_eq (by rw [htriggers])
  tasks := Nat.le_of_eq (by rw [htasks])
  pends _ _ _ := pends_of_tasks_eq htasks
  enlisted := ⟨[], by simp [hstarted]⟩
  table := htable
  unwatching t i hw := ((pends_of_tasks_eq htasks).1 hw).lt
  running := hrunning
  trigger t trigger h := by rwa [htriggers]
  spares := .of_tasks_eq htasks

theorem refl (w : World) : Discreet w w := of_eq rfl rfl rfl rfl rfl

theorem trans (h : Discreet w w₁) (h' : Discreet w₁ w') : Discreet w w' where
  toModest := h.toModest.trans h'.toModest
  running := h'.running.trans h.running
  trigger t trigger ht := h'.trigger t trigger (h.trigger t trigger ht)
  spares := h.spares.trans (h.running ▸ h'.spares)

theorem updateTask {f : Task → Task}
    (hf : ∀ task, (f task).job = task.job ∧ (f task).phase = task.phase) (w : World) (u : TaskId)
    (hspares : Spares (· ≠ w.running) w (w.updateTask u f)) : Discreet w (w.updateTask u f) where
  triggers := Nat.le_refl _
  tasks := by simp [World.updateTask]
  pends i job _ := pends_updateTask hf w u i job
  enlisted := ⟨[], by simp [World.updateTask]⟩
  table := rfl
  unwatching t i hw := ((pends_updateTask hf w u i _).1 hw).lt
  running := rfl
  trigger t trigger h := h
  spares := hspares

theorem attend {f : Task → Task}
    (hf : ∀ task, ∃ joining stopping, f task = { task with joining, stopping }) (w : World) :
    Discreet w (w.updateTask w.running f) := by
  have hsame (task : Task) : (f task).job = task.job ∧ (f task).phase = task.phase := by
    obtain ⟨joining, stopping, h⟩ := hf task
    rw [h]
    exact ⟨rfl, rfl⟩
  refine updateTask hsame w _ (.updateTask (fun h ↦ h rfl) (fun task hphase ↦ ?_) w)
  rwa [(hsame task).2]

theorem cancel (w : World) (u : TaskId) : Discreet w (w.cancel u) := by
  have hspares := Spares.cancel (P := (· ≠ w.running)) w u
  rcases w.cancel_cases u with h | ⟨v, task, -, -, -, h⟩
  · rw [h]
    exact refl w
  · rw [h] at hspares ⊢
    refine updateTask ?_ w v hspares
    exact fun _ ↦ ⟨rfl, rfl⟩

end Discreet

theorem Discreet.addTrigger (w : World) (trigger : Trigger) :
    Discreet w { w with triggers := w.triggers.push trigger } where
  triggers := by simp
  tasks := Nat.le_refl _
  pends _ _ _ := Iff.rfl
  enlisted := ⟨[], by simp⟩
  table := rfl
  unwatching t i hw := hw.lt
  running := rfl
  trigger t trigger' h := by grind
  spares := .of_tasks_eq rfl

theorem Grows.startTask (w : World) (oversight : Oversight) (job : Job) :
    Grows w (w.startTask oversight job).2 where
  triggers := Nat.le_refl _
  tasks := by simp [World.startTask]
  pends i job' hi := by simp [pends_startTask, Nat.ne_of_lt hi]
  enlisted := ⟨[(w.tasks.size, job)], rfl, by simp, by simp [pends_startTask]⟩

theorem Discreet.startTask (oversight : Oversight) (hjob : ∀ t, job ≠ .watch t) (w : World) :
    Discreet w (w.startTask oversight job).2 where
  toGrows := .startTask w oversight job
  table := rfl
  unwatching t i hw := by
    rcases (pends_startTask w oversight job i _).1 hw with ⟨-, heq⟩ | hw
    · exact absurd heq.symm (hjob t)
    · exact hw.lt
  running := rfl
  trigger t trigger h := h
  spares := .startTask w oversight job

/-! ### Where tasks begin to watch -/

/-- Other triggers are listed, or a new task watches one. -/
def Renews (w w' : World) : Prop :=
  w'.folder.triggers ≠ w.folder.triggers ∨ ∃ t i, w.tasks.size ≤ i ∧ w'.Watches t i

theorem Modest.not_renews (h : Modest w w') : ¬ w.Renews w' := by
  rintro (htable | ⟨t, i, hi, hw⟩)
  · exact htable h.table
  · exact Nat.not_lt.2 hi (h.unwatching t i hw)

theorem WatchedOnce.of_watches (h : w.WatchedOnce) (htable : w'.folder.triggers = w.folder.triggers)
    (hw : ∀ t i, w'.Watches t i → w.Watches t i) : w'.WatchedOnce where
  once t i j hi hj := h.once t i j (hw t i hi) (hw t j hj)
  compiled t i hi := by
    rw [World.compiled, htable]
    exact h.compiled t i (hw t i hi)

theorem Unwatched.watchedOnce (h : w.Unwatched) : w.WatchedOnce where
  once t i _ hi := absurd hi (h t i)
  compiled t i hi := absurd hi (h t i)

namespace Begins

theorem of_eq (h : Begins w₁ w') (htriggers : w₁.triggers = w.triggers)
    (htasks : w₁.tasks = w.tasks) (hstarted : w₁.started = w.started) : Begins w w' where
  triggers := htriggers ▸ h.triggers
  tasks := htasks ▸ h.tasks
  pends i job hi := (h.pends i job (htasks ▸ hi)).trans (pends_of_tasks_eq htasks)
  enlisted := by
    rw [← htasks, ← hstarted]
    exact h.enlisted
  lists := h.lists
  begun := htasks ▸ h.begun
  watched := htasks ▸ h.watched

theorem after (h : Begins w₁ w') (h₀ : Modest w w₁) : Begins w w' where
  toGrows := h₀.toGrows.trans h.toGrows
  lists := h.lists
  begun t ht := by
    obtain ⟨i, hi, htask⟩ := h.begun t ht
    exact ⟨i, Nat.le_trans h₀.tasks hi, htask⟩
  watched t i hi := by
    by_cases hnew : w₁.tasks.size ≤ i
    · exact h.watched t i hnew
    · constructor
      · intro hw
        have hw₁ : w₁.Watches t i := (h.pends i _ (Nat.not_le.1 hnew)).1 hw
        exact absurd hi (Nat.not_le.2 (h₀.unwatching t i hw₁))
      · rintro ⟨ht, htask⟩
        obtain ⟨j, hj, htask'⟩ := h.begun t ht
        cases htask.symm.trans htask'
        exact absurd hj hnew

theorem linked_of_unwatched (h : Begins w w') (hnone : w.Unwatched) (hw : w'.Watches t i) :
    t ∈ w'.compiled ∧ w'.taskOf? t = some i := by
  refine (h.watched t i (Nat.not_lt.1 fun hi ↦ ?_)).1 hw
  exact hnone t i ((h.pends i _ hi).1 hw)

theorem watchedOnce_iff (h : Begins w w') : w'.WatchedOnce ↔ w.Unwatched := by
  constructor
  · intro honce t i hw
    have hw' := h.watches hw
    have ht := honce.compiled t i hw'
    obtain ⟨j, hj, htask⟩ := h.begun t ht
    have hne : i ≠ j := Nat.ne_of_lt (Nat.lt_of_lt_of_le hw.lt hj)
    exact hne (honce.once t i j hw' ((h.watched t j hj).2 ⟨ht, htask⟩))
  · intro hnone
    refine ⟨fun t i j hi hj ↦ ?_, fun t i hi ↦ (h.linked_of_unwatched hnone hi).1⟩
    have hi := (h.linked_of_unwatched hnone hi).2
    exact Option.some.inj (hi.symm.trans (h.linked_of_unwatched hnone hj).2)

end Begins

end World

theorem Act.discreet {E : Owned} {p : Site} {w w' : World} (h : Act E p w w') : w.Discreet w' := by
  induction h with
  | trans _ _ ih₁ ih₂ => exact ih₁.trans ih₂
  | start w oversight job hjob => exact .startTask oversight hjob.ne_watch w
  | cancel w t => exact .cancel w t
  | attend w f hf => exact .attend hf w
  | _ => exact .of_eq rfl rfl rfl rfl rfl

end TriggerScript
