import TriggerScript.Task.Control
import TriggerScript.Task.Scheduler

/-!
# What happens to tasks

Asking a task to stop marks one task at most, and never one that waits for a task that has not ended
(`World.cancel_cases`); a task that has ended stays so (`World.Ended`). So who waits for the end of
a task and is not touched otherwise waits until that task has ended (`World.Joined`, kept by
`World.Spares`).
-/

namespace TriggerScript.World

variable {w w' : World} {t u : TaskId}

/-! ### Pending tasks -/

theorem isPending_iff : w.isPending t = true ↔ ∃ task, w.tasks[t]? = some task ∧
    task.phase = .pending := by
  unfold isPending
  cases w.tasks[t]? <;> simp

def Ended (w : World) (t : TaskId) : Prop := ∃ task, w.tasks[t]? = some task ∧ task.phase ≠ .pending

theorem Ended.not_isPending (h : w.Ended t) : w.isPending t = false := by
  obtain ⟨task, htask, hphase⟩ := h
  rw [← Bool.not_eq_true, isPending_iff]
  rintro ⟨task', htask', hpending⟩
  cases htask.symm.trans htask'
  exact hphase hpending

theorem ended_of_not_isPending {task : Task} (htask : w.tasks[t]? = some task)
    (h : w.isPending t = false) : w.Ended t := by
  refine ⟨task, htask, fun hphase ↦ ?_⟩
  rw [isPending_iff.2 ⟨task, htask, hphase⟩] at h
  cases h

/-! ### Changing a task -/

theorem getElem?_updateTask (w : World) (t : TaskId) (f : Task → Task) (u : TaskId) :
    (w.updateTask t f).tasks[u]? = if t = u then w.tasks[u]?.map f else w.tasks[u]? :=
  Array.getElem?_modify

theorem getElem?_startTask (w : World) (oversight : Oversight) (job : Job) (t : TaskId) :
    (w.startTask oversight job).2.tasks[t]? =
      if t = w.tasks.size then some { job, oversight } else w.tasks[t]? :=
  Array.getElem?_push

theorem isPending_updateTask {f : Task → Task} (hf : ∀ task, (f task).phase = task.phase)
    (w : World) (t u : TaskId) : (w.updateTask t f).isPending u = w.isPending u := by
  unfold isPending
  rw [getElem?_updateTask]
  by_cases heq : t = u
  · rw [if_pos heq]
    cases w.tasks[u]? with
    | none => rfl
    | some task => simp [hf]
  · rw [if_neg heq]

theorem stopped?_spec {n : Nat} {u : TaskId} (h : w.stopped? n t = some u) :
    ∃ task, w.tasks[u]? = some task ∧ task.phase = .pending ∧
      ∀ v, task.joining = some v → w.isPending v = false := by
  fun_induction w.stopped? n t with
  | case1 => cases h
  | _ => grind

theorem cancel_cases (w : World) (t : TaskId) :
    w.cancel t = w ∨ ∃ u task, w.tasks[u]? = some task ∧ task.phase = .pending ∧
      (∀ v, task.joining = some v → w.isPending v = false) ∧
      w.cancel t = w.updateTask u ({ · with stopping := true }) := by
  unfold cancel
  split
  · obtain ⟨task, htask, hphase, hjoining⟩ := stopped?_spec ‹_›
    exact .inr ⟨_, task, htask, hphase, hjoining, rfl⟩
  · exact .inl rfl

theorem isPending_cancel (w : World) (t u : TaskId) : (w.cancel t).isPending u = w.isPending u := by
  rcases w.cancel_cases t with h | ⟨v, task, -, -, -, h⟩
  · rw [h]
  · rw [h, isPending_updateTask]
    exact fun _ ↦ rfl

theorem cancel_of_not_isPending (h : w.isPending t = false) : w.cancel t = w := by
  have hnone : w.stopped? (w.tasks.size + 1) t = none := by
    grind [stopped?, isPending]
  rw [cancel, hnone]

/-! ### The end of a task -/

theorem endTask_eq (w : World) (t : TaskId) (result : Except Stop Value) :
    ∃ phase outcome log host, phase ≠ .pending ∧ w.endTask t result =
      { w.updateTask t ({ · with phase, outcome, stopping := false }) with log, host } := by
  match result with
  | .error .cancelled => exact ⟨.cancelled, _, w.log, w.host, by decide, rfl⟩
  | .ok v | .error .outOfFuel => exact ⟨.done, _, w.log, w.host, by decide, rfl⟩
  | .error (.raised f) =>
    unfold endTask
    dsimp only
    split <;> exact ⟨.done, _, _, _, by decide, rfl⟩

/-! ### Tasks that wait for another one -/

def Joined (w : World) (t u : TaskId) : Prop :=
  (∃ task, w.tasks[t]? = some task ∧ task.joining = some u ∧ (task.stopping = true → w.Ended u)) ∧
    (w.tasks[u]?).isSome

/-- Tasks that have ended stay so, and those of `P` wait for the end that they waited for. -/
structure Spares (P : TaskId → Prop) (w w' : World) : Prop where
  known : ∀ t : TaskId, (w.tasks[t]?).isSome → (w'.tasks[t]?).isSome
  ended : ∀ t, w.Ended t → w'.Ended t
  joined : ∀ t u, P t → w.Joined t u → w'.Joined t u

namespace Spares

variable {P : TaskId → Prop} {w₁ : World}

theorem trans (h : Spares P w w₁) (h' : Spares P w₁ w') : Spares P w w' :=
  ⟨fun t ht ↦ h'.known t (h.known t ht), fun t ht ↦ h'.ended t (h.ended t ht),
    fun t u hP ht ↦ h'.joined t u hP (h.joined t u hP ht)⟩

theorem of_tasks_eq (h : w'.tasks = w.tasks) : Spares P w w' where
  known t ht := by rwa [h]
  ended t ht := by rwa [Ended, h]
  joined t u _ ht := by
    unfold Joined Ended at *
    rwa [h]

theorem updateTask {f : Task → Task} (ht : ¬ P t)
    (hf : ∀ task, task.phase ≠ .pending → (f task).phase ≠ .pending) (w : World) :
    Spares P w (w.updateTask t f) := by
  have hknown : ∀ u : TaskId, (w.tasks[u]?).isSome → ((w.updateTask t f).tasks[u]?).isSome := by
    intro u hu
    rw [getElem?_updateTask]
    split <;> simpa using hu
  have hended : ∀ u, w.Ended u → (w.updateTask t f).Ended u := by grind [Ended, getElem?_updateTask]
  refine ⟨hknown, hended, ?_⟩
  rintro t' u hP ⟨⟨task, htask, hjoining, hstopping⟩, hu⟩
  refine ⟨⟨task, ?_, hjoining, fun hstop ↦ hended u (hstopping hstop)⟩, hknown u hu⟩
  grind [getElem?_updateTask]

theorem mark {v : TaskId} {b : Bool}
    (h : b = true → ∀ task, w.tasks[v]? = some task → ∀ u, task.joining = some u →
      w.isPending u = false) :
    Spares P w (w.updateTask v ({ · with stopping := b })) := by
  -- as a change of a task outside every set it keeps all but the wait of the marked task itself
  have hrest : Spares (· ≠ v) w (w.updateTask v ({ · with stopping := b })) := by
    refine .updateTask (fun h ↦ h rfl) ?_ w
    exact fun _ hphase ↦ hphase
  refine ⟨hrest.known, hrest.ended, fun t' u _ hjoined ↦ ?_⟩
  by_cases heq : t' = v
  · subst heq
    obtain ⟨⟨task, htask, hjoining, -⟩, hu⟩ := hjoined
    obtain ⟨utask, hutask⟩ := Option.isSome_iff_exists.1 hu
    refine ⟨⟨{ task with stopping := b }, ?_, hjoining, fun hb ↦ hrest.ended u ?_⟩,
      hrest.known u hu⟩
    · rw [getElem?_updateTask, if_pos rfl, htask]
      rfl
    · exact ended_of_not_isPending hutask (h hb task htask u hjoining)
  · exact hrest.joined t' u heq hjoined

theorem cancel (w : World) (t : TaskId) : Spares P w (w.cancel t) := by
  rcases w.cancel_cases t with h | ⟨v, vtask, hv, -, hfree, h⟩
  · rw [h]
    exact .of_tasks_eq rfl
  · rw [h]
    refine .mark fun _ task htask ↦ ?_
    cases hv.symm.trans htask
    exact hfree

theorem startTask (w : World) (oversight : Oversight) (job : Job) :
    Spares P w (w.startTask oversight job).2 := by
  have hkept : ∀ (t : TaskId) (task : Task), w.tasks[t]? = some task →
      (w.startTask oversight job).2.tasks[t]? = some task := by grind [getElem?_startTask]
  have hended : ∀ t, w.Ended t → (w.startTask oversight job).2.Ended t := by
    rintro t ⟨task, htask, hphase⟩
    exact ⟨task, hkept t task htask, hphase⟩
  have hknown : ∀ t : TaskId, (w.tasks[t]?).isSome →
      ((w.startTask oversight job).2.tasks[t]?).isSome := by
    grind
  refine ⟨hknown, hended, ?_⟩
  rintro t u - ⟨⟨task, htask, hjoining, hstopping⟩, hu⟩
  exact ⟨⟨task, hkept t task htask, hjoining, fun h ↦ hended u (hstopping h)⟩, hknown u hu⟩

theorem endTask (ht : ¬ P t) (w : World) (result : Except Stop Value) :
    Spares P w (w.endTask t result) := by
  obtain ⟨phase, outcome, log, host, hphase, heq⟩ := w.endTask_eq t result
  have hrecord : Spares P w (w.updateTask t ({ · with phase, outcome, stopping := false })) := by
    refine .updateTask ht ?_ w
    exact fun _ _ ↦ hphase
  rw [heq]
  exact hrecord.trans (.of_tasks_eq rfl)

end Spares

end TriggerScript.World

namespace TriggerScript.Activity

open World

variable {w : World} {t : TaskId}

/-! ### Waiting for the end of a task -/

theorem join_of_not_isPending (h : w.isPending t = false) : join t w = .ended (.ok ()) w := by
  show (if w.isPending t then _ else _ : Activity Unit) w = _
  rw [h]
  rfl

theorem join_of_isPending (h : w.isPending t = true) :
    ∃ resume, join t w = .waiting (.join t)
        (w.updateTask w.running ({ · with joining := some t, stopping := false })) resume ∧
      ∀ reply w', resume reply w' =
        .ended (.ok ()) (w'.updateTask w'.running ({ · with joining := none })) := by
  have hjoin : join t w = (do
      modify fun w ↦ w.updateTask w.running ({ · with joining := some t, stopping := false })
      settle (do let _ ← ask (.join t))
      modify fun w ↦ w.updateTask w.running ({ · with joining := none }) : Activity Unit) w := by
    show (if w.isPending t then _ else _ : Activity Unit) w = _
    rw [h]
    rfl
  rw [hjoin]
  refine ⟨_, rfl, fun reply w' ↦ ?_⟩
  cases reply <;> rfl

theorem stopTask_of_ne (h : t ≠ w.running) : stopTask t w = join t (w.cancel t) := by
  show (if t = w.running then _ else _ : Activity Unit) w = _
  rw [if_neg h]
  rfl

end TriggerScript.Activity
