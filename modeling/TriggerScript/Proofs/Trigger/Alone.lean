import TriggerScript.Proofs.Trigger.Renewal

/-!
# Handling one thing at a time

If only one task at a time starts and stops triggers or compiles, and each trigger that is watched
refers to the task that watches it (`World.Tidy`), then that task finds all tasks that watch, asks
them to stop and waits until they have ended. So a new compilation takes the place of the last one
only when no task watches any more (`Interp.under_reload_alone`), whatever scripts do in the
meantime (`Rely.alone`).
-/

namespace TriggerScript

namespace World

/-- Each trigger that is watched refers to the task that watches it. -/
structure Tidy (w : World) : Prop where
  compiled : ∀ t i, w.Watches t i → t ∈ w.compiled
  linked : ∀ t i, w.Watches t i → w.taskOf? t = some i

/-- What others do while the task `r` waits: they start no task that watches. -/
structure Undisturbed (r : TaskId) (w w' : World) : Prop where
  table : w'.folder.triggers = w.folder.triggers
  triggers : w.triggers.size ≤ w'.triggers.size
  trigger : ∀ (t : TriggerId) trigger, w.triggers[t]? = some trigger →
    w'.triggers[t]? = some trigger
  watches : ∀ t i, w'.Watches t i → w.Watches t i
  spares : Spares (· = r) w w'

/-- The task `r` runs and watches for nothing, in a tidy world. -/
structure Handling (r : TaskId) (w : World) : Prop where
  running : w.running = r
  known : (w.tasks[r]?).isSome
  unwatching : ∀ t, ¬ w.Watches t r
  lists : w.Lists w.folder.triggers
  tidy : w.Tidy

variable {w w₁ w' : World} {r : TaskId} {t : TriggerId} {i : TaskId}

theorem taskOf?_of_trigger
    (h : ∀ (t : TriggerId) trigger, w.triggers[t]? = some trigger → w'.triggers[t]? = some trigger)
    (ht : w.taskOf? t = some i) : w'.taskOf? t = some i := by
  obtain ⟨trigger, htrigger, htask⟩ := Option.bind_eq_some_iff.1 ht
  rw [taskOf?, h t trigger htrigger]
  exact htask

theorem Tidy.watchedOnce (h : w.Tidy) : w.WatchedOnce where
  once t i j hi hj := Option.some.inj ((h.linked t i hi).symm.trans (h.linked t j hj))
  compiled := h.compiled

theorem Unwatched.tidy (h : w.Unwatched) : w.Tidy :=
  ⟨fun t i hw ↦ absurd hw (h t i), fun t i hw ↦ absurd hw (h t i)⟩

theorem Tidy.of_watches (h : w.Tidy) (htable : w'.folder.triggers = w.folder.triggers)
    (hwatches : ∀ t i, w'.Watches t i → w.Watches t i)
    (hlinked : ∀ t i, w'.Watches t i → w.taskOf? t = some i → w'.taskOf? t = some i) : w'.Tidy where
  compiled t i hw := by
    rw [World.compiled, htable]
    exact h.compiled t i (hwatches t i hw)
  linked t i hw := hlinked t i hw (h.linked t i (hwatches t i hw))

theorem Begins.tidy (h : Begins w w') (hnone : w.Unwatched) : w'.Tidy :=
  ⟨fun _ _ hw ↦ (h.linked_of_unwatched hnone hw).1, fun _ _ hw ↦ (h.linked_of_unwatched hnone hw).2⟩

theorem Begins.unwatched_of_not_renews (h : Begins w w') (hnot : ¬ w.Renews w') (htidy : w.Tidy) :
    w.Unwatched := by
  obtain ⟨htable, hnone⟩ := not_or.1 hnot
  intro t i hw
  have ht : t ∈ w'.compiled := by
    rw [World.compiled, not_not.1 htable]
    exact htidy.compiled t i hw
  obtain ⟨j, hj, htask⟩ := h.begun t ht
  exact hnone ⟨t, j, hj, (h.watched t j hj).2 ⟨ht, htask⟩⟩

namespace Undisturbed

theorem refl (r : TaskId) (w : World) : Undisturbed r w w where
  table := rfl
  triggers := Nat.le_refl _
  trigger _ _ h := h
  watches _ _ hw := hw
  spares := .of_tasks_eq rfl

theorem trans (h : Undisturbed r w w₁) (h' : Undisturbed r w₁ w') : Undisturbed r w w' where
  table := h'.table.trans h.table
  triggers := Nat.le_trans h.triggers h'.triggers
  trigger t trigger ht := h'.trigger t trigger (h.trigger t trigger ht)
  watches t i hw := h.watches t i (h'.watches t i hw)
  spares := h.spares.trans h'.spares

theorem tidy (h : Undisturbed r w w') (htidy : w.Tidy) : w'.Tidy :=
  htidy.of_watches h.table h.watches fun _ _ _ ↦ taskOf?_of_trigger h.trigger

theorem lists (h : Undisturbed r w w') (hlists : w.Lists w.folder.triggers) :
    w'.Lists w'.folder.triggers := by
  rw [h.table]
  exact hlists.mono h.triggers

end Undisturbed

theorem Discreet.undisturbed (h : Discreet w w') (hr : w.running ≠ r) : Undisturbed r w w' where
  table := h.table
  triggers := h.triggers
  trigger := h.trigger
  watches _ _ := h.watches_iff.1
  spares := ⟨h.spares.known, h.spares.ended, fun t u ht ↦ h.spares.joined t u (ht ▸ hr.symm)⟩

end World

def Rely.alone (r : TaskId) : Rely := fun request w w' ↦
  w.Undisturbed r w' ∧ w'.running = r ∧ ∀ u, request = .join u → w.Joined r u → w'.Ended u

namespace World.Handling

variable {w w' : World} {r : TaskId}

theorem alone (h : Handling r w) {request : Request} (hR : Rely.alone r request w w') :
    Handling r w' where
  running := hR.2.1
  known := hR.1.spares.known r h.known
  unwatching t hw := h.unwatching t (hR.1.watches t r hw)
  lists := hR.1.lists h.lists
  tidy := hR.1.tidy h.tidy

theorem discreet (h : Handling r w) (hG : w.Discreet w') : Handling r w' where
  running := hG.running.trans h.running
  known := hG.spares.known r h.known
  unwatching t hw := h.unwatching t (hG.watches_iff.1 hw)
  lists := by
    rw [hG.table]
    exact h.lists.mono hG.triggers
  tidy := h.tidy.of_watches hG.table (fun _ _ ↦ hG.watches_iff.1) fun _ _ _ ↦
    taskOf?_of_trigger hG.trigger

end World.Handling

namespace Activity

open World (Handling)

variable {α β : Type} {w : World} {r : TaskId}

theorem under_alone_of_discreet {x : Activity α} (hx : discreet.Obeys default x) {K : World → Prop}
    (hR : ∀ request w w', Rely.alone r request w w' → K w → K w')
    (hG : ∀ w w' : World, w.Discreet w' → K w → K w') (hw : K w) :
    (x w).Under (.alone r) (fun _ w ↦ K w) (fun _ w ↦ K w) w :=
  (((hx w).mono (fun _ _ _ _ ↦ trivial) (fun _ _ h ↦ h) fun _ _ h ↦ h).holding hR hG hw).mono
    (fun _ _ _ h ↦ h) (fun _ _ h ↦ h.2) fun _ _ h ↦ h.2

theorem under_stopTask_ended (u : TaskId) (hrunning : w.running = r)
    (hknown : (w.tasks[r]?).isSome) :
    (stopTask u w).Under (.alone r) (fun _ _ ↦ True)
    (fun _ w ↦ u = r ∨ w.isPending u = false) w := by
  by_cases hu : u = r
  · -- whoever stops itself goes on
    have hstop : discreet.Obeys default (stopTask u) := discreet.stopTask u
    refine (hstop w).mono (fun _ _ _ _ ↦ trivial) (fun _ _ _ ↦ trivial) fun _ _ _ ↦ ?_
    exact .inl hu
  · rw [stopTask_of_ne (hrunning ▸ hu)]
    have hasked := World.Discreet.cancel w u
    cases hpending : (w.cancel u).isPending u with
    | false =>
      rw [join_of_not_isPending hpending]
      exact ⟨trivial, fun _ _ ↦ .inr hpending⟩
    | true =>
      obtain ⟨resume, hjoin, hresume⟩ := join_of_isPending hpending
      rw [hjoin, hasked.running, hrunning]
      refine ⟨trivial, fun reply w₁ hw₁ ↦ ?_⟩
      rw [hresume]
      refine ⟨trivial, fun _ _ ↦ .inr ?_⟩
      -- it is marked as waiting, so it goes on only when the other task has ended
      have hjoined : World.Joined ((w.cancel u).updateTask r
          ({ · with joining := some u, stopping := false })) r u := by
        obtain ⟨task, htask⟩ := Option.isSome_iff_exists.1 (hasked.spares.known r hknown)
        obtain ⟨utask, hutask, -⟩ := World.isPending_iff.1 hpending
        refine ⟨⟨{ task with joining := some u, stopping := false }, ?_, rfl, nofun⟩, ?_⟩
        · rw [World.getElem?_updateTask, if_pos rfl, htask]
          rfl
        · rw [World.getElem?_updateTask, if_neg (Ne.symm hu), hutask]
          rfl
      have hended := hw₁.2.2 u rfl hjoined
      rw [World.isPending_updateTask]
      · exact hended.not_isPending
      · exact fun _ ↦ rfl

end Activity

/-! ### Stopping triggers -/

namespace World

/-- The task `r` has stopped the triggers `done` since `w₀`. -/
structure Stopping (r : TaskId) (w₀ : World) (done : List TriggerId) (w : World) : Prop where
  running : w.running = r
  known : (w.tasks[r]?).isSome
  table : w.folder.triggers = w₀.folder.triggers
  triggers : w₀.triggers.size ≤ w.triggers.size
  watches : ∀ t i, w.Watches t i → w₀.Watches t i
  linked : ∀ t < w₀.triggers.size, t ∉ done → w.taskOf? t = w₀.taskOf? t
  stopped : ∀ t < w₀.triggers.size, t ∈ done →
    w.taskOf? t = none ∧ ∀ i, w₀.taskOf? t = some i → ∀ u, ¬ w.Watches u i

namespace Stopping

variable {r : TaskId} {w₀ w w' : World} {done : List TriggerId} {t : TriggerId}

theorem nothing (hrunning : w.running = r) (hknown : (w.tasks[r]?).isSome) : Stopping r w [] w where
  running := hrunning
  known := hknown
  table := rfl
  triggers := Nat.le_refl _
  watches _ _ hw := hw
  linked _ _ _ := rfl
  stopped _ _ ht := nomatch ht

variable (h : Stopping r w₀ done w)

include h

theorem later (hrunning : w'.running = r) (hknown : (w'.tasks[r]?).isSome)
    (htable : w'.folder.triggers = w.folder.triggers) (hsize : w.triggers.size ≤ w'.triggers.size)
    (htrigger : ∀ (t : TriggerId) trigger, w.triggers[t]? = some trigger →
      w'.triggers[t]? = some trigger)
    (hwatches : ∀ t i, w'.Watches t i → w.Watches t i) : Stopping r w₀ done w' := by
  have htask (t : TriggerId) (ht : t < w₀.triggers.size) : w'.taskOf? t = w.taskOf? t := by
    have hget := Array.getElem?_eq_getElem (Nat.lt_of_lt_of_le ht h.triggers)
    rw [taskOf?, htrigger t _ hget, taskOf?, hget]
  refine ⟨hrunning, hknown, htable.trans h.table, Nat.le_trans h.triggers hsize,
    fun t i hw ↦ h.watches t i (hwatches t i hw), fun t ht hdone ↦ ?_, fun t ht hdone ↦ ?_⟩
  · rw [htask t ht, h.linked t ht hdone]
  · obtain ⟨hnone, hnot⟩ := h.stopped t ht hdone
    rw [htask t ht]
    exact ⟨hnone, fun i hi u hw ↦ hnot i hi u (hwatches u i hw)⟩

theorem alone {request : Request} (hR : Rely.alone r request w w') :
    Stopping r w₀ done w' :=
  h.later hR.2.1 (hR.1.spares.known r h.known) hR.1.table hR.1.triggers hR.1.trigger hR.1.watches

theorem discreet (hG : w.Discreet w') : Stopping r w₀ done w' :=
  h.later (hG.running.trans h.running) (hG.spares.known r h.known) hG.table hG.triggers hG.trigger
    fun _ _ ↦ hG.watches_iff.1

theorem add (hnone : t < w₀.triggers.size → w.taskOf? t = none)
    (hnot : t < w₀.triggers.size → ∀ i, w₀.taskOf? t = some i → ∀ u, ¬ w.Watches u i) :
    Stopping r w₀ (t :: done) w where
  running := h.running
  known := h.known
  table := h.table
  triggers := h.triggers
  watches := h.watches
  linked u hu hdone := h.linked u hu fun hmem ↦ hdone (List.mem_cons_of_mem _ hmem)
  stopped u hu hdone := by
    rcases List.mem_cons.1 hdone with rfl | hdone
    · exact ⟨hnone hu, hnot hu⟩
    · exact h.stopped u hu hdone

theorem add_of_none (hnone : w.taskOf? t = none) : Stopping r w₀ (t :: done) w := by
  refine h.add (fun _ ↦ hnone) fun ht i hi ↦ ?_
  by_cases hdone : t ∈ done
  · exact (h.stopped t ht hdone).2 i hi
  · rw [← h.linked t ht hdone, hnone] at hi
    cases hi

theorem forget {i : TaskId} (hi : w.taskOf? t = some i) (hnot : ∀ u, ¬ w.Watches u i) :
    Stopping r w₀ (t :: done)
      { w with triggers := w.triggers.modify t ({ · with task := none }) } := by
  have hother {u : TriggerId} (hu : t ≠ u) :
      World.taskOf? { w with triggers := w.triggers.modify t ({ · with task := none }) } u =
        w.taskOf? u := by
    simp [taskOf?, Array.getElem?_modify, hu]
  have hself : World.taskOf? { w with triggers := w.triggers.modify t ({ · with task := none }) }
      t = none := by
    cases hget : w.triggers[t]? <;> simp [taskOf?, Array.getElem?_modify, hget]
  refine ⟨h.running, h.known, h.table, by simpa using h.triggers, h.watches, fun u hu hdone ↦ ?_,
    fun u hu hdone ↦ ?_⟩
  · have hne : t ≠ u := fun heq ↦ hdone (heq ▸ List.mem_cons_self)
    rw [hother hne]
    exact h.linked u hu fun hmem ↦ hdone (List.mem_cons_of_mem _ hmem)
  · by_cases hne : t = u
    · subst hne
      refine ⟨hself, fun j hj ↦ ?_⟩
      by_cases hmem : t ∈ done
      · exact (h.stopped t hu hmem).2 j hj
      · rw [← h.linked t hu hmem, hi] at hj
        cases hj
        exact hnot
    · rw [hother hne]
      exact h.stopped u hu ((List.mem_cons.1 hdone).resolve_left (Ne.symm hne))

theorem not_linked {i : TaskId} (hw : w.Watches t i) {u : TriggerId} (hu : u < w₀.triggers.size)
    (hdone : u ∈ done) : w₀.taskOf? u ≠ some i :=
  fun hi ↦ (h.stopped u hu hdone).2 i hi t hw

theorem handling (hw₀ : Handling r w₀) : Handling r w where
  running := h.running
  known := h.known
  unwatching t hw := hw₀.unwatching t (h.watches t r hw)
  lists := by
    rw [h.table]
    exact hw₀.lists.mono h.triggers
  tidy := by
    refine hw₀.tidy.of_watches h.table h.watches fun t i hw htask ↦ ?_
    have ht : t < w₀.triggers.size := hw₀.lists.exist t (hw₀.tidy.compiled t i (h.watches t i hw))
    rw [h.linked t ht fun hdone ↦ h.not_linked hw ht hdone htask]
    exact htask

theorem unwatched (hlists : w₀.Lists w₀.folder.triggers) (hw₀ : w₀.Tidy) (hall : w₀.compiled ⊆ done) :
    w.Unwatched := by
  intro t i hw
  have hold := h.watches t i hw
  have ht := hw₀.compiled t i hold
  exact h.not_linked hw (hlists.exist t ht) (hall ht) (hw₀.linked t i hold)

end Stopping

end World

namespace Activity

open World (Handling Stopping)

variable {w₀ w : World} {r : TaskId}

theorem under_stopTrigger (hr : ∀ t, ¬ w₀.Watches t r) {done : List TriggerId} (t : TriggerId)
    (hw : Stopping r w₀ done w) :
    (stopTrigger t w).Under (.alone r) (fun _ w ↦ ∃ done, Stopping r w₀ done w)
      (fun _ w ↦ Stopping r w₀ (t :: done) w) w := by
  rw [stopTrigger, read_bind_apply]
  cases htrigger : w.triggers[t]? with
  | none =>
    have hdone := hw.add_of_none (t := t) (by rw [World.taskOf?, htrigger]; rfl)
    exact ⟨⟨_, hdone⟩, fun _ _ ↦ hdone⟩
  | some trigger =>
    cases htask : trigger.task with
    | none =>
      have hdone := hw.add_of_none (t := t) (by rw [World.taskOf?, htrigger]; exact htask)
      simp only [htask]
      exact ⟨⟨_, hdone⟩, fun _ _ ↦ hdone⟩
    | some u =>
      simp only [htask]
      -- the trigger refers to its task until the task has ended
      let K (w : World) : Prop := Stopping r w₀ done w ∧ w.taskOf? t = some u
      have hR (request : Request) (w w' : World) (h : Rely.alone r request w w') (hK : K w) :
          K w' :=
        ⟨hK.1.alone h, World.taskOf?_of_trigger h.1.trigger hK.2⟩
      have hG (w w' : World) (h : w.Discreet w') (hK : K w) : K w' :=
        ⟨hK.1.discreet h, World.taskOf?_of_trigger h.trigger hK.2⟩
      have hK : K w := ⟨hw, by rw [World.taskOf?, htrigger]; exact htask⟩
      have hretire := under_alone_of_discreet (discreet_permissive.retire trigger) hR hG hK
      refine hretire.bind (fun _ _ h ↦ ⟨_, h.1⟩) (fun _ _ _ _ h ↦ h) fun _ w hK ↦ ?_
      have hstopped := (under_alone_of_discreet (discreet.stopTask u) hR hG hK).and
        (under_stopTask_ended u hK.1.running hK.1.known)
      refine hstopped.bind (fun _ _ h ↦ ⟨_, h.1.1⟩) (fun _ _ _ _ h ↦ h) fun _ w h ↦ ?_
      obtain ⟨hK, hended⟩ := h
      have hnot (v : TriggerId) (hwatches : w.Watches v u) : False := by
        rcases hended with rfl | hended
        · exact hr v (hK.1.watches v u hwatches)
        · rw [hwatches.isPending] at hended
          cases hended
      have hforget := hK.1.forget hK.2 hnot
      exact ⟨⟨_, hforget⟩, fun _ _ ↦ hforget⟩

theorem under_stopTriggers (hr : ∀ t, ¬ w.Watches t r) (hw : Stopping r w [] w) :
    (stopTriggers w).Under (.alone r) (fun _ w' ↦ ∃ done, Stopping r w done w')
      (fun _ w' ↦ ∃ done, w.compiled ⊆ done ∧ Stopping r w done w') w := by
  have hall (table : List (String × TriggerId)) : ∀ (done : List TriggerId) (w₁ : World),
      Stopping r w done w₁ → (each table (fun p ↦ stopTrigger p.2) w₁).Under (.alone r)
        (fun _ w' ↦ ∃ done, Stopping r w done w')
        (fun _ w' ↦ ∃ done', table.map (·.2) ⊆ done' ∧ done ⊆ done' ∧ Stopping r w done' w')
          w₁ := by
    induction table with
    | nil =>
      intro done w₁ h
      exact ⟨⟨_, h⟩, fun _ _ ↦ ⟨done, List.nil_subset _, List.Subset.refl _, h⟩⟩
    | cons p rest ih =>
      intro done w₁ h
      refine (under_stopTrigger hr p.2 h).bind (fun _ _ h ↦ h) (fun _ _ _ _ h ↦ h) fun _ w₂ h₂ ↦ ?_
      refine (ih (p.2 :: done) w₂ h₂).mono (fun _ _ _ h ↦ h) (fun _ _ h ↦ h) ?_
      rintro _ w₃ ⟨done', hrest, hdone, h₃⟩
      obtain ⟨hp, hdone⟩ := List.cons_subset.1 hdone
      exact ⟨done', List.cons_subset.2 ⟨hp, hrest⟩, hdone, h₃⟩
  refine (hall w.folder.triggers [] w hw).mono (fun _ _ _ h ↦ h) (fun _ _ h ↦ h) ?_
  rintro _ w' ⟨done, hdone, -, h⟩
  exact ⟨done, hdone, h⟩

end Activity

namespace Interp

open Activity
open World (Handling Stopping)

variable {I : Interp} {w : World} {r : TaskId}

theorem under_reload_alone (hI : discreet.Obeyed I) (hw : Handling r w) :
    (I.reload w).Under (.alone r) (fun _ w ↦ w.Tidy) (fun _ _ ↦ True) w := by
  let K (w : World) : Prop := Handling r w ∧ w.Unwatched
  have hR (request : Request) (w w' : World) (h : Rely.alone r request w w') (hK : K w) : K w' :=
    ⟨hK.1.alone h, fun t i hw ↦ hK.2 t i (h.1.watches t i hw)⟩
  have hG (w w' : World) (h : w.Discreet w') (hK : K w) : K w' :=
    ⟨hK.1.discreet h, h.unwatched_iff.2 hK.2⟩
  have hstop := under_stopTriggers hw.unwatching (.nothing hw.running hw.known)
  refine hstop.bind (fun _ _ ⟨_, h⟩ ↦ (h.handling hw).tidy) (fun _ _ _ _ h ↦ h)
    fun _ w ⟨_, hall, h⟩ ↦ ?_
  have hK : K w := ⟨h.handling hw, h.unwatched hw.lists hw.tidy hall⟩
  have hremove : discreet.Obeys default removeServices :=
    discreet_modify fun w ↦ .of_eq rfl rfl rfl rfl rfl
  refine (under_alone_of_discreet hremove hR hG hK).bind (fun _ _ h ↦ h.1.tidy) (fun _ _ _ _ h ↦ h)
    fun _ w hK ↦ ?_
  have hcompile : (I.compile w).Under (.alone r) World.Discreet (fun c w ↦ w.Lists c.triggers) w :=
    (under_compile hI w).mono (fun _ _ _ h ↦ h.1.triggers) (fun _ _ h ↦ h) fun _ _ h ↦ h
  refine (hcompile.holding hR hG hK).bind (fun _ _ h ↦ h.2.1.tidy) (fun _ _ _ _ h ↦ h)
    fun c w ⟨hlists, hK⟩ ↦ ?_
  obtain ⟨w', hend, hbegins⟩ := begins_keepCompiled hlists
  rw [hend]
  exact ⟨hbegins.tidy hK.2, fun _ _ ↦ trivial⟩

end Interp

/-! ### Jobs -/

namespace Job

/-- The job handles the triggers of the folder. -/
def Handles : Job → Prop
  | .deliver .startTriggers _ | .deliver .stopTriggers _ | .serve .reload _ | .stop _ | .setup =>
    True
  | _ => False

instance : DecidablePred Handles := fun job ↦ by
  unfold Handles
  split <;> infer_instance

variable {job : Job} {w w' : World}

theorem Handles.ne_watch (h : job.Handles) (t : TriggerId) : job ≠ .watch t := by
  rintro rfl
  exact h

theorem Allows.discreet (h : job.Allows w w') (hjob : ¬ job.Handles) : w.Discreet w' := by
  unfold Allows at h
  split at h
  · exact absurd trivial hjob
  · exact absurd trivial hjob
  · exact absurd trivial hjob
  · exact absurd trivial hjob
  · exact absurd trivial hjob
  · exact h

def Tidies (job : Job) (w w' : World) : Prop :=
  ((∃ e, job = .deliver .startTriggers e) → w.Renews w' → w.Unwatched) → w'.Tidy

end Job

theorem Interp.under_perform_alone {I : Interp} (hI : discreet.Obeyed I) {job : Job}
    (hjob : job.Handles) (hsetup : job ≠ .setup) {w : World} {r : TaskId} (hw : w.Handling r) :
    (I.perform job w).Under (.alone r) job.Tidies (fun _ _ ↦ True) w := by
  have of_tidy {Q : Unit → World → Prop} {x : Activity Unit}
      (hx : (x w).Under (.alone r) (fun _ w ↦ w.Tidy) Q w) :
      ((do x; return .none : Activity Value) w).Under (.alone r) job.Tidies (fun _ _ ↦ True) w := by
    have htidies : (x w).Under (.alone r) job.Tidies Q w :=
      hx.mono (fun _ _ _ h ↦ h) (fun _ _ h _ ↦ h) fun _ _ h ↦ h
    exact htidies.map _
  have of_stopping {Q : Unit → World → Prop} {x : Activity Unit}
      (hx : (x w).Under (.alone r) (fun _ w' ↦ ∃ done, World.Stopping r w done w') Q w) :
      ((do x; return .none : Activity Value) w).Under (.alone r) job.Tidies (fun _ _ ↦ True) w :=
    of_tidy (hx.mono (fun _ _ _ h ↦ h) (fun _ _ ⟨_, h⟩ ↦ (h.handling hw).tidy) fun _ _ h ↦ h)
  have hnothing : World.Stopping r w [] w := .nothing hw.running hw.known
  cases job with
  | deliver l e =>
    cases l with
    | startTriggers =>
      obtain ⟨w', hend, hbegins⟩ := under_startTriggers hw.lists
      show (((do Activity.listen "state_changed" .stateChanged; Activity.startTriggers : Activity
        Unit) w).bind _).Under _ _ _ w
      rw [hend]
      refine ⟨fun hstart ↦ hbegins.tidy ?_, fun _ _ ↦ trivial⟩
      by_cases hnew : w.Renews w'
      · exact hstart ⟨e, rfl⟩ hnew
      · exact hbegins.unwatched_of_not_renews hnew hw.tidy
    | stopTriggers => exact of_stopping (Activity.under_stopTriggers hw.unwatching hnothing)
    | notify => exact absurd hjob id
    | stateChanged => exact absurd hjob id
  | serve s data =>
    cases s with
    | reload => exact of_tidy (under_reload_alone hI hw)
    | nothing => exact absurd hjob id
    | function name f globals => exact absurd hjob id
  | stop t => exact of_stopping (Activity.under_stopTrigger hw.unwatching t hnothing)
  | setup => exact absurd rfl hsetup
  | script c values => exact absurd hjob id
  | call f c args named => exact absurd hjob id
  | watch t => exact absurd hjob id

end TriggerScript
