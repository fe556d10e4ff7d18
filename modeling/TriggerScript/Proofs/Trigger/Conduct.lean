import TriggerScript.Proofs.Trigger.Discreet

/-!
# What each job does to the tasks that watch

Tasks begin to watch where the host has started, and where a new compilation takes the place of the
last one. Both end by starting the triggers of a table without a pause, so such a slice starts one
task for each of them and no other (`World.begins_startAll`). `Job.Allows` says for each job what
its slices do, and `Interp.under_perform` that they do.
-/

namespace TriggerScript

namespace World

def startWatch (w : World) (t : TriggerId) : World :=
  let w' := (w.startTask .logged (.watch t)).2
  { w' with triggers := w'.triggers.modify t ({ · with task := some w.tasks.size }) }

def startAll (w : World) (ts : List TriggerId) : World := ts.foldl startWatch w

variable {t u : TriggerId} {i : TaskId} {ts : List TriggerId} (w : World)

theorem pends_startWatch (t : TriggerId) (i : TaskId) (job : Job) :
    (w.startWatch t).Pends i job ↔ i = w.tasks.size ∧ job = .watch t ∨ w.Pends i job :=
  (pends_of_tasks_eq rfl).trans (w.pends_startTask .logged (.watch t) i job)

theorem taskOf?_startWatch (ht : t < w.triggers.size) :
    (w.startWatch t).taskOf? t = some w.tasks.size := by
  show ((w.triggers.modify t _)[t]?).bind _ = _
  rw [Array.getElem?_modify, if_pos rfl, Array.getElem?_eq_getElem ht]
  rfl

theorem taskOf?_startWatch_of_ne (h : u ≠ t) : (w.startWatch t).taskOf? u = w.taskOf? u := by
  simp [taskOf?, startWatch, startTask, Array.getElem?_modify, h.symm]

theorem grows_startWatch (t : TriggerId) : w.Grows (w.startWatch t) where
  triggers := by simp [startWatch, startTask]
  tasks := (Grows.startTask w .logged (.watch t)).tasks
  pends i job hi := by simp [pends_startWatch, Nat.ne_of_lt hi]
  enlisted := ⟨[(w.tasks.size, .watch t)], rfl, by simp, by simp [pends_startWatch]⟩

theorem startAll_cons (t : TriggerId) (ts : List TriggerId) :
    w.startAll (t :: ts) = (w.startWatch t).startAll ts := rfl

theorem grows_startAll (ts : List TriggerId) : w.Grows (w.startAll ts) := by
  induction ts generalizing w with
  | nil => exact .refl w
  | cons t rest ih => exact (w.grows_startWatch t).trans (ih (w.startWatch t))

theorem folder_startAll (ts : List TriggerId) : (w.startAll ts).folder = w.folder := by
  induction ts generalizing w with
  | nil => rfl
  | cons t rest ih => exact ih (w.startWatch t)

theorem taskOf?_startAll_of_not_mem (h : u ∉ ts) : (w.startAll ts).taskOf? u = w.taskOf? u := by
  induction ts generalizing w with
  | nil => rfl
  | cons t rest ih =>
    obtain ⟨hne, hrest⟩ := not_or.1 (List.mem_cons.not.1 h)
    exact (ih (w.startWatch t) hrest).trans (w.taskOf?_startWatch_of_ne hne)

theorem taskOf?_startAll_cons (ht : t ∉ ts) (hexist : t < w.triggers.size) :
    (w.startAll (t :: ts)).taskOf? t = some w.tasks.size := by
  rw [startAll_cons, taskOf?_startAll_of_not_mem _ ht, w.taskOf?_startWatch hexist]

theorem taskOf?_startAll (hnodup : ts.Nodup) (hexist : ∀ t ∈ ts, t < w.triggers.size) :
    ∀ t ∈ ts, ∃ i, w.tasks.size ≤ i ∧ (w.startAll ts).taskOf? t = some i := by
  induction ts generalizing w with
  | nil => nofun
  | cons u rest ih =>
    obtain ⟨hu, hrest⟩ := List.nodup_cons.1 hnodup
    have hgrows := w.grows_startWatch u
    intro t ht
    rcases List.mem_cons.1 ht with rfl | ht
    · exact ⟨w.tasks.size, Nat.le_refl _, w.taskOf?_startAll_cons hu (hexist t List.mem_cons_self)⟩
    · obtain ⟨i, hi, htask⟩ := ih (w.startWatch u) hrest
        (fun v hv ↦ Nat.lt_of_lt_of_le (hexist v (List.mem_cons_of_mem _ hv)) hgrows.triggers) t ht
      exact ⟨i, Nat.le_trans hgrows.tasks hi, htask⟩

theorem watches_startAll (hnodup : ts.Nodup) (hexist : ∀ t ∈ ts, t < w.triggers.size)
    (hi : w.tasks.size ≤ i) :
    (w.startAll ts).Watches t i ↔ t ∈ ts ∧ (w.startAll ts).taskOf? t = some i := by
  induction ts generalizing w with
  | nil =>
    refine iff_of_false (fun h ↦ ?_) (fun h ↦ by cases h.1)
    exact Nat.not_lt.2 hi h.lt
  | cons u rest ih =>
    obtain ⟨hu, hrest⟩ := List.nodup_cons.1 hnodup
    have hgrows := w.grows_startWatch u
    have hexist' : ∀ v ∈ rest, v < (w.startWatch u).triggers.size := fun v hv ↦
      Nat.lt_of_lt_of_le (hexist v (List.mem_cons_of_mem _ hv)) hgrows.triggers
    have hsize : (w.startWatch u).tasks.size = w.tasks.size + 1 := by simp [startWatch, startTask]
    have hself := w.taskOf?_startAll_cons hu (hexist u List.mem_cons_self)
    rw [startAll_cons] at hself ⊢
    by_cases hnew : i = w.tasks.size
    · -- the task of the first trigger
      subst hnew
      have hlt : w.tasks.size < (w.startWatch u).tasks.size := by omega
      rw [Watches, ((w.startWatch u).grows_startAll rest).pends _ _ hlt, pends_startWatch]
      have hnot : ¬ w.Pends w.tasks.size (.watch t) := fun h ↦ Nat.lt_irrefl _ h.lt
      constructor
      · grind
      · rintro ⟨hmem, htask⟩
        rcases List.mem_cons.1 hmem with rfl | hmem
        · exact .inl ⟨rfl, rfl⟩
        · obtain ⟨j, hj, htask'⟩ := (w.startWatch u).taskOf?_startAll hrest hexist' t hmem
          cases htask.symm.trans htask'
          omega
    · grind

variable {w}

theorem begins_startAll (h : w.Lists w.folder.triggers) : w.Begins (w.startAll w.compiled) where
  toGrows := w.grows_startAll w.compiled
  lists := by
    rw [folder_startAll]
    exact h.mono (w.grows_startAll w.compiled).triggers
  begun t ht := by
    rw [compiled, folder_startAll] at ht
    exact w.taskOf?_startAll h.nodup h.exist t ht
  watched t i hi := by
    have hcompiled : (w.startAll w.compiled).compiled = w.compiled := by
      rw [compiled, folder_startAll, compiled]
    rw [hcompiled]
    exact w.watches_startAll h.nodup h.exist hi

end World

namespace Activity

variable {w : World}

theorem each_startTrigger (table : List (String × TriggerId)) (w : World) :
    each table (fun p ↦ startTrigger p.2) w = .ended (.ok ()) (w.startAll (table.map (·.2))) := by
  induction table generalizing w with
  | nil => rfl
  | cons p rest ih => exact ih (w.startWatch p.2)

theorem modest_of_discreet {α : Type} {x : Activity α} (hx : discreet.Obeys default x) :
    x.Grants World.Modest :=
  fun w ↦ (hx w).mono (fun _ _ _ h ↦ h) (fun _ _ h ↦ h.toModest) fun _ _ h ↦ h

theorem modest_bind {α β : Type} {x : Activity α} {f : α → Activity β} (hx : x.Grants World.Modest)
    (hf : ∀ a, (f a).Grants World.Modest) : (x >>= f).Grants World.Modest :=
  hx.bind (fun _ _ _ h h' ↦ h.trans h') hf

theorem modest_stopTrigger (t : TriggerId) : (stopTrigger t).Grants World.Modest := by
  have done : (Pure.pure () : Activity Unit).Grants World.Modest :=
    modest_of_discreet (discreet.pure ())
  refine modest_bind (modest_of_discreet (discreet.read _)) fun trigger ↦ ?_
  split
  · exact done
  · split
    · exact done
    · refine modest_bind (modest_of_discreet (discreet_permissive.retire _)) fun _ ↦
        modest_bind (modest_of_discreet (discreet.stopTask _)) fun _ ↦ grants_modify fun w ↦ ?_
      exact ⟨⟨by simp, Nat.le_refl _, fun _ _ _ ↦ Iff.rfl, [], by simp⟩, rfl, fun _ _ h ↦ h.lt⟩

theorem modest_stopTriggers : stopTriggers.Grants World.Modest := by
  refine modest_bind (modest_of_discreet (discreet.read _)) fun table ↦ ?_
  induction table with
  | nil => exact modest_of_discreet (discreet.pure ())
  | cons p rest ih => exact modest_bind (modest_stopTrigger p.2) fun _ ↦ ih

end Activity

/-! ### Jobs -/

def Rely.sound : Rely := fun _ w w' ↦ w.triggers.size ≤ w'.triggers.size ∧
    w'.Lists w'.folder.triggers

def Job.Allows : Job → World → World → Prop
  | .deliver .startTriggers _, w, w' => w.Modest w' ∨ w.Begins w'
  | .serve .reload _, w, w' => w.Modest w' ∨ w.Begins w'
  | .deliver .stopTriggers _, w, w' => w.Modest w'
  | .stop _, w, w' => w.Modest w'
  | .setup, w, w' => w.Grows w' ∧ w'.Lists w'.folder.triggers
  | _, w, w' => w.Discreet w'

namespace Interp

open Activity

variable {I : Interp} {w : World}

theorem begins_keepCompiled {c : Compiled} (h : w.Lists c.triggers) :
    ∃ w', (do keepCompiled c; each c.triggers fun p ↦ startTrigger p.2 : Activity Unit) w =
      .ended (.ok ()) w' ∧ w.Begins w' := by
  let w₁ : World :=
    { w with folder := { w.folder with triggers := c.triggers, services := c.services } }
  have hbegins : w₁.Begins (w₁.startAll (c.triggers.map (·.2))) :=
    World.begins_startAll ⟨h.nodup, h.exist⟩
  exact ⟨_, each_startTrigger c.triggers w₁, hbegins.of_eq rfl rfl rfl⟩

theorem under_startTriggers (h : w.Lists w.folder.triggers) :
    ∃ w', (do listen "state_changed" .stateChanged; startTriggers : Activity Unit) w =
      .ended (.ok ()) w' ∧ w.Begins w' := by
  let w₁ : World := { w with host := (w.host.listen "state_changed" .stateChanged).2 }
  have hbegins : w₁.Begins (w₁.startAll w₁.compiled) := World.begins_startAll ⟨h.nodup, h.exist⟩
  exact ⟨_, each_startTrigger w.folder.triggers w₁, hbegins.of_eq rfl rfl rfl⟩

theorem under_reload (hI : discreet.Obeyed I) (w : World) :
    (I.reload w).Under .sound (fun w w' ↦ w.Modest w' ∨ w.Begins w') (fun _ _ ↦ True) w := by
  have hle : ∀ w w' : World, w.Modest w' → w.Modest w' ∨ w.Begins w' := fun _ _ ↦ .inl
  have htrans : ∀ w w₁ w' : World, w.Modest w₁ → w₁.Modest w' ∨ w₁.Begins w' →
      w.Modest w' ∨ w.Begins w' := fun _ _ _ h h' ↦ h'.imp h.trans fun h' ↦ h'.after h
  have hany : ∀ r w w', Rely.sound r w w' → Rely.free r w w' := fun _ _ _ _ ↦ trivial
  have hstop := (modest_stopTriggers w).mono hany (fun _ _ h ↦ h) fun _ _ h ↦ h
  refine hstop.bind hle htrans fun _ w _ ↦ ?_
  have hremove : (removeServices w).Under .sound World.Modest (fun _ _ ↦ True) w :=
    ⟨World.Discreet.toModest (.of_eq rfl rfl rfl rfl rfl), fun _ _ ↦ trivial⟩
  refine hremove.bind hle htrans fun _ w _ ↦ ?_
  have hcompile : (I.compile w).Under .sound World.Modest (fun c w ↦ w.Lists c.triggers) w :=
    (under_compile hI w).mono (fun _ _ _ h ↦ h.1) (fun _ _ h ↦ h.toModest) fun _ _ h ↦ h
  refine hcompile.bind hle htrans fun c w hw ↦ ?_
  obtain ⟨w', hend, hbegins⟩ := begins_keepCompiled hw
  rw [hend]
  exact ⟨.inr hbegins, fun _ _ ↦ trivial⟩

theorem under_setup (hI : discreet.Obeyed I) (hw : w.Lists w.folder.triggers) :
    (I.setup w).Under .sound (fun w w' ↦ w.Grows w' ∧ w'.Lists w'.folder.triggers)
      (fun _ _ ↦ True) w := by
  show ((if w.folder.exists_ then _ else _ : Activity Bool) w).Under _ _ _ w
  split
  · have hcompile : (I.compile w).Under .sound World.Discreet (fun c w ↦ w.Lists c.triggers) w :=
      (under_compile hI w).mono (fun _ _ _ h ↦ h.1) (fun _ _ h ↦ h) fun _ _ h ↦ h
    -- while it compiles the table is that of others
    have hkeeps := hcompile.holding (K := fun w ↦ w.Lists w.folder.triggers) (fun _ _ _ hR _ ↦ hR.2)
      (fun _ _ hG h ↦ by rw [hG.table]; exact h.mono hG.triggers) hw
    refine hkeeps.bind (fun _ _ h ↦ ⟨h.1.toGrows, h.2⟩)
      (fun _ _ _ h h' ↦ ⟨h.1.toGrows.trans h'.1, h'.2⟩) fun c w hc ↦ ⟨⟨?_, ?_⟩, fun _ _ ↦ trivial⟩
    · exact ⟨Nat.le_refl _, Nat.le_refl _, fun _ _ _ ↦ Iff.rfl, [], by simp, by simp, by simp⟩
    · exact ⟨hc.1.nodup, hc.1.exist⟩
  · have hsay : w.Discreet _ :=
      (Act.say (E := .whole) (p := default) w "pyscript" .error
        "Folder pyscript not found in configuration folder").discreet
    exact ⟨⟨hsay.toGrows, hw.nodup, hw.exist⟩, fun _ _ ↦ trivial⟩

theorem under_perform (hI : discreet.Obeyed I) (job : Job) (hw : w.Lists w.folder.triggers) :
    (I.perform job w).Under .sound job.Allows (fun _ _ ↦ True) w := by
  have of_discreet {x : Activity Value} (hx : discreet.Obeys default x) :
      (x w).Under .sound World.Discreet (fun _ _ ↦ True) w :=
    (hx w).mono (fun _ _ _ _ ↦ trivial) (fun _ _ h ↦ h) fun _ _ h ↦ h
  have of_modest {x : Activity Unit} (hx : x.Grants World.Modest) :
      ((do x; return .none : Activity Value) w).Under .sound World.Modest (fun _ _ ↦ True) w :=
    ((hx w).mono (fun _ _ _ _ ↦ trivial) (fun _ _ h ↦ h) fun _ _ h ↦ h).map _
  match job with
  | .script c values => exact of_discreet (hI.run trivial values)
  | .call f c args named => exact of_discreet (discreet_permissive.callWith hI f c args named)
  | .watch t =>
    exact of_discreet (discreet.bind (discreet_permissive.watch hI t) fun _ ↦ discreet.pure _)
  | .stop t => exact of_modest (modest_stopTrigger t)
  | .deliver .notify e =>
    exact of_discreet (discreet.bind (discreet_permissive.onEventFired e) fun _ ↦ discreet.pure _)
  | .deliver .stateChanged e =>
    exact of_discreet (discreet.bind (discreet_permissive.onStateChanged e) fun _ ↦ discreet.pure _)
  | .deliver .startTriggers e =>
    obtain ⟨w', hend, hbegins⟩ := under_startTriggers hw
    show (((do listen "state_changed" .stateChanged; startTriggers : Activity Unit) w).bind
      _).Under _ _ _ w
    rw [hend]
    exact ⟨.inr hbegins, fun _ _ ↦ trivial⟩
  | .deliver .stopTriggers e => exact of_modest modest_stopTriggers
  | .serve .nothing data =>
    exact of_discreet (discreet.bind (discreet.pure ()) fun _ ↦ discreet.pure _)
  | .serve (.function name f globals) data =>
    exact of_discreet (discreet.bind (discreet_permissive.serveFunction data name f globals) fun _ ↦
      discreet.pure _)
  | .serve .reload data => exact (under_reload hI w).map _
  | .setup => exact (under_setup hI hw).map _

end Interp

end TriggerScript
