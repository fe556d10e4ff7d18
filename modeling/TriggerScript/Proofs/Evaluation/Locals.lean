import TriggerScript.Proofs.Evaluation.Scope
import TriggerScript.Proofs.Value.Association

/-!
# The tables of calls

While a call is suspended its table lies on the stack of a context, and there is one way for others
to change it: a function that declared a name nonlocal binds or unbinds it there. A table is
**private** to a context if it lies on its stack or nowhere (`World.Private`). To shelter what is
private wherever an activity stands is a discipline (`sheltering`).
-/

namespace TriggerScript

open Syntax (Position Stmt)

namespace Context

def Within (n : Nat) (ctx : Context) : Prop :=
  ctx.globals < n ∧ ctx.locals < n ∧ ∀ t ∈ ctx.scope.stack, t < n

def Spares (d c : ContextId) (t : TableId) (ctx : Context) : Prop :=
  ctx.globals ≠ t ∧ ctx.locals ≠ t ∧ (t ∈ ctx.scope.stack → c = d)

theorem Within.mono {n m : Nat} {ctx : Context} (h : ctx.Within n) (hnm : n ≤ m) : ctx.Within m :=
  ⟨Nat.lt_of_lt_of_le h.1 hnm, Nat.lt_of_lt_of_le h.2.1 hnm,
    fun t ht ↦ Nat.lt_of_lt_of_le (h.2.2 t ht) hnm⟩

end Context

theorem Declarations.mem_of_inForce {ds : Declarations} {name : String} (h : name ∈ ds.inForce) :
    name ∈ ds.map (·.1) := by
  obtain ⟨d, hd, hname⟩ := List.mem_filterMap.1 h
  split at hname
  · exact Option.some.inj hname ▸ List.mem_map_of_mem hd
  · cases hname

namespace Function

variable (f : Function) {name : String} {inForce : Bool} {scoping : Scoping} {other : String}

theorem mem_globals_declare (h : name ∈ f.globals.map (·.1)) :
    name ∈ (f.declare other inForce scoping).globals.map (·.1) := by
  cases scoping with
  | global => exact (mem_keys_assign ..).2 (.inr h)
  | nonlocal => exact h

theorem mem_nonlocals_declare (h : name ∈ f.nonlocals.map (·.1)) :
    name ∈ (f.declare other inForce scoping).nonlocals.map (·.1) := by
  cases scoping with
  | global => exact h
  | nonlocal => exact (mem_keys_assign ..).2 (.inr h)

end Function

namespace World

/-- Contexts refer only to tables that exist. -/
def Formed (w : World) : Prop := ∀ c, (w.context c).Within w.tables.size

def Private (w : World) (d : ContextId) (t : TableId) : Prop :=
  t < w.tables.size ∧ ∀ c, (w.context c).Spares d c t

def Declares (w : World) (key : Key) : Prop :=
  ∃ f ∈ w.store.functions, ∃ name ∈ f.nonlocals.map (·.1), key = some name

variable {w w' : World} {c d : ContextId} {t : TableId} {S : Scope}

/-! ### Contexts and tables after a change -/

theorem context_updateContext (w : World) (c : ContextId) (f : Context → Context) (c' : ContextId) :
    (w.updateContext c f).context c' = w.context c' ∨
      c' = c ∧ (w.updateContext c f).context c' = f (w.context c) := by
  by_cases h : c = c'
  · subst h
    cases hctx : w.contexts[c]? with
    | none =>
      left
      simp [context, updateContext, Array.getElem?_modify, hctx]
    | some ctx =>
      right
      simp [context, updateContext, Array.getElem?_modify, hctx]
  · left
    simp [context, updateContext, Array.getElem?_modify, h]

theorem context_addContext (w : World) (name : String) (globals : TableId) (c : ContextId) :
    (w.addContext name globals).2.context c = w.context c ∨
      (w.addContext name globals).2.context c =
        { name, globals, current := globals, locals := w.tables.size } := by
  by_cases h : c = w.contexts.size
  · right
    simp [context, addContext, addTable, h]
  · left
    simp [context, addContext, addTable, Array.getElem?_push, h]

theorem table_updateTable_of_ne {t' : TableId} (h : t' ≠ t) (f : Table → Table) :
    (w.updateTable t' f).table t = w.table t := by
  simp [table, updateTable, Array.getElem?_modify, h]

theorem table_updateTable_self (h : t < w.tables.size) (f : Table → Table) :
    (w.updateTable t f).table t = f (w.table t) := by
  simp [table, updateTable, Array.getElem_modify, h]

theorem get?_updateTable {f : Table → Table} {key : Key}
    (hf : ∀ T : Table, (f T).get? key = T.get? key) (t' : TableId) :
    ((w.updateTable t' f).table t).get? key = (w.table t).get? key := by
  by_cases h : t' = t
  · subst h
    cases htable : w.tables[t']? <;> simp [table, updateTable, Array.getElem?_modify, htable, hf]
  · rw [table_updateTable_of_ne h]

theorem size_addTable (w : World) (T : Table) : (w.addTable T).2.tables.size = w.tables.size + 1 :=
  Array.size_push _

theorem size_addContext (w : World) (name : String) (globals : TableId) :
    (w.addContext name globals).2.tables.size = w.tables.size + 1 := Array.size_push _

theorem table_addTable (ht : t < w.tables.size) (T : Table) :
    (w.addTable T).2.table t = w.table t := by
  simp [table, addTable, Array.getElem?_push, Nat.ne_of_lt ht]

theorem functions_updateFunction {i : Ref} {g : Function} (h : w.store.functions[i]? = some g)
    (r : Ref) (f : Function → Function) :
    (w.updateFunction r f).store.functions[i]? = some (if r = i then f g else g) := by
  by_cases hr : r = i <;> simp [updateFunction, Array.getElem?_modify, h, hr]

/-! ### What is formed and what is private -/

theorem Formed.of_contexts (h : w.Formed) (hsize : w.tables.size ≤ w'.tables.size)
    (hcontexts : ∀ c, w'.context c = w.context c ∨ (w'.context c).Within w'.tables.size) :
    w'.Formed := by
  intro c
  rcases hcontexts c with heq | hwithin
  · rw [heq]
    exact (h c).mono hsize
  · exact hwithin

theorem Private.of_contexts (h : w.Private d t) (hsize : w.tables.size ≤ w'.tables.size)
    (hcontexts : ∀ c, w'.context c = w.context c ∨ (w'.context c).Spares d c t) :
    w'.Private d t := by
  refine ⟨Nat.lt_of_lt_of_le h.1 hsize, fun c ↦ ?_⟩
  rcases hcontexts c with heq | hspares
  · rw [heq]
    exact h.2 c
  · exact hspares

theorem Private.current_ne (h : w.Private d t) (hS : w.scope? d = some S) (ht : S.current ≠ t)
    (c : ContextId) : (w.context c).current ≠ t := by
  rintro rfl
  obtain rfl := (h.2 c).2.2 (List.mem_cons_self ..)
  have hscope := scope_context hS
  exact ht (by rw [← hscope]; rfl)

theorem declares_of_isNonlocal {ctx : Context} {name : String} (h : w.isNonlocal ctx name) :
    w.Declares (some name) := by
  unfold isNonlocal at h
  split at h
  · rename_i f hf
    obtain ⟨r, -, hr⟩ := Option.bind_eq_some_iff.1 hf
    have hname : name ∈ f.nonlocalNames := by simpa using h
    exact ⟨f, Array.mem_of_getElem? hr, name, Declarations.mem_of_inForce hname, rfl⟩
  · cases h

end World

/-! ### Tables that are sheltered -/

/-- The stack of `d` has grown by `left`, what was private stays private, and in private tables
outside `own` only names that were declared nonlocal have changed. -/
structure Sheltered (own : TableId → Prop) (d : ContextId) (left : List TableId) (w w' : World) :
    Prop where
  kept : Kept d left w w'
  formed : w.Formed → w'.Formed
  opened : w.Formed → ∀ t ∈ left, w'.Private d t
  stays : ∀ t, w.Private d t → w'.Private d t
  declares : ∀ key, w.Declares key → w'.Declares key
  spares : ∀ t, w.Private d t → ¬ own t → ∀ key,
    w'.Declares key ∨ (w'.table t).get? key = (w.table t).get? key

namespace Sheltered

variable {own own' : TableId → Prop} {d : ContextId} {left : List TableId} {w w₁ w' : World}

theorem of_contexts_eq (hkept : Kept d [] w w') (hcontexts : w'.contexts = w.contexts)
    (hdeclares : ∀ key, w.Declares key → w'.Declares key)
    (hspares : ∀ t, w.Private d t → ¬ own t → ∀ key,
      w'.Declares key ∨ (w'.table t).get? key = (w.table t).get? key) :
    Sheltered own d [] w w' := by
  have hcontext (c : ContextId) : w'.context c = w.context c := by
    unfold World.context
    rw [hcontexts]
  exact ⟨hkept, fun h ↦ h.of_contexts hkept.tables fun c ↦ .inl (hcontext c), nofun,
    fun t h ↦ h.of_contexts hkept.tables fun c ↦ .inl (hcontext c), hdeclares, hspares⟩

theorem refl {S : Scope} (hS : w.scope? d = some S) : Sheltered own d [] w w :=
  of_contexts_eq (.refl hS) rfl (fun _ h ↦ h) fun _ _ _ _ ↦ .inr rfl

theorem trans {more : List TableId} (h₁ : Sheltered own d left w w₁)
    (h₂ : Sheltered own d more w₁ w') : Sheltered own d (more ++ left) w w' := by
  refine ⟨h₁.kept.trans h₂.kept, fun hw ↦ h₂.formed (h₁.formed hw), fun hw t ht ↦ ?_,
    fun t ht ↦ h₂.stays t (h₁.stays t ht), fun key h ↦ h₂.declares key (h₁.declares key h),
    fun t ht hown key ↦ ?_⟩
  · grind [h₂.opened (h₁.formed hw) t, h₂.stays t, h₁.opened hw t]
  · grind [h₂.spares t (h₁.stays t ht) hown key, h₁.spares t ht hown key, h₂.declares key]

theorem mono (h : Sheltered own d left w w') (hown : ∀ t, w.Private d t → own t → own' t) :
    Sheltered own' d left w w' :=
  { h with spares := fun t ht hout ↦ h.spares t ht fun hin ↦ hout (hown t ht hin) }

theorem undisturbed (h : Sheltered (w.tables.size ≤ ·) d left w w') :
    Sheltered (fun _ ↦ False) d left w w' :=
  h.mono fun _ ht hnew ↦ absurd ht.1 (Nat.not_lt.2 hnew)

end Sheltered

variable {c d : ContextId} {left : List TableId} {S : Scope} {u : TableId} {own : TableId → Prop}
  {w w' : World}

theorem Sheltered.of_contexts (hkept : Kept d left w w')
    (hopened : w.Formed → ∀ t ∈ left, w'.Private d t)
    (hformed : w.Formed → ∀ c, w'.context c = w.context c ∨ (w'.context c).Within w'.tables.size)
    (hspares : ∀ t, w.Private d t → ∀ c, w'.context c = w.context c ∨ (w'.context c).Spares d c t)
    (hfunctions : w'.store.functions = w.store.functions)
    (htables : ∀ t < w.tables.size, w'.table t = w.table t) : Sheltered own d left w w' := by
  refine ⟨hkept, fun h ↦ h.of_contexts hkept.tables (hformed h), hopened,
    fun t h ↦ h.of_contexts hkept.tables (hspares t h), fun key h ↦ ?_, fun t ht _ key ↦ .inr ?_⟩
  · unfold World.Declares
    rw [hfunctions]
    exact h
  · rw [htables t ht.1]

theorem Sheltered.of_updateContext {w₁ : World} {f : Context → Context}
    (hkept : Kept d left w (w₁.updateContext c f))
    (hopened : w.Formed → ∀ t ∈ left, (w₁.updateContext c f).Private d t)
    (hcontexts : w₁.contexts = w.contexts)
    (hwithin : (w.context c).Within w.tables.size → (f (w.context c)).Within w₁.tables.size)
    (hspares : ∀ t < w.tables.size, (w.context c).Spares d c t → (f (w.context c)).Spares d c t)
    (hfunctions : w₁.store.functions = w.store.functions)
    (htables : ∀ t < w.tables.size, w₁.table t = w.table t) :
    Sheltered own d left w (w₁.updateContext c f) := by
  have hcontext (c : ContextId) : w₁.context c = w.context c := by
    unfold World.context
    rw [hcontexts]
  have hchanged (c' : ContextId) : (w₁.updateContext c f).context c' = w.context c' ∨
      c' = c ∧ (w₁.updateContext c f).context c' = f (w.context c) := by
    have h := w₁.context_updateContext c f c'
    rwa [hcontext, hcontext] at h
  refine .of_contexts hkept hopened (fun h c' ↦ ?_) (fun t ht c' ↦ ?_) hfunctions htables
  · refine (hchanged c').imp_right fun ⟨_, hnew⟩ ↦ ?_
    rw [hnew]
    exact hwithin (h c)
  · refine (hchanged c').imp_right fun ⟨hc, hnew⟩ ↦ ?_
    rw [hnew, hc]
    exact hspares t ht.1 (ht.2 c)

theorem Sheltered.updateTable (hS : w.scope? d = some S) (hu : ∀ t, w.Private d t → ¬ own t → u ≠ t)
    (f : Table → Table) : Sheltered own d [] w (w.updateTable u f) := by
  refine .of_contexts_eq (.updateTable hS u f) rfl (fun _ h ↦ h) fun t ht hout key ↦ .inr ?_
  rw [World.table_updateTable_of_ne (hu t ht hout)]

theorem Sheltered.binds (hS : w.scope? d = some S) (hown : own S.current) {name : String}
    (hu : w.Binds (w.context c) name u) {f : Table → Table}
    (hf : ∀ T key, key ≠ some name → (f T).get? key = T.get? key) :
    Sheltered own d [] w (w.updateTable u f) := by
  rcases hu with ⟨-, rfl⟩ | rfl | ⟨hname, -⟩
  · exact .updateTable hS (fun t ht _ ↦ (ht.2 c).1) f
  · exact .updateTable hS (fun t ht hout ↦ ht.current_ne hS (fun heq ↦ hout (heq ▸ hown)) c) f
  · refine .of_contexts_eq (.updateTable hS u f) rfl (fun _ h ↦ h) fun t ht hout key ↦ ?_
    by_cases hkey : key = some name
    · exact .inl (hkey ▸ World.declares_of_isNonlocal hname)
    · exact .inr (World.get?_updateTable (fun T ↦ hf T key hkey) u)

theorem Act.sheltered {E : Owned} {p : Site} (h : Act E p w w') (hS : w.scope? d = some S)
    (hown : own S.current) : Sheltered own d [] w w' := by
  have hkept := h.kept hS
  induction h with
  | refl w => exact .refl hS
  | trans h₁ _ ih₁ ih₂ =>
    have h₁ := ih₁ hS (h₁.kept hS)
    have hS₁ := (h₁.kept.scope_eq_iff.2 rfl).trans hS
    exact h₁.trans (ih₂ hS₁ (Act.kept ‹_› hS₁))
  | define w f =>
    refine .of_contexts_eq hkept rfl (fun key hkey ↦ ?_) fun _ _ _ _ ↦ .inr rfl
    obtain ⟨g, hg, hnames⟩ := hkey
    exact ⟨g, Array.mem_push_of_mem f hg, hnames⟩
  | declare w r other inForce scoping =>
    refine .of_contexts_eq hkept rfl (fun key hkey ↦ ?_) fun _ _ _ _ ↦ .inr rfl
    obtain ⟨g, hg, name, hname, rfl⟩ := hkey
    obtain ⟨i, hi⟩ := Array.getElem?_of_mem hg
    refine ⟨_, Array.mem_of_getElem? (World.functions_updateFunction hi r _), name, ?_, rfl⟩
    split
    · exact g.mem_nonlocals_declare hname
    · exact hname
  | bind _ w key v =>
    exact .updateTable hS (fun t ht hout ↦ ht.current_ne hS (fun heq ↦ hout (heq ▸ hown)) _) _
  | @give w c _ entries =>
    obtain heq | ⟨-, heq⟩ := w.give_cases c entries <;> rw [heq]
    · exact .refl hS
    · exact .updateTable hS (fun t ht _ ↦ (ht.2 c).2.1) _
  | assign _ w hu v => exact .binds hS hown hu fun T key hkey ↦ T.get?_put_of_ne v hkey
  | unbind _ w hu => exact .binds hS hown hu fun T key hkey ↦ T.get?_erase_of_ne hkey
  | context w c name =>
    refine .of_contexts hkept (fun _ ↦ List.forall_mem_nil _) (fun h c' ↦ ?_) (fun t ht c' ↦ ?_) rfl
      fun t ht ↦ ?_
    · refine (w.context_addContext name _ c').imp_right fun hnew ↦ ?_
      have hglobals := (h c).1
      rw [hnew, World.size_addContext]
      refine ⟨Nat.lt_succ_of_lt hglobals, Nat.lt_succ_self _, fun t ht ↦ ?_⟩
      obtain rfl := List.mem_singleton.1 ht
      exact Nat.lt_succ_of_lt hglobals
    · refine (w.context_addContext name _ c').imp_right fun hnew ↦ ?_
      have hglobals := (ht.2 c).1
      rw [hnew]
      refine ⟨hglobals, Nat.ne_of_gt ht.1, fun hmem ↦ ?_⟩
      obtain rfl := List.mem_singleton.1 hmem
      exact absurd rfl hglobals
    · exact World.table_addTable ht {}
  | install w _ T =>
    refine .of_updateContext hkept (fun _ ↦ List.forall_mem_nil _) rfl (fun h ↦ ?_)
      (fun t ht h ↦ ?_) rfl fun t ht ↦ World.table_addTable ht T
    · have hmore := h.mono (Nat.le_succ _)
      rw [World.size_addTable]
      exact ⟨hmore.1, Nat.lt_succ_self _, hmore.2.2⟩
    · exact ⟨h.1, Nat.ne_of_gt ht, h.2.2⟩
  | @remember w c _ f hf =>
    obtain ⟨_, _, _, _, hctx⟩ := hf (w.context c)
    refine .of_updateContext hkept (fun _ ↦ List.forall_mem_nil _) rfl (fun h ↦ ?_)
      (fun t ht h ↦ ?_) rfl fun _ _ ↦ rfl
    · rw [hctx]
      exact h
    · rw [hctx]
      exact h
  | _ => exact .of_contexts_eq hkept rfl (fun _ h ↦ h) fun _ _ _ _ ↦ .inr rfl

/-! ### Steps and activities that shelter tables -/

namespace Step

variable {own : TableId → Prop} {d : ContextId} {α β : Type} {w w₀ w₁ : World}

def Shelters (own : TableId → Prop) (d : ContextId) (w₀ : World) : Step α → Prop
  | ended _ w => ∃ left, Sheltered own d left w₀ w
  | waiting _ w resume =>
    (∃ left, Sheltered own d left w₀ w) ∧
      ∀ reply w₁, Sheltered own d [] w w₁ → (resume reply w₁).Shelters own d w₀

variable {s : Step α}

theorem Shelters.after {left : List TableId} (h : s.Shelters own d w₁)
    (h₀ : Sheltered own d left w₀ w₁) : s.Shelters own d w₀ := by
  induction s with
  | ended r w =>
    obtain ⟨more, hmore⟩ := h
    exact ⟨more ++ left, h₀.trans hmore⟩
  | waiting request w resume ih =>
    obtain ⟨⟨more, hmore⟩, hresume⟩ := h
    exact ⟨⟨more ++ left, h₀.trans hmore⟩, fun reply w' hw' ↦ ih reply w' (hresume reply w' hw')⟩

theorem Shelters.bind {k : α → World → Step β} (h : s.Shelters own d w₀)
    (hk : ∀ a w left, Sheltered own d left w₀ w → (k a w).Shelters own d w) :
    (s.bind k).Shelters own d w₀ := by
  induction s with
  | ended r w =>
    cases r with
    | ok a =>
      obtain ⟨left, hleft⟩ := h
      exact (hk a w left hleft).after hleft
    | error e => exact h
  | waiting request w resume ih =>
    exact ⟨h.1, fun reply w' hw' ↦ ih reply w' (h.2 reply w' hw')⟩

theorem Shelters.attempt (h : s.Shelters own d w₀) : s.attempt.Shelters own d w₀ := by
  induction s with
  | ended r w => rcases r with (f | _ | _) | a <;> exact h
  | waiting request w resume ih =>
    exact ⟨h.1, fun reply w' hw' ↦ ih reply w' (h.2 reply w' hw')⟩

end Step

/-- The table of the running call and all tables to come are among `own`. -/
structure Owns (own : TableId → Prop) (d : ContextId) (w : World) : Prop where
  current : ∃ S, w.scope? d = some S ∧ own S.current
  new : ∀ t, w.tables.size ≤ t → own t

theorem Owns.later (h : Owns own d w) (hkept : Kept d left w w') : Owns own d w' := by
  obtain ⟨S, S', hS, hS', hstack, -⟩ := hkept.scope
  refine ⟨⟨S', hS', ?_⟩, fun t ht ↦ h.new t (Nat.le_trans hkept.tables ht)⟩
  have hcurrent := congrArg List.head? hstack
  cases left with
  | nil =>
    obtain ⟨T, hT, hown⟩ := h.current
    grind [Scope.stack]
  | cons t left => grind [Scope.stack, h.new t (hkept.fresh t (List.mem_cons_self ..)).1]

namespace Activity

variable {d : ContextId} {α β : Type}

def Shelters (d : ContextId) (x : Activity α) : Prop :=
  ∀ own w, Owns own d w → (x w).Shelters own d w

variable {x : Activity α} {p : Site}

theorem Shelters.bind {f : α → Activity β} (hx : Shelters d x) (hf : ∀ a, Shelters d (f a)) :
    Shelters d (x >>= f) :=
  fun own w hown ↦ (hx own w hown).bind fun a w' _ hw' ↦ hf a own w' (hown.later hw'.kept)

theorem shelters_read (f : World → α) : Shelters d (read f) := by
  intro own w hown
  obtain ⟨S, hS, -⟩ := hown.current
  exact ⟨[], .refl hS⟩

theorem Proper.shelters {E : Owned} (hx : Proper E p x) : Shelters d x := by
  intro own w hown
  obtain ⟨S, hS, hcurrent⟩ := hown.current
  obtain ⟨r, w', hend, hact⟩ := hx w
  rw [hend]
  exact ⟨[], hact.sheltered hS hcurrent⟩

theorem Pauses.shelters {Q : Notify.QueueId → Prop} (hx : Pauses Q x) : Shelters d x := by
  intro own w hown
  obtain ⟨S, hS, -⟩ := hown.current
  obtain ⟨request, resume, hwait, -, hresume⟩ := hx w
  rw [hwait]
  refine ⟨⟨[], .refl hS⟩, fun reply w₁ hw₁ ↦ ?_⟩
  obtain ⟨r, hend⟩ := hresume reply w₁
  rw [hend]
  exact ⟨[], hw₁⟩

theorem proper_standIn {E : Owned} {c : ContextId} (hc : E.contexts c) (pos : Option Position)
    (fallback : α) (r : Except Fault α) : Proper E p (standIn c pos fallback r) := by
  cases r with
  | ok a => exact fun w ↦ ⟨_, w, rfl, .refl w⟩
  | error f =>
    rcases standIn_error c pos fallback f with ⟨why, -, hstand⟩ | hstand
    · rw [hstand]
      exact fun w ↦ ⟨_, w, rfl, .refl w⟩
    · rw [hstand]
      exact fun w ↦ ⟨_, _, rfl, .trans (.remember w hc _ fun _ ↦ ⟨_, _, _, _, rfl⟩) (.say _ _ _ _)⟩

theorem Shelters.guarded (hx : Shelters d x) (c : ContextId) (pos : Option Position)
    (fallback : α) : Shelters d (guarded c pos fallback x) := by
  have hattempt : Shelters d x.attempt := fun own w hown ↦ (hx own w hown).attempt
  exact hattempt.bind fun r ↦
    (proper_standIn (E := .whole) (p := default) trivial pos fallback r).shelters

end Activity

/-! ### Calls -/

namespace Interp

open Activity World

variable {own : TableId → Prop} {c d : ContextId} {left more : List TableId} {w w₁ w₂ : World}
  {S : Scope}

theorem size_entered (c : ContextId) (r : Ref) (T : Table) (w : World) :
    (entered c r T w).tables.size = w.tables.size + 1 := by
  simp [entered, addTable, updateContext]

theorem context_entered (c : ContextId) (r : Ref) (T : Table) (w : World) (c' : ContextId) :
    (entered c r T w).context c' = w.context c' ∨
      c' = c ∧ (entered c r T w).context c' =
        { w.context c with
          suspended := (w.context c).current :: (w.context c).suspended
          current := w.tables.size
          function := some r } :=
  (w.addTable T).2.context_updateContext c _ c'

theorem context_returned (c : ContextId) (t : TableId) (rest : List TableId) (caller : Option Ref)
    (w : World) (c' : ContextId) :
    (returned c t rest caller w).context c' = w.context c' ∨
      c' = c ∧ (returned c t rest caller w).context c' =
        { w.context c with suspended := rest, current := t, function := caller } :=
  w.context_updateContext c _ c'

theorem formed_entered (hw : w.Formed) (c : ContextId) (r : Ref) (T : Table) :
    (entered c r T w).Formed := by
  have hlt : w.tables.size < (entered c r T w).tables.size := by
    rw [size_entered]
    exact Nat.lt_succ_self _
  refine hw.of_contexts (Nat.le_of_lt hlt) fun c' ↦ ?_
  refine (context_entered c r T w c').imp_right fun ⟨_, heq⟩ ↦ ?_
  obtain ⟨hglobals, hlocals, hstack⟩ := (hw c).mono (Nat.le_of_lt hlt)
  rw [heq]
  refine ⟨hglobals, hlocals, fun t ht ↦ ?_⟩
  rcases List.mem_cons.1 ht with rfl | hmem
  · exact hlt
  · exact hstack t hmem

variable {rest : List TableId} {t : TableId}

theorem mem_stack_of_suspended {u : TableId} (hrest : (w.context c).suspended = t :: rest)
    (hu : u ∈ t :: rest) : u ∈ (w.context c).scope.stack := by
  rw [← hrest] at hu
  exact List.mem_cons_of_mem _ hu

theorem formed_returned (hw : w.Formed) (hrest : (w.context c).suspended = t :: rest)
    (caller : Option Ref) : (returned c t rest caller w).Formed := by
  refine hw.of_contexts (Nat.le_refl _) fun c' ↦ ?_
  refine (context_returned c t rest caller w c').imp_right fun ⟨_, heq⟩ ↦ ?_
  obtain ⟨hglobals, hlocals, hstack⟩ := hw c
  rw [heq]
  exact ⟨hglobals, hlocals, fun u hu ↦ hstack u (mem_stack_of_suspended hrest hu)⟩

theorem private_entered (r : Ref) (T : Table) (hw : w.Formed) :
    (entered d r T w).Private d w.tables.size := by
  have hnew {t : TableId} (ht : t < w.tables.size) : t ≠ w.tables.size := Nat.ne_of_lt ht
  refine ⟨by rw [size_entered]; exact Nat.lt_succ_self _, fun c ↦ ?_⟩
  obtain ⟨hglobals, hlocals, hstack⟩ := hw c
  rcases context_entered d r T w c with heq | ⟨rfl, heq⟩
  · rw [heq]
    exact ⟨hnew hglobals, hnew hlocals, fun hmem ↦ absurd rfl (hnew (hstack _ hmem))⟩
  · rw [heq]
    exact ⟨hnew hglobals, hnew hlocals, fun _ ↦ rfl⟩

theorem sheltered_entered {r : Ref} {T : Table} (hkept : Kept d left w (entered c r T w))
    (hopened : w.Formed → ∀ t ∈ left, (entered c r T w).Private d t) :
    Sheltered own d left w (entered c r T w) := by
  refine .of_updateContext hkept hopened rfl (fun h ↦ ?_) (fun t ht h ↦ ?_) rfl fun t ht ↦
    table_addTable ht T
  · have hmore := h.mono (Nat.le_succ _)
    rw [size_addTable]
    refine ⟨hmore.1, hmore.2.1, fun t ht ↦ ?_⟩
    rcases List.mem_cons.1 ht with rfl | hmem
    · exact Nat.lt_succ_self _
    · exact hmore.2.2 t hmem
  · refine ⟨h.1, h.2.1, fun hmem ↦ ?_⟩
    rcases List.mem_cons.1 hmem with rfl | hmem
    · exact absurd ht (Nat.lt_irrefl _)
    · exact h.2.2 hmem

theorem sheltered_returned (caller : Option Ref) (h : Sheltered own d more w w₁)
    (hrest : (w₁.context c).suspended = t :: rest)
    (hkept : Kept d left w (returned c t rest caller w₁))
    (hleft : left ⊆ more) : Sheltered own d left w (returned c t rest caller w₁) := by
  have hprivate {u : TableId} (hu : w₁.Private d u) : (returned c t rest caller w₁).Private d
      u := by
    refine hu.of_contexts (Nat.le_refl _) fun c' ↦ ?_
    refine (context_returned c t rest caller w₁ c').imp_right fun ⟨hc, heq⟩ ↦ ?_
    rw [heq, hc]
    exact ⟨(hu.2 c).1, (hu.2 c).2.1, fun hmem ↦ (hu.2 c).2.2 (mem_stack_of_suspended hrest hmem)⟩
  exact ⟨hkept, fun hw ↦ formed_returned (h.formed hw) hrest caller,
    fun hw u hu ↦ hprivate (h.opened hw u (hleft hu)), fun u hu ↦ hprivate (h.stays u hu),
      h.declares,
    h.spares⟩

theorem shelters_closing {caller : Option Ref} {s : Step Value} (hS : w.scope? d = some S)
    (hcaller : S.function = caller) (hopen : Sheltered own d [w.tables.size] w w₁)
    (hs : s.Shelters own d w₁) : (s.bind (closing d caller)).Shelters own d w := by
  induction s with
  | ended r w₂ =>
    obtain ⟨left, hleft⟩ := hs
    cases r with
    | ok v =>
      obtain ⟨t, rest, left', hclosing, hrest, hkept, -, hsub⟩ :=
        closing_apply hS hcaller hopen.kept hleft.kept v
      show (closing d caller v w₂).Shelters own d w
      rw [hclosing]
      exact ⟨left', sheltered_returned caller (hopen.trans hleft) hrest hkept hsub⟩
    | error e => exact ⟨_, hopen.trans hleft⟩
  | waiting request w₂ resume ih =>
    obtain ⟨⟨left, hleft⟩, hresume⟩ := hs
    exact ⟨⟨_, hopen.trans hleft⟩, fun reply w₃ hw₃ ↦ ih reply w₃ (hresume reply w₃ hw₃)⟩

theorem shelters_callBody {I : Interp} (r : Ref) (T : Table) {stmts : List Stmt}
    (hbody : Shelters d (I.body d stmts)) (hS : w.scope? d = some S)
    (hnew : ∀ t, w.tables.size ≤ t → own t) : (I.callBody d r T stmts w).Shelters own d w := by
  have hopen : Sheltered own d [w.tables.size] w (entered d r T w) := by
    refine sheltered_entered (kept_entered r T hS) fun hw t ht ↦ ?_
    obtain rfl := List.mem_singleton.1 ht
    exact private_entered r T hw
  have hown : Owns own d (entered d r T w) :=
    ⟨⟨_, scope?_entered r T hS, hnew _ (Nat.le_refl _)⟩, fun t ht ↦
      hnew t (Nat.le_trans hopen.kept.tables ht)⟩
  rw [callBody_apply]
  exact shelters_closing hS (function_eq_of_scope? hS) hopen (hbody own _ hown)

theorem shelters_leave_of_ne (h : c ≠ d) (caller : Option Ref) : Shelters d (leave c caller) := by
  intro own w hown
  obtain ⟨S, hS, -⟩ := hown.current
  rw [leave_apply]
  cases hrest : (w.context c).suspended with
  | nil => exact ⟨[], .refl hS⟩
  | cons t rest =>
    exact ⟨[], sheltered_returned caller (.refl hS) hrest (kept_returned_of_ne h t rest caller hS)
      (List.nil_subset _)⟩

theorem shelters_enter_of_ne (h : c ≠ d) (r : Ref) (T : Table) : Shelters d (enter c r T) := by
  intro own w hown
  obtain ⟨S, hS, -⟩ := hown.current
  exact ⟨[], sheltered_entered (kept_entered_of_ne h r T hS) nofun⟩

end Interp

def sheltering (d : ContextId) : Discipline where
  own := .whole
  Obeys _ := Activity.Shelters d
  prompt hx := hx.shelters
  pausing hx := hx.shelters
  bind := Activity.Shelters.bind
  fresh c name _ hf :=
    (Activity.proper_newContextBeside (E := .whole) (p := default) c name).shelters.bind fun e ↦
      hf e trivial
  guarded c pos fallback _ _ hx := hx.guarded c pos fallback
  callBody I c r T stmts hbody := by
    by_cases h : c = d
    · subst h
      intro own w hown
      obtain ⟨S, hS, -⟩ := hown.current
      exact Interp.shelters_callBody r T hbody hS hown.new
    · exact (Activity.shelters_read fun w ↦ w.context c).bind fun ctx ↦
        (Interp.shelters_enter_of_ne h r T).bind fun _ ↦ hbody.bind fun v ↦
        (Interp.shelters_leave_of_ne h _).bind fun _ ↦ Activity.shelters_read fun _ ↦ v
  runTree _ _ _ hscript :=
    Interp.runTree_of_sequence (P := Activity.Shelters d) Activity.shelters_read
      Activity.Shelters.bind (fun pos fallback _ _ hx ↦ hx.guarded _ pos fallback) hscript
  queues _ := trivial

end TriggerScript
