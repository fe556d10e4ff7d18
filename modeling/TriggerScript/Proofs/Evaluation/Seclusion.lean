import TriggerScript.Proofs.Evaluation.Owned

/-!
# What nobody else touches

The tables of a context but the globals are its own (`World.Secluded`). A table is changed at the
hands of a context that holds it, and a context comes to hold tables that it had or that are new
(`Evolves.secludes`). Functions are left out: what one declares in a function is declared for all
who execute it.
-/

namespace TriggerScript

def Context.held (ctx : Context) : List TableId := ctx.locals :: ctx.scope.stack

theorem Context.current_mem_held (ctx : Context) : ctx.current ∈ ctx.held :=
  List.mem_cons_of_mem _ (List.mem_cons_self ..)

theorem Context.Within.lt_of_mem_held {n : Nat} {ctx : Context} (h : ctx.Within n) {t : TableId}
    (ht : t ∈ ctx.held) : t < n := by
  rcases List.mem_cons.1 ht with rfl | hstack
  · exact h.2.1
  · exact h.2.2 t hstack

theorem Context.Within.of_held {n : Nat} {ctx : Context} (hglobals : ctx.globals < n)
    (hheld : ∀ t ∈ ctx.held, t < n) : ctx.Within n :=
  ⟨hglobals, hheld _ (List.mem_cons_self ..), fun t ht ↦ hheld t (List.mem_cons_of_mem _ ht)⟩

namespace World

def Reserved (w : World) (d : ContextId) (t : TableId) : Prop :=
  t < w.tables.size ∧ ∀ c, (w.context c).globals ≠ t ∧ (t ∈ (w.context c).held → c = d)

def Secluded (w : World) (d : ContextId) : Prop :=
  ∀ t ∈ (w.context d).held, t ≠ (w.context d).globals → w.Reserved d t

theorem secluded_of_size_le {w : World} {d : ContextId} (h : w.contexts.size ≤ d) :
    w.Secluded d := by
  intro t ht hne
  refine absurd ?_ hne
  simpa [World.context, Array.getElem?_eq_none h, Context.held, Context.scope, Scope.stack] using ht

end World

/-- Contexts outside `F` are left as they are, and the tables that are reserved for them. -/
structure Secludes (F : ContextId → Prop) (w w' : World) : Prop where
  widens : w.Widens w'
  formed : w.Formed → w'.Formed
  context : ∀ d < w.contexts.size, ¬ F d → w'.context d = w.context d
  table : ∀ d t, ¬ F d → w.Reserved d t → w'.table t = w.table t
  reserved : ∀ d t, w.Reserved d t → w'.Reserved d t
  secluded : w.Formed → ∀ d, w.Secluded d → w'.Secluded d

namespace Secludes

variable {F F' : ContextId → Prop} {w w₁ w' : World} {c : ContextId}

theorem mono (h : Secludes F w w') (hF : ∀ c, F c → F' c) : Secludes F' w w' :=
  { h with
    context := fun d hlt hd ↦ h.context d hlt fun hin ↦ hd (hF d hin)
    table := fun d t hd ↦ h.table d t fun hin ↦ hd (hF d hin) }

theorem trans (h₁ : Secludes F w w₁) (h₂ : Secludes F w₁ w') : Secludes F w w' where
  widens := h₁.widens.trans h₂.widens
  formed hw := h₂.formed (h₁.formed hw)
  context d hd hF :=
    (h₂.context d (Nat.lt_of_lt_of_le hd h₁.widens.contexts) hF).trans (h₁.context d hd hF)
  table d t hF ht := (h₂.table d t hF (h₁.reserved d t ht)).trans (h₁.table d t hF ht)
  reserved d t ht := h₂.reserved d t (h₁.reserved d t ht)
  secluded hw d hd := h₂.secluded (h₁.formed hw) d (h₁.secluded hw d hd)

/-! ### Single changes -/

theorem of_contexts_eq (hwidens : w.Widens w') (hcontexts : w'.contexts = w.contexts)
    (hsize : w'.tables.size = w.tables.size)
    (htable : ∀ d t, ¬ F d → w.Reserved d t → w'.table t = w.table t) : Secludes F w w' := by
  have hcontext (c : ContextId) : w'.context c = w.context c := by
    rw [World.context, hcontexts, World.context]
  have hreserved (d : ContextId) (t : TableId) (h : w.Reserved d t) : w'.Reserved d t := by
    refine ⟨hsize.symm ▸ h.1, fun c ↦ ?_⟩
    rw [hcontext]
    exact h.2 c
  refine ⟨hwidens, fun h ↦ h.of_contexts (Nat.le_of_eq hsize.symm) fun c ↦ .inl (hcontext c),
    fun d _ _ ↦ hcontext d, htable, hreserved, fun _ d h t ht hne ↦ ?_⟩
  rw [hcontext] at ht hne
  exact hreserved d t (h t ht hne)

theorem of_eq (hwidens : w.Widens w') (hcontexts : w'.contexts = w.contexts)
    (htables : w'.tables = w.tables) : Secludes F w w' :=
  of_contexts_eq hwidens hcontexts (by rw [htables]) fun _ t _ _ ↦ by
    rw [World.table, htables, World.table]

theorem refl (w : World) : Secludes F w w := of_eq (.refl w) rfl rfl

theorem updateTable (hc : F c) {u : TableId}
    (hu : u = (w.context c).globals ∨ u ∈ (w.context c).held) (f : Table → Table) :
    Secludes F w (w.updateTable u f) := by
  refine of_contexts_eq (.of_eq rfl rfl) rfl (by simp [World.updateTable]) fun d t hd ht ↦ ?_
  refine World.table_updateTable_of_ne ?_ f
  rintro rfl
  rcases hu with rfl | hheld
  · exact (ht.2 c).1 rfl
  · obtain rfl := (ht.2 c).2 hheld
    exact hd hc

theorem binds (hc : F c) {name : String} {u : TableId} (hu : w.Binds (w.context c) name u)
    (f : Table → Table) : Secludes F w (w.updateTable u f) := by
  refine updateTable hc ?_ f
  rcases hu with ⟨-, rfl⟩ | rfl | ⟨-, hsuspended⟩
  · exact .inl rfl
  · exact .inr (Context.current_mem_held _)
  · exact .inr (List.mem_cons_of_mem _ (List.mem_cons_of_mem _ hsuspended))

theorem of_context (hwidens : w.Widens w') (hsize : w.tables.size ≤ w'.tables.size)
    (hc : F c ∨ w.contexts.size ≤ c) (hsame : ∀ d ≠ c, w'.context d = w.context d) (c₀ : ContextId)
    (hglobals : (w'.context c).globals = (w.context c₀).globals)
    (hheld : ∀ t ∈ (w'.context c).held, t = (w'.context c).globals ∨
      c₀ = c ∧ t ∈ (w.context c).held ∨ w.tables.size ≤ t ∧ t < w'.tables.size)
    (htable : ∀ t < w.tables.size, w'.table t = w.table t) : Secludes F w w' := by
  have hreserved (d : ContextId) (t : TableId) (h : w.Reserved d t) : w'.Reserved d t := by
    refine ⟨Nat.lt_of_lt_of_le h.1 hsize, fun e ↦ ?_⟩
    by_cases he : e = c
    · subst he
      have hne : (w'.context e).globals ≠ t := hglobals ▸ (h.2 c₀).1
      refine ⟨hne, fun ht ↦ ?_⟩
      rcases hheld t ht with heq | ⟨-, hold⟩ | ⟨hnew, -⟩
      · exact absurd heq.symm hne
      · exact (h.2 e).2 hold
      · exact absurd h.1 (Nat.not_lt.2 hnew)
    · rw [hsame e he]
      exact h.2 e
  refine ⟨hwidens, fun hw ↦ ?_, fun d hd hF ↦ ?_, fun d t _ ht ↦ htable t ht.1, hreserved,
    fun hw d hd t ht hne ↦ ?_⟩
  · have hlt : (w'.context c).globals < w'.tables.size :=
      hglobals ▸ Nat.lt_of_lt_of_le (hw c₀).1 hsize
    refine hw.of_contexts hsize fun e ↦ ?_
    by_cases he : e = c
    · subst he
      refine .inr (.of_held hlt fun t ht ↦ ?_)
      rcases hheld t ht with rfl | ⟨-, hold⟩ | ⟨-, hnew⟩
      · exact hlt
      · exact Nat.lt_of_lt_of_le ((hw e).lt_of_mem_held hold) hsize
      · exact hnew
    · exact .inl (hsame e he)
  · grind
  · by_cases hdc : d = c
    · subst hdc
      rcases hheld t ht with heq | ⟨rfl, hold⟩ | ⟨hlow, hhigh⟩
      · exact absurd heq hne
      · exact hreserved _ t (hd t hold (hglobals ▸ hne))
      · -- no context of before knows a table that is new
        refine ⟨hhigh, fun e ↦ ?_⟩
        by_cases he : e = d
        · grind
        · rw [hsame e he]
          exact ⟨Nat.ne_of_lt (Nat.lt_of_lt_of_le (hw e).1 hlow), fun hmem ↦
            absurd ((hw e).lt_of_mem_held hmem) (Nat.not_lt.2 hlow)⟩
    · rw [hsame d hdc] at ht hne
      exact hreserved d t (hd t ht hne)

theorem updateContext (hc : F c) {f : Context → Context} (hcontexts : w₁.contexts = w.contexts)
    (hqueues : w₁.queues = w.queues) (hsize : w.tables.size ≤ w₁.tables.size)
    (hglobals : (f (w.context c)).globals = (w.context c).globals)
    (hheld : ∀ t ∈ (f (w.context c)).held,
      t ∈ (w.context c).held ∨ w.tables.size ≤ t ∧ t < w₁.tables.size)
    (htable : ∀ t < w.tables.size, w₁.table t = w.table t) :
    Secludes F w (w₁.updateContext c f) := by
  have hcontext (d : ContextId) : w₁.context d = w.context d := by
    rw [World.context, hcontexts, World.context]
  have hchanged (d : ContextId) : (w₁.updateContext c f).context d = w.context d ∨
      d = c ∧ (w₁.updateContext c f).context d = f (w.context c) := by
    have h := w₁.context_updateContext c f d
    rwa [hcontext, hcontext] at h
  have hwidens : w.Widens (w₁.updateContext c f) :=
    ⟨Nat.le_of_eq (by rw [World.updateContext, Array.size_modify, hcontexts]),
      Nat.le_of_eq (by rw [World.updateContext, hqueues])⟩
  refine of_context (c := c) hwidens hsize (.inl hc) (fun d hd ↦ ?_) c ?_ (fun t ht ↦ ?_) htable
  · exact (hchanged d).resolve_right fun h ↦ hd h.1
  · rcases hchanged c with heq | ⟨-, heq⟩ <;> rw [heq]
    exact hglobals
  · rcases hchanged c with heq | ⟨-, heq⟩ <;> rw [heq] at ht
    · exact .inr (.inl ⟨rfl, ht⟩)
    · exact .inr ((hheld t ht).imp_left fun h ↦ ⟨rfl, h⟩)

theorem addContext (w : World) (name : String) (c : ContextId) :
    Secludes F w (w.addContext name (w.context c).globals).2 := by
  have hnew : (w.addContext name (w.context c).globals).2.context w.contexts.size =
      { name, globals := (w.context c).globals, current := (w.context c).globals,
        locals := w.tables.size } := by
    simp [World.context, World.addContext, World.addTable]
  have hwidens : w.Widens (w.addContext name (w.context c).globals).2 :=
    (Act.context (E := .whole) (p := default) w c name).widens
  refine of_context (c := w.contexts.size) hwidens (w.size_addContext name _ ▸ Nat.le_succ _)
    (.inr (Nat.le_refl _))
    (fun d hd ↦ ?_) c (by rw [hnew]) (fun t ht ↦ ?_) fun t ht ↦ World.table_addTable ht {}
  · simp [World.context, World.addContext, World.addTable, Array.getElem?_push, hd]
  · rw [hnew] at ht ⊢
    rcases List.mem_cons.1 ht with rfl | hstack
    · exact .inr (.inr ⟨Nat.le_refl _, w.size_addContext name _ ▸ Nat.lt_succ_self _⟩)
    · exact .inl (List.mem_singleton.1 hstack)

end Secludes

/-! ### What an activity does -/

theorem Act.secludes {E : Owned} {p : Site} {w w' : World} (h : Act E p w w')
    (hp : E.contexts p.context) : Secludes E.contexts w w' := by
  have hwidens := h.widens
  induction h with
  | trans h₁ h₂ ih₁ ih₂ => exact (ih₁ h₁.widens).trans (ih₂ h₂.widens)
  | bind _ w key v => exact .updateTable hp (.inr (Context.current_mem_held _)) _
  | assign _ w hu v => exact .binds hp hu _
  | unbind _ w hu => exact .binds hp hu _
  | @give w c hc entries =>
    obtain heq | ⟨-, heq⟩ := w.give_cases c entries <;> rw [heq]
    · exact .refl w
    · exact .updateTable hc (.inr (List.mem_cons_self ..)) _
  | context w c name => exact .addContext w name c
  | @install w c hc T =>
    refine .updateContext hc rfl rfl (w.size_addTable T ▸ Nat.le_succ _) rfl (fun t ht ↦ ?_)
      fun t ht ↦
      World.table_addTable ht T
    rcases List.mem_cons.1 ht with rfl | hstack
    · exact .inr ⟨Nat.le_refl _, w.size_addTable T ▸ Nat.lt_succ_self _⟩
    · exact .inl (List.mem_cons_of_mem _ hstack)
  | @remember w c hc f hf =>
    obtain ⟨_, _, _, _, hctx⟩ := hf (w.context c)
    refine .updateContext hc rfl rfl (Nat.le_refl _) (by rw [hctx]) (fun t ht ↦ .inl ?_)
      fun _ _ ↦ rfl
    rw [hctx] at ht
    exact ht
  | _ => exact .of_eq hwidens rfl rfl

theorem Evolves.secludes {E : Owned} {w w' : World} (h : Evolves E w w') :
    Secludes E.contexts w w' := by
  induction h with
  | refl w => exact .refl w
  | act hp h => exact h.secludes hp
  | @enter c hc f T w =>
    refine .updateContext hc rfl rfl (w.size_addTable T ▸ Nat.le_succ _) rfl (fun t ht ↦ ?_)
      fun t ht ↦
      World.table_addTable ht T
    -- what is given from outside, the table of the call, and the stack of the caller
    rcases List.mem_cons.1 ht with rfl | hstack
    · exact .inl (List.mem_cons_self ..)
    · rcases List.mem_cons.1 hstack with rfl | hcaller
      · exact .inr ⟨Nat.le_refl _, w.size_addTable T ▸ Nat.lt_succ_self _⟩
      · exact .inl (List.mem_cons_of_mem _ hcaller)
  | @leave c hc u rest w caller h =>
    refine .updateContext hc rfl rfl (Nat.le_refl _) rfl (fun t ht ↦ .inl ?_) fun _ _ ↦ rfl
    rcases List.mem_cons.1 ht with rfl | hstack
    · exact List.mem_cons_self ..
    · exact List.mem_cons_of_mem _ (Interp.mem_stack_of_suspended h hstack)
  | trans _ _ ih₁ ih₂ => exact ih₁.trans ih₂

end TriggerScript
