import TriggerScript.Proofs.Evaluation.Layers
import TriggerScript.Proofs.Task.Basic

/-!
# The scope of a context

Only a call changes the scope of a context: it puts a table on the stack and takes it off again when
its body has ended. A body that is left early does not get that far. At the limit of depth nothing
is caught, and errors leave a body in one way only: a key is missing, cannot be put into words, and
the attempt to log it fails. `Step.Keeps d w₀` says that the stack of `d` is kept wherever an
activity stands, with nothing left when it ends, unless the log tells of such a key. It is a
discipline (`keeping`).
-/

namespace TriggerScript

open Syntax (Position Stmt)

/-- The table of the running call, those of the calls that it interrupts, and its function. -/
structure Scope where
  current : TableId
  suspended : List TableId
  function : Option Ref
  deriving DecidableEq

def Scope.stack (S : Scope) : List TableId := S.current :: S.suspended

theorem Scope.ext_stack {S T : Scope} (h : S.stack = T.stack) (hf : S.function = T.function) :
    S = T := by
  cases S
  cases T
  simp_all [Scope.stack]

def Context.scope (ctx : Context) : Scope := ⟨ctx.current, ctx.suspended, ctx.function⟩

def LogLine.TellsUnworded (l : LogLine) : Prop :=
  ∃ place why, l = ⟨"eval", .error, place ++ (Fault.unworded why).message⟩

namespace World

def scope? (w : World) (d : ContextId) : Option Scope := (w.contexts[d]?).map (·.scope)

/-- Since then the log tells of an error without a wording. -/
def TellsSince (w w' : World) : Prop :=
  ∃ lines, w'.log.toList = w.log.toList ++ lines ∧ ∃ l ∈ lines, l.TellsUnworded

variable {ctx : Context} {c d : ContextId} {S : Scope} {name : String} {w w' : World}

theorem TellsSince.mono {w₁ w₂ : World} (h : TellsSince w₁ w₂) (hl : w.log.toList <+: w₁.log.toList)
    (hr : w₂.log.toList <+: w'.log.toList) : TellsSince w w' := by
  obtain ⟨lines, hlines, l, hmem, htells⟩ := h
  obtain ⟨before, hbefore⟩ := hl
  obtain ⟨after, hafter⟩ := hr
  refine ⟨before ++ lines ++ after, ?_, l, by simp [hmem], htells⟩
  rw [← hafter, hlines, ← hbefore]
  simp

theorem scope?_updateContext_of_ne (h : c ≠ d) (f : Context → Context) :
    (w.updateContext c f).scope? d = w.scope? d := by
  simp [scope?, updateContext, Array.getElem?_modify, h]

theorem scope?_updateContext {f : Context → Context} (hf : ∀ ctx, (f ctx).scope = ctx.scope) :
    (w.updateContext c f).scope? d = w.scope? d := by
  by_cases h : c = d
  · subst h
    simp [scope?, updateContext, Array.getElem?_modify, hf, Function.comp_def]
  · exact scope?_updateContext_of_ne h f

theorem scope_context (h : w.scope? d = some S) : (w.context d).scope = S := by
  obtain ⟨ctx, hctx, rfl⟩ := Option.map_eq_some_iff.1 h
  simp [context, hctx]

theorem lt_size_of_scope? (h : w.scope? d = some S) : d < w.contexts.size := by
  obtain ⟨ctx, hctx, -⟩ := Option.map_eq_some_iff.1 h
  exact (Array.getElem?_eq_some_iff.1 hctx).1

end World

/-! ### How the stack of a context grows -/

/-- The stack of `d` has grown by the tables `left`, all of them new. -/
structure Kept (d : ContextId) (left : List TableId) (w w' : World) : Prop where
  scope : ∃ S S', w.scope? d = some S ∧ w'.scope? d = some S' ∧ S'.stack = left ++ S.stack ∧
    (left = [] → S'.function = S.function)
  fresh : ∀ t ∈ left, w.tables.size ≤ t ∧ t < w'.tables.size
  tables : w.tables.size ≤ w'.tables.size
  log : w.log.toList <+: w'.log.toList

namespace Kept

variable {d : ContextId} {left : List TableId} {w w₁ w' : World} {S : Scope}

theorem of_scope_eq (h : w.scope? d = some S) (h' : w'.scope? d = some S)
    (ht : w.tables.size ≤ w'.tables.size) (hl : w.log.toList <+: w'.log.toList) :
    Kept d [] w w' :=
  ⟨⟨S, S, h, h', rfl, fun _ ↦ rfl⟩, by simp, ht, hl⟩

theorem refl (h : w.scope? d = some S) : Kept d [] w w :=
  of_scope_eq h h (Nat.le_refl _) (List.prefix_refl _)

theorem updateTable (h : w.scope? d = some S) (t : TableId) (f : Table → Table) :
    Kept d [] w (w.updateTable t f) :=
  of_scope_eq h h (by simp [World.updateTable]) (List.prefix_refl _)

theorem trans {more : List TableId} (h₁ : Kept d left w w₁) (h₂ : Kept d more w₁ w') :
    Kept d (more ++ left) w w' := by
  obtain ⟨S, S₁, hS, hS₁, hstack, hfun⟩ := h₁.scope
  obtain ⟨T₁, T, hT₁, hT, hstack', hfun'⟩ := h₂.scope
  obtain rfl : S₁ = T₁ := Option.some.inj (hS₁.symm.trans hT₁)
  refine ⟨⟨S, T, hS, hT, by rw [hstack', hstack, List.append_assoc], fun h ↦ ?_⟩, fun t ht ↦ ?_,
    Nat.le_trans h₁.tables h₂.tables, h₁.log.trans h₂.log⟩
  · obtain ⟨rfl, rfl⟩ := List.append_eq_nil_iff.1 h
    rw [hfun' rfl, hfun rfl]
  · rcases List.mem_append.1 ht with hmem | hmem
    · obtain ⟨hlow, hhigh⟩ := h₂.fresh t hmem
      exact ⟨Nat.le_trans h₁.tables hlow, hhigh⟩
    · obtain ⟨hlow, hhigh⟩ := h₁.fresh t hmem
      exact ⟨hlow, Nat.lt_of_lt_of_le hhigh h₂.tables⟩

theorem left_unique {left' : List TableId} (h : Kept d left w w') (h' : Kept d left' w w') :
    left = left' := by
  obtain ⟨S, S', hS, hS', hstack, -⟩ := h.scope
  obtain ⟨T, T', hT, hT', hstack', -⟩ := h'.scope
  obtain rfl : S = T := Option.some.inj (hS.symm.trans hT)
  obtain rfl : S' = T' := Option.some.inj (hS'.symm.trans hT')
  exact List.append_cancel_right (hstack.symm.trans hstack')

theorem scope_end (h : Kept d left w w') : ∃ S, w'.scope? d = some S :=
  let ⟨_, S', _, hS', _⟩ := h.scope
  ⟨S', hS'⟩

theorem scope_eq_iff (h : Kept d left w w') : w'.scope? d = w.scope? d ↔ left = [] := by
  obtain ⟨S, S', hS, hS', hstack, hfun⟩ := h.scope
  rw [hS, hS', Option.some.injEq]
  constructor
  · rintro rfl
    simpa using hstack
  · rintro rfl
    exact Scope.ext_stack hstack (hfun rfl)

end Kept

theorem Act.kept {E : Owned} {p : Site} {d : ContextId} {w w' : World} (h : Act E p w w')
    {S : Scope} (hS : w.scope? d = some S) : Kept d [] w w' := by
  induction h generalizing S with
  | refl w => exact .refl hS
  | trans _ _ ih₁ ih₂ =>
    obtain ⟨S', hS'⟩ := (ih₁ hS).scope_end
    exact (ih₁ hS).trans (ih₂ hS')
  | bind _ w key v => exact .updateTable hS _ _
  | @give w c _ entries =>
    obtain heq | ⟨-, heq⟩ := w.give_cases c entries <;> rw [heq]
    · exact .refl hS
    · exact .updateTable hS _ _
  | assign _ w _ v => exact .updateTable hS _ _
  | unbind _ w _ => exact .updateTable hS _ _
  | context w c name =>
    refine .of_scope_eq hS ?_ (by simp [World.addContext, World.addTable]) (List.prefix_refl _)
    have hd := World.lt_size_of_scope? hS
    rw [← hS]
    simp [World.addContext, World.addTable, World.scope?, Array.getElem?_push, Nat.ne_of_lt hd]
  | install w c t =>
    refine .of_scope_eq hS ?_ (by simp [World.addTable, World.updateContext]) (List.prefix_refl _)
    refine Eq.trans (World.scope?_updateContext fun ctx ↦ ?_) hS
    rfl
  | remember w _ f hf =>
    refine .of_scope_eq hS ?_ (Nat.le_refl _) (List.prefix_refl _)
    refine (World.scope?_updateContext fun ctx ↦ ?_).trans hS
    obtain ⟨_, _, _, _, h⟩ := hf ctx
    rw [h]
    rfl
  | say w logger level text =>
    exact .of_scope_eq hS hS (Nat.le_refl _) ⟨[⟨logger, level, text⟩], by simp [World.say]⟩
  | _ => exact .of_scope_eq hS hS (Nat.le_refl _) (List.prefix_refl _)

def Settled (d : ContextId) (excuse : Prop) (w w' : World) : Prop :=
  ∃ left, Kept d left w w' ∧ (left ≠ [] → w.TellsSince w' ∨ excuse)

namespace Settled

variable {d : ContextId} {excuse excuse' : Prop} {w w₁ w' : World}

theorem of_kept (h : Kept d [] w w') : Settled d excuse w w' := ⟨[], h, fun hne ↦ absurd rfl hne⟩

theorem mono (h : Settled d excuse w w') (hexcuse : excuse → excuse') : Settled d excuse' w w' := by
  obtain ⟨left, hkept, htells⟩ := h
  exact ⟨left, hkept, fun hne ↦ (htells hne).imp_right hexcuse⟩

theorem trans (h₁ : Settled d False w w₁) (h₂ : Settled d excuse w₁ w') :
    Settled d excuse w w' := by
  obtain ⟨left, hkept, htells⟩ := h₁
  obtain ⟨more, hkept', htells'⟩ := h₂
  refine ⟨more ++ left, hkept.trans hkept', fun hne ↦ ?_⟩
  by_cases hmore : more = []
  · have hleft : left ≠ [] := by simpa [hmore] using hne
    exact .inl (((htells hleft).resolve_right id).mono (List.prefix_refl _) hkept'.log)
  · exact (htells' hmore).imp_left fun h ↦ h.mono hkept.log (List.prefix_refl _)

theorem scope_end (h : Settled d excuse w w') : ∃ S, w'.scope? d = some S :=
  let ⟨_, hkept, _⟩ := h
  hkept.scope_end

end Settled

/-! ### Steps and activities that keep the scope of a context -/

def Excused {α : Type} : Except Stop α → Prop
  | .ok _ => False
  | .error (.raised f) => ∃ why, f = .unworded why
  | .error .cancelled => True
  | .error .outOfFuel => True

namespace Step

variable {d : ContextId} {w w₀ w₁ : World} {α β : Type}

def Keeps (d : ContextId) (w₀ : World) : Step α → Prop
  | ended r w => Settled d (Excused r) w₀ w
  | waiting _ w resume =>
    Settled d True w₀ w ∧ ∀ reply w₁, Kept d [] w w₁ → (resume reply w₁).Keeps d w₀

variable {s : Step α} {k : α → World → Step β}

theorem Keeps.after (h : s.Keeps d w₁) (h₀ : Settled d False w₀ w₁) : s.Keeps d w₀ := by
  induction s with
  | ended r w => exact h₀.trans h
  | waiting request w resume ih =>
    exact ⟨h₀.trans h.1, fun reply w' hw' ↦ ih reply w' (h.2 reply w' hw')⟩

theorem Keeps.bind (h : s.Keeps d w₀) (hk : ∀ a w S, w.scope? d = some S → (k a w).Keeps d w) :
    (s.bind k).Keeps d w₀ := by
  induction s with
  | ended r w =>
    cases r with
    | ok a =>
      have hsettled : Settled d False w₀ w := h
      obtain ⟨S, hS⟩ := hsettled.scope_end
      exact (hk a w S hS).after hsettled
    | error e => cases e <;> exact h
  | waiting request w resume ih =>
    exact ⟨h.1, fun reply w' hw' ↦ ih reply w' (h.2 reply w' hw')⟩

def Restores (d : ContextId) (w₀ : World) : Step α → Prop
  | ended r w => Settled d (r = .error .cancelled ∨ r = .error .outOfFuel) w₀ w
  | waiting _ w resume =>
    Settled d True w₀ w ∧ ∀ reply w₁, Kept d [] w w₁ → (resume reply w₁).Restores d w₀

theorem Restores.keeps (h : s.Restores d w₀) : s.Keeps d w₀ := by
  induction s with
  | ended r w =>
    refine Settled.mono h fun hr ↦ ?_
    rcases hr with rfl | rfl <;> trivial
  | waiting request w resume ih =>
    exact ⟨h.1, fun reply w₁ hw₁ ↦ ih reply w₁ (h.2 reply w₁ hw₁)⟩

def Inside (d : ContextId) (w₀ : World) : Step α → Prop
  | ended (.ok _) w => Settled d False w₀ w
  | ended (.error e) w => Excused (.error e : Except Stop α) ∧ ∃ left ≠ [], Kept d left w₀ w
  | waiting _ w resume =>
    (∃ left ≠ [], Kept d left w₀ w) ∧ ∀ reply w₁, Kept d [] w w₁ → (resume reply w₁).Inside d w₀

theorem Inside.keeps (h : s.Inside d w₀) : s.Keeps d w₀ := by
  induction s with
  | ended r w =>
    cases r with
    | ok a => exact h
    | error e =>
      obtain ⟨hexcused, left, -, hkept⟩ := h
      exact ⟨left, hkept, fun _ ↦ .inr hexcused⟩
  | waiting request w resume ih =>
    obtain ⟨⟨left, -, hkept⟩, hresume⟩ := h
    exact ⟨⟨left, hkept, fun _ ↦ .inr trivial⟩, fun reply w₁ hw₁ ↦
      ih reply w₁ (hresume reply w₁ hw₁)⟩

def Contained : Step α → Prop
  | ended r _ => ∀ f, r = .error (.raised f) → ∃ why, f = .unworded why
  | waiting _ _ resume => ∀ reply w, (resume reply w).Contained

theorem Contained.bind (h : s.Contained) (hk : ∀ a w, (k a w).Contained) :
    (s.bind k).Contained := by
  induction s with
  | ended r w =>
    cases r with
    | ok a => exact hk a w
    | error e =>
      rintro f ⟨⟩
      exact h f rfl
  | waiting request w resume ih => exact fun reply w' ↦ ih reply w' (h reply w')

end Step

namespace Activity

variable {d : ContextId} {α β : Type}

def Keeps (d : ContextId) (x : Activity α) : Prop := ∀ w S, w.scope? d = some S → (x w).Keeps d w

def Contained (x : Activity α) : Prop := ∀ w, (x w).Contained

theorem keeps_read (f : World → α) : Keeps d (read f) := fun _ _ hS ↦ .of_kept (.refl hS)

theorem keeps_result (a : α) : Keeps d (result a) := keeps_read fun _ ↦ a

variable {x : Activity α}

theorem Keeps.bind {f : α → Activity β} (hx : Keeps d x) (hf : ∀ a, Keeps d (f a)) :
    Keeps d (x >>= f) :=
  fun w S hS ↦ (hx w S hS).bind fun a w S hS ↦ hf a w S hS

theorem keeps_modify {f : World → World}
    (hf : ∀ w S, w.scope? d = some S → Kept d [] w (f w)) : Keeps d (modify f) :=
  fun w S hS ↦ .of_kept (hf w S hS)

theorem Proper.keeps {E : Owned} {p : Site} (hx : Proper E p x) : Keeps d x := by
  intro w S hS
  obtain ⟨r, w', hend, hact⟩ := hx w
  rw [hend]
  exact .of_kept (hact.kept hS)

theorem Pauses.keeps {Q : Notify.QueueId → Prop} (hx : Pauses Q x) : Keeps d x := by
  intro w S hS
  obtain ⟨request, resume, hwait, -, hresume⟩ := hx w
  rw [hwait]
  refine ⟨.of_kept (.refl hS), fun reply w₁ hw₁ ↦ ?_⟩
  obtain ⟨r, hend⟩ := hresume reply w₁
  rw [hend]
  exact .of_kept hw₁

/-! ### Errors that are recorded -/

variable (c : ContextId) (pos : Option Position)

theorem recordError_apply (f : Fault) (w : World) :
    ∃ place g, recordError c pos f w =
        .ended (.ok ()) ((w.updateContext c g).say "eval" .error (place ++ errorText f)) ∧
      ∀ ctx, (g ctx).scope = ctx.scope :=
  ⟨_, _, rfl, fun _ ↦ rfl⟩

theorem settled_recordError {c : ContextId} {pos : Option Position} {f : Fault} {w₀ w : World}
    (h : Settled d (∃ why, f = .unworded why) w₀ w) :
    ∃ w', recordError c pos f w = .ended (.ok ()) w' ∧ Settled d False w₀ w' := by
  obtain ⟨left, hkept, htells⟩ := h
  obtain ⟨S, hS⟩ := hkept.scope_end
  obtain ⟨place, g, hrecord, hg⟩ := recordError_apply c pos f w
  refine ⟨_, hrecord, left, ?_, fun hne ↦ .inl ?_⟩
  · have hsame : Kept d [] w ((w.updateContext c g).say "eval" .error (place ++ errorText f)) :=
      .of_scope_eq hS ((World.scope?_updateContext hg).trans hS) (Nat.le_refl _)
        ⟨[_], (Array.toList_push ..).symm⟩
    exact hkept.trans hsame
  · rcases htells hne with htold | ⟨why, rfl⟩
    · exact htold.mono (List.prefix_refl _) ⟨[_], (Array.toList_push ..).symm⟩
    · obtain ⟨lines, hlines⟩ := hkept.log
      refine ⟨lines ++ [_], ?_, _, List.mem_append_right _ (List.mem_singleton_self _), place, why,
        rfl⟩
      rw [← List.append_assoc, hlines]
      exact Array.toList_push ..

theorem standIn_error (fallback : α) (f : Fault) :
    (∃ why, f = .unshownKey why ∧ standIn c pos fallback (.error f) = raise (.unworded why)) ∨
      standIn c pos fallback (.error f) = (do recordError c pos f; return fallback) := by
  by_cases hf : ∃ why, f = .unshownKey why
  · obtain ⟨why, rfl⟩ := hf
    exact .inl ⟨why, rfl, rfl⟩
  · refine .inr ?_
    rw [standIn]
    exact fun why h ↦ hf ⟨why, h⟩

theorem Keeps.restores (hx : Keeps d x) (c : ContextId) (pos : Option Position) (fallback : α)
    {w₀ : World} {S : Scope} (hS : w₀.scope? d = some S) :
    (guarded c pos fallback x w₀).Restores d w₀ := by
  show ((x w₀).attempt.bind (standIn c pos fallback)).Restores d w₀
  have h := hx w₀ S hS
  revert h
  generalize x w₀ = s
  intro h
  induction s with
  | ended r w =>
    match r, h with
    | .ok a, h => exact Settled.mono h False.elim
    | .error .cancelled, h => exact Settled.mono h fun _ ↦ .inl rfl
    | .error .outOfFuel, h => exact Settled.mono h fun _ ↦ .inr rfl
    | .error (.raised f), h =>
      show (standIn c pos fallback (.error f) w).Restores d w₀
      rcases standIn_error c pos fallback f with ⟨why, rfl, hstand⟩ | hstand
      · rw [hstand]
        exact Settled.mono h fun ⟨_, hne⟩ ↦ nomatch hne
      · obtain ⟨w', hrecord, hsettled⟩ := settled_recordError h
        rw [hstand]
        show ((recordError c pos f w).bind fun _ ↦ result fallback).Restores d w₀
        rw [hrecord]
        exact hsettled.mono False.elim
  | waiting request w resume ih =>
    exact ⟨h.1, fun reply w₁ hw₁ ↦ ih reply w₁ (h.2 reply w₁ hw₁)⟩

theorem contained_guarded (fallback : α) (x : Activity α) :
    Contained (guarded c pos fallback x) := by
  intro w₀
  show ((x w₀).attempt.bind (standIn c pos fallback)).Contained
  generalize x w₀ = s
  induction s with
  | ended r w =>
    match r with
    | .ok a | .error .cancelled | .error .outOfFuel => exact nofun
    | .error (.raised f) =>
      show (standIn c pos fallback (.error f) w).Contained
      rcases standIn_error c pos fallback f with ⟨why, rfl, hstand⟩ | hstand <;> rw [hstand]
      · rintro f ⟨⟩
        exact ⟨why, rfl⟩
      · exact nofun
  | waiting request w resume ih => exact fun reply w₁ ↦ ih reply w₁

end Activity

/-! ### Calls -/

namespace Interp

open Activity World

variable {d c : ContextId} {w w₁ w₂ : World} {S : Scope}

theorem contained_body (I : Interp) (c : ContextId) (stmts : List Stmt) :
    Contained (I.body c stmts) := by
  induction stmts with
  | nil => exact fun _ ↦ nofun
  | cons s rest ih =>
    refine fun w ↦ (contained_guarded c _ _ (I.statement c s) w).bind fun flow w₁ ↦ ?_
    cases flow with
    | answer v => exact nofun
    | value v => exact ih w₁
    | exit => exact ih w₁
    | next => exact ih w₁

/-- The world after a call has opened its table. -/
def entered (c : ContextId) (f : Ref) (t : Table) (w : World) : World :=
  (w.addTable t).2.updateContext c fun ctx ↦
    { ctx with
      suspended := ctx.current :: ctx.suspended, current := w.tables.size, function := some f }

theorem kept_entered_of_ne (h : c ≠ d) (f : Ref) (t : Table) (hS : w.scope? d = some S) :
    Kept d [] w (entered c f t w) :=
  .of_scope_eq hS ((scope?_updateContext_of_ne h _).trans hS)
    (by simp [entered, addTable, updateContext]) (List.prefix_refl _)

theorem scope?_entered (f : Ref) (t : Table) (hS : w.scope? d = some S) :
    (entered d f t w).scope? d = some ⟨w.tables.size, S.stack, some f⟩ := by
  obtain ⟨ctx, hctx, rfl⟩ := Option.map_eq_some_iff.1 hS
  simp [entered, addTable, updateContext, scope?, Array.getElem?_modify, hctx,
    Context.scope, Scope.stack]

theorem kept_entered (f : Ref) (t : Table) (hS : w.scope? d = some S) :
    Kept d [w.tables.size] w (entered d f t w) := by
  have hsize : (entered d f t w).tables.size = w.tables.size + 1 := by
    simp [entered, addTable, updateContext]
  refine ⟨⟨S, _, hS, scope?_entered f t hS, rfl, nofun⟩, ?_, by omega, List.prefix_refl _⟩
  intro t ht
  obtain rfl := List.mem_singleton.1 ht
  exact ⟨Nat.le_refl _, hsize ▸ Nat.lt_succ_self _⟩

def returned (c : ContextId) (t : TableId) (rest : List TableId) (caller : Option Ref) (w : World) :
    World :=
  w.updateContext c fun ctx ↦ { ctx with suspended := rest, current := t, function := caller }

theorem leave_apply (c : ContextId) (caller : Option Ref) (w : World) :
    leave c caller w = match (w.context c).suspended with
      | [] => .ended (.error (.raised (.stated .index "pop from empty list"))) w
      | t :: rest => .ended (.ok ()) (returned c t rest caller w) := by
  show (match (w.context c).suspended with
    | [] => raise (.stated .index "pop from empty list")
    | t :: rest => modify (returned c t rest caller)) w = _
  cases (w.context c).suspended <;> rfl

theorem scope?_returned (t : TableId) (rest : List TableId) (caller : Option Ref)
    (hS : w.scope? d = some S) :
    (returned d t rest caller w).scope? d = some ⟨t, rest, caller⟩ := by
  obtain ⟨ctx, hctx, -⟩ := Option.map_eq_some_iff.1 hS
  simp [returned, updateContext, scope?, Array.getElem?_modify, hctx, Context.scope]

theorem kept_returned_of_ne (h : c ≠ d) (t : TableId) (rest : List TableId) (caller : Option Ref)
    (hS : w.scope? d = some S) : Kept d [] w (returned c t rest caller w) :=
  .of_scope_eq hS ((scope?_updateContext_of_ne h _).trans hS) (Nat.le_refl _)
    (List.prefix_refl _)

theorem keeps_leave_of_ne (h : c ≠ d) (caller : Option Ref) : Keeps d (leave c caller) := by
  intro w S hS
  rw [leave_apply]
  split
  · exact .of_kept (.refl hS)
  · exact .of_kept (kept_returned_of_ne h _ _ caller hS)

theorem function_eq_of_scope? (hS : w.scope? d = some S) : S.function = (w.context d).function := by
  rw [← scope_context hS]
  rfl

def closing (c : ContextId) (caller : Option Ref) (v : Value) : Activity Value := do
  leave c caller
  return v

theorem callBody_apply (I : Interp) (c : ContextId) (r : Ref) (t : Table) (stmts : List Stmt)
    (w : World) : I.callBody c r t stmts w =
      (I.body c stmts (entered c r t w)).bind (closing c (w.context c).function) := rfl

variable {I : Interp} {stmts : List Stmt} {caller : Option Ref}

theorem closing_apply {left : List TableId} (hS : w.scope? d = some S)
    (hcaller : S.function = caller) (hopen : Kept d [w.tables.size] w w₁)
    (hkept : Kept d left w₁ w₂) (v : Value) :
    ∃ t rest left', closing d caller v w₂ = .ended (.ok v) (returned d t rest caller w₂) ∧
      (w₂.context d).suspended = t :: rest ∧ Kept d left' w (returned d t rest caller w₂) ∧
        (left' = [] ↔ left = []) ∧ left' ⊆ left ++ [w.tables.size] := by
  have hall := hopen.trans hkept
  obtain ⟨S₀, S₂, hS₀, hS₂, hstack, -⟩ := hall.scope
  obtain rfl : S₀ = S := Option.some.inj (hS₀.symm.trans hS)
  have hclosing {t : TableId} {rest : List TableId} (h : S₂.suspended = t :: rest) :
      closing d caller v w₂ = .ended (.ok v) (returned d t rest caller w₂) ∧
        (w₂.context d).suspended = t :: rest := by
    have hsuspended : (w₂.context d).suspended = t :: rest := by
      rw [← h, ← scope_context hS₂]
      rfl
    refine ⟨?_, hsuspended⟩
    show (leave d caller w₂).bind (fun _ ↦ result v) = _
    rw [leave_apply, hsuspended]
    rfl
  cases left with
  | nil =>
    have hsuspended : S₂.suspended = S₀.current :: S₀.suspended := (List.cons.inj hstack).2
    obtain ⟨hend, hrest⟩ := hclosing hsuspended
    refine ⟨_, _, [], hend, hrest, .of_scope_eq hS ?_ hall.tables hall.log, Iff.rfl,
      List.nil_subset _⟩
    rw [scope?_returned _ _ _ hS₂, ← hcaller]
  | cons t left =>
    have hsuspended : S₂.suspended = left ++ [w.tables.size] ++ S₀.stack := (List.cons.inj hstack).2
    obtain ⟨t', rest, hcons⟩ : ∃ t' rest, left ++ [w.tables.size] ++ S₀.stack = t' :: rest :=
      List.exists_cons_of_ne_nil (by simp)
    obtain ⟨hend, hrest⟩ := hclosing (hsuspended.trans hcons)
    refine ⟨t', rest, left ++ [w.tables.size], hend, hrest, ⟨⟨S₀, _, hS,
      scope?_returned _ _ _ hS₂, hcons.symm, by simp⟩, fun u hu ↦ ?_, hall.tables, hall.log⟩,
      by simp, List.subset_cons_self _ _⟩
    exact hall.fresh u (List.mem_cons_of_mem t hu)

theorem inside_closing {s : Step Value} (hS : w.scope? d = some S) (hcaller : S.function = caller)
    (hopen : Kept d [w.tables.size] w w₁) (hs : s.Keeps d w₁) (hcontained : s.Contained) :
    (s.bind (closing d caller)).Inside d w := by
  have deeper {w₂ : World} {left : List TableId} (h : Kept d left w₁ w₂) :
      ∃ left ≠ [], Kept d left w w₂ :=
    ⟨left ++ [w.tables.size], by simp, hopen.trans h⟩
  induction s with
  | ended r w₂ =>
    cases r with
    | ok v =>
      obtain ⟨left, hkept, htells⟩ := hs
      obtain ⟨t, rest, left', hclosing, -, hkept', hleft, -⟩ :=
        closing_apply hS hcaller hopen hkept v
      show (closing d caller v w₂).Inside d w
      rw [hclosing]
      refine ⟨left', hkept', fun hne ↦ .inl ?_⟩
      have htold := (htells fun hnil ↦ hne (hleft.2 hnil)).resolve_right id
      exact htold.mono hopen.log (List.prefix_refl _)
    | error e =>
      obtain ⟨left, hkept, -⟩ := hs
      refine ⟨?_, deeper hkept⟩
      cases e with
      | raised f => exact hcontained f rfl
      | cancelled => trivial
      | outOfFuel => trivial
  | waiting request w₂ resume ih =>
    obtain ⟨⟨left, hkept, -⟩, hresume⟩ := hs
    exact ⟨deeper hkept, fun reply w₃ hw₃ ↦
      ih reply w₃ (hresume reply w₃ hw₃) (hcontained reply w₃)⟩

theorem inside_callBody {r : Ref} {t : Table} (hbody : Keeps d (I.body d stmts))
    (hS : w.scope? d = some S) : (I.callBody d r t stmts w).Inside d w := by
  rw [callBody_apply]
  exact inside_closing hS (function_eq_of_scope? hS) (kept_entered r t hS)
    (hbody _ _ (scope?_entered r t hS)) (contained_body I d stmts _)

theorem keeps_callBody (r : Ref) (t : Table) (hbody : Keeps d (I.body c stmts)) :
    Keeps d (I.callBody c r t stmts) := by
  by_cases h : c = d
  · subst h
    exact fun w S hS ↦ (inside_callBody hbody hS).keeps
  · refine Keeps.bind (fun w S hS ↦ .of_kept (.refl hS)) fun ctx ↦
      Keeps.bind (keeps_modify fun w S hS ↦ kept_entered_of_ne h r t hS) fun _ ↦
      Keeps.bind hbody fun v ↦ Keeps.bind (keeps_leave_of_ne h _) fun _ ↦ keeps_result v

end Interp

def keeping (d : ContextId) : Discipline where
  own := .whole
  Obeys _ := Activity.Keeps d
  prompt hx := hx.keeps
  pausing hx := hx.keeps
  bind := Activity.Keeps.bind
  fresh c name _ hf :=
    (Activity.proper_newContextBeside (E := .whole) (p := default) c name).keeps.bind fun e ↦
      hf e trivial
  guarded c pos fallback _ _ hx := fun _ _ hS ↦ (hx.restores c pos fallback hS).keeps
  callBody _ _ r t _ hbody := Interp.keeps_callBody r t hbody
  runTree _ _ _ hscript :=
    Interp.runTree_of_sequence (P := Activity.Keeps d) Activity.keeps_read Activity.Keeps.bind
      (fun pos fallback _ _ hx _ _ hS ↦ (hx.restores _ pos fallback hS).keeps) hscript
  queues _ := trivial

/-! ### Values from outside -/

namespace World

def carried (w : World) (r : Ref) : List (Key × Value) := Interp.tableEntries (w.store.dictAt r)

theorem give_nil (w : World) (c : ContextId) : w.give c [] = w := by
  have hsame : w.tables.modify (w.context c).locals (·.putAll []) = w.tables := by
    refine Array.ext_getElem? fun i ↦ ?_
    rw [Array.getElem?_modify]
    split
    · exact Option.map_id'
    · rfl
  rcases w.give_cases c [] with h | ⟨-, h⟩ <;> rw [h]
  rw [updateTable, hsame]

end World

open Activity World in
theorem Interp.give_dict (c : ContextId) (r : Ref) (w : World) :
    give c (.dict r) w = .ended (.ok ()) (w.give c (w.carried r)) := by
  have hread : give c (.dict r) w =
      (if Value.truth w.store (.dict r) then do
        let entries ← op (Op.pairsOf caller (.dict r))
        modify (·.give c (tableEntries entries))
      else result () : Activity Unit) w := rfl
  rw [hread]
  split
  · rfl
  · next hempty =>
    have hnil : w.store.dictAt r = [] := by
      simpa [Value.truth] using hempty
    rw [carried, hnil]
    show Step.ended (.ok ()) w = .ended (.ok ()) (w.give c [])
    rw [give_nil]

end TriggerScript
