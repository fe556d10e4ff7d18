import TriggerScript.Proofs.Evaluation.ForLoop

/-!
# Names that were just bound

Assignments, imports and definitions compute a value and bind a name to it as the last thing they
do, up to other targets of an assignment (`Binder`), and each round of a `for` statement begins so.
Assignments bind the name where its declaration says; it is looked up there, so it stands for the
value afterwards (`World.loads_of_bindingTable`). The others bind it in the table of the running function. A declared name
is looked up elsewhere, and stands for what it stood for before (`load_after_binding`).
-/

namespace TriggerScript

open Syntax (Position Expr Stmt Alias)

namespace World

variable {w w' : World} {c : ContextId} {x : String} {v : Value}

section

variable {ctx : Context}

theorem nameValue_of_global (h : w.isGlobal ctx x = true) :
    w.nameValue ctx x = ((w.table ctx.globals).get? (some x)).elim (.error (.undefinedGlobal x))
      .ok := by
  rw [nameValue, if_pos h]
  cases (w.table ctx.globals).get? (some x) <;> rfl

theorem nameValue_of_nonlocal (hglobal : w.isGlobal ctx x = false) (h : w.isNonlocal ctx x = true) :
    w.nameValue ctx x =
      ((w.suspendedWith? ctx (some x)).bind fun t ↦ (w.table t).get? (some x)).elim
      (.error (.undefinedNonlocal x)) .ok := by
  rw [nameValue, if_neg (by simp [hglobal]), if_pos h]
  cases (w.suspendedWith? ctx (some x)).bind _ <;> rfl

theorem nameValue_of_undeclared (hglobal : w.isGlobal ctx x = false)
    (hnonlocal : w.isNonlocal ctx x = false) :
    w.nameValue ctx x = (w.bound? ctx (some x)).elim (.ok (w.outer x)) .ok := by
  rw [nameValue, if_neg (by simp [hglobal]), if_neg (by simp [hnonlocal])]
  cases w.bound? ctx (some x) <;> rfl

theorem suspendedWith?_congr {key : Key}
    (h : ∀ t ∈ ctx.suspended, (w'.table t).contains key = (w.table t).contains key) :
    w'.suspendedWith? ctx key = w.suspendedWith? ctx key := by
  unfold suspendedWith?
  generalize ctx.suspended = ts at h
  induction ts with
  | nil => rfl
  | cons t rest ih =>
    rw [List.find?_cons, List.find?_cons, h t List.mem_cons_self, ih fun t ht ↦
      h t (List.mem_cons_of_mem _ ht)]

end

/-- The name stands for `v`, also among the globals if it is declared so. -/
structure Loads (w : World) (c : ContextId) (x : String) (v : Value) : Prop where
  load : w.nameValue (w.context c) x = .ok v
  global : w.isGlobal (w.context c) x = true → (w.table (w.context c).globals).get? (some x) =
    some v

theorem Loads.of_load (h : w.nameValue (w.context c) x = .ok v) : w.Loads c x v := by
  refine ⟨h, fun hglobal ↦ ?_⟩
  rw [nameValue_of_global hglobal] at h
  cases hget : (w.table (w.context c).globals).get? (some x) with
  | none =>
    rw [hget] at h
    cases h
  | some u =>
    rw [hget] at h
    rw [Except.ok.inj h]

theorem loads_of_bindingTable {t : TableId} (hformed : w.Formed)
    (h : w.bindingTable (w.context c) x = .ok t) : (w.bind t (some x) v).Loads c x v := by
  obtain ⟨hglobals, -, hstack⟩ := hformed c
  refine .of_load ?_
  show (w.bind t (some x) v).nameValue (w.context c) x = .ok v
  have hput {t : TableId} (ht : t < w.tables.size) :
      ((w.bind t (some x) v).table t).get? (some x) = some v := by
    rw [bind, table_updateTable_self ht, Table.get?_put_self]
  unfold bindingTable at h
  cases hglobal : w.isGlobal (w.context c) x with
  | true =>
    rw [if_pos hglobal] at h
    cases h
    rw [nameValue_of_global (w := w.bind _ _ _) hglobal, hput hglobals]
    rfl
  | false =>
    rw [if_neg (by simp [hglobal])] at h
    cases hnonlocal : w.isNonlocal (w.context c) x with
    | true =>
      rw [if_pos hnonlocal] at h
      split at h
      · rename_i t' hfound
        cases h
        have ht := hput (hstack t (List.mem_cons_of_mem _ (List.mem_of_find?_eq_some hfound)))
        have hfound' : (w.bind t (some x) v).suspendedWith? (w.context c) (some x) = some t := by
          refine (suspendedWith?_congr fun u _ ↦ ?_).trans hfound
          by_cases hu : t = u
          · subst hu
            rw [(List.find?_some hfound :), Table.contains, ht]
            rfl
          · rw [bind, table_updateTable_of_ne hu]
        rw [nameValue_of_nonlocal (w := w.bind _ _ _) hglobal hnonlocal, hfound', Option.bind_some,
          ht]
        rfl
      · cases h
    | false =>
      rw [if_neg (by simp [hnonlocal])] at h
      cases h
      have hcurrent : (w.context c).current < w.tables.size := hstack _ List.mem_cons_self
      rw [nameValue_of_undeclared (w := w.bind _ _ _) hglobal hnonlocal, bound?, hput hcurrent]
      rfl

theorem nameValue_bind_of_ne {y : String} (h : x ≠ y) (t : TableId) (u : Value) (ctx : Context) :
    (w.bind t (some y) u).nameValue ctx x = w.nameValue ctx x := by
  have hget (t' : TableId) :
      ((w.bind t (some y) u).table t').get? (some x) = (w.table t').get? (some x) :=
    get?_updateTable (fun T ↦ T.get?_put_of_ne u fun heq ↦ h (Option.some.inj heq)) t
  simp only [nameValue, bound?, suspendedWith?, Table.contains, hget]
  rfl

/-- The current table is neither that of the globals nor suspended. -/
def Own (w : World) (c : ContextId) : Prop :=
  (w.context c).current ≠ (w.context c).globals ∧ (w.context c).current ∉ (w.context c).suspended

theorem own_entered (hformed : w.Formed) (hc : c < w.contexts.size) (r : Ref) (T : Table) :
    (Interp.entered c r T w).Own c := by
  have hctx : (Interp.entered c r T w).context c = { w.context c with
      suspended := (w.context c).current :: (w.context c).suspended
      current := w.tables.size
      function := some r } := by
    simp [Interp.entered, World.context, updateContext, addTable, hc, Array.getElem_modify]
  obtain ⟨hglobals, -, hstack⟩ := hformed c
  rw [Own, hctx]
  exact ⟨Nat.ne_of_gt hglobals, fun hmem ↦ Nat.lt_irrefl _ (hstack _ hmem)⟩

theorem nameValue_bindCurrent (hown : w.Own c)
    (hdeclared : w.isGlobal (w.context c) x = true ∨ w.isNonlocal (w.context c) x = true) :
    (w.bindCurrent c (some x) v).nameValue (w.context c) x = w.nameValue (w.context c) x := by
  have hother {t : TableId} (ht : (w.context c).current ≠ t) : (w.bindCurrent c (some x) v).table
      t = w.table t :=
    table_updateTable_of_ne ht _
  cases hglobal : w.isGlobal (w.context c) x with
  | true =>
    rw [nameValue_of_global hglobal, nameValue_of_global (w := w.bindCurrent ..) hglobal,
      hother hown.1]
  | false =>
    have hnonlocal := hdeclared.resolve_left (by simp [hglobal])
    have hsuspended {t : TableId} (ht : t ∈ (w.context c).suspended) :=
      hother (t := t) fun h ↦ hown.2 (h ▸ ht)
    have hsame : (w.bindCurrent c (some x) v).suspendedWith? (w.context c) (some x) =
        w.suspendedWith? (w.context c) (some x) := suspendedWith?_congr fun t ht ↦ by
          rw [hsuspended ht]
    rw [nameValue_of_nonlocal hglobal hnonlocal,
      nameValue_of_nonlocal (w := w.bindCurrent ..) hglobal hnonlocal, hsame]
    cases hfound : w.suspendedWith? (w.context c) (some x) with
    | none => rfl
    | some t =>
      rw [Option.bind_some, Option.bind_some, hsuspended (List.mem_of_find?_eq_some hfound)]

theorem Formed.of_bind {t : TableId} {key : Key} (h : (w.bind t key v).Formed) : w.Formed :=
  fun d ↦ (h d).mono (Nat.le_of_eq Array.size_modify)

/-- What the name `x` stands for after it was bound to `v`, by one who heeds declarations or not. -/
structure Bound (heeds : Bool) (c : ContextId) (x : String) (v : Value) (w w' : World) : Prop where
  loads : heeds = true ∨ w.isGlobal (w.context c) x = false ∧ w.isNonlocal (w.context c) x = false →
    w'.Loads c x v
  declared : heeds = false → w.Own c → w.isGlobal (w.context c) x = true ∨
    w.isNonlocal (w.context c) x = true →
    w'.nameValue (w'.context c) x = w.nameValue (w.context c) x ∧
      w'.table (w'.context c).globals = w.table (w.context c).globals

theorem bound_bindCurrent (hformed : w.Formed) :
    Bound false c x v w (w.bindCurrent c (some x) v) := by
  refine ⟨fun h ↦ ?_, fun _ hown hdeclared ↦ ⟨nameValue_bindCurrent hown hdeclared, ?_⟩⟩
  · obtain ⟨hglobal, hnonlocal⟩ := h.resolve_left Bool.false_ne_true
    refine loads_of_bindingTable hformed ?_
    rw [bindingTable, if_neg (by simp [hglobal]), if_neg (by simp [hnonlocal])]
  · exact table_updateTable_of_ne hown.1 _

end World

/-! ### Statements that bind a name -/

namespace Activity

theorem each_append {α β : Type} (xs ys : List α) (f : α → Activity Unit) (k : Activity β) :
    (each (xs ++ ys) f >>= fun _ ↦ k) = each xs f >>= fun _ ↦ each ys f >>= fun _ ↦ k := by
  induction xs with
  | nil => rfl
  | cons x rest ih =>
    refine (Activity.bind_assoc (f x) _ _).trans (.trans ?_ (Activity.bind_assoc (f x) _ _).symm)
    exact congrArg (f x >>= ·) (funext fun _ ↦ ih)

end Activity

namespace Interp

open Activity

variable {I : Interp} {c : ContextId} {x : String}

/-- A name without dots. -/
def Plain (x : String) : Prop := x.toList.contains '.' = false

instance (x : String) : Decidable (Plain x) := inferInstanceAs (Decidable (_ = _))

theorem variableExists_of_plain (h : Plain x) (w : World) : w.variableExists x = false := by
  have hsplit (cs : List Char) (h : cs.contains '.' = false) : Text.splitAtChar '.' cs = [cs] := by
    induction cs with
    | nil => rfl
    | cons a rest ih => grind [Text.splitAtChar]
  unfold World.variableExists World.variableValue? Notify.parts
  rw [hsplit _ h]
  rfl

theorem rebind_of_plain (hx : Plain x) (v : Value) : rebind c (.text x) v = bindName c x v := by
  funext w
  show (if _ && _ && w.variableExists x then setVariable x v .none else bindName c x v) w = _
  rw [variableExists_of_plain hx, Bool.and_false, if_neg Bool.false_ne_true]

def functionValue (I : Interp) (c : ContextId) (name : String) (params : Syntax.Parameters)
    (stmts : List Stmt) (decs : List Expr) : Activity Value :=
  match params with
  | .params _ _ _ _ kwDefaults _ defaults => do
    let defaults ← collect (I.evaluate c) defaults
    let keywordDefaults ← collect (defaultValue I c) kwDefaults
    let decorators ← decorators I c name decs
    let r ← modifyGet (·.addFunction
      { name, params, body := stmts, doc := docOf stmts, defaults, keywordDefaults, decorators })
    return .function r

/-- The target of an assignment is a plain name other than `x`. -/
def Aside (x : String) (target : Expr) : Prop := ∃ p y, target = .name p y .store ∧ Plain y ∧ x ≠ y

/-- The statement computes a value and binds `x` to it as the last thing it does, up to other plain
targets. -/
inductive Binder (I : Interp) (c : ContextId) (x : String) : Stmt → Bool → Activity Value → Prop
  | assign (pos p : Position) (targets : List Expr) {later : List Expr} (e : Expr)
      (hlater : ∀ target ∈ later, Aside x target) :
      Binder I c x (.assign pos (targets ++ .name p x .store :: later) e) true (do
        let v ← I.evaluate c e
        each targets (assignTarget I c v)
        return v)
  | augAssign (pos p : Position) (o : Syntax.Operator) (e : Expr) :
      Binder I c x (.augAssign pos (.name p x .store) o e) true
        (guarded c none .none (do defined (← binary I c "Name" (targetValue c (.text x)) o e)))
  | importNames (pos : Position) (names : List Alias) {a : Alias} (h : a.asName.getD a.name = x) :
      Binder I c x (.importNames pos (names ++ [a])) false (do
        importNames c names
        return .module (← importModule "of" (some a.name)))
  | importFrom (pos : Position) (module : Option String) (names : List Alias) (level : Nat)
      {a : Alias}
      (h : a.asName.getD a.name = x) : Binder I c x (.importFrom pos module (names ++ [a])
        level) false (do
        let m ← importModule "from" module
        each names fun a ↦ do
          let v ← memberOf (.module m) a.name (getMember · a.name)
          bindCurrent c (some (a.asName.getD a.name)) v
        memberOf (.module m) a.name (getMember · a.name))
  | functionDef (pos : Position) (params : Syntax.Parameters) (stmts : List Stmt) (decs : List Expr)
      (returns : Option Expr) : Binder I c x (.functionDef pos false x params stmts decs returns)
        false (functionValue I c x params stmts decs)

theorem assignTarget_of_plain (hx : Plain x) (p : Position) (n : Nat) (v : Value) :
    assignTarget (upTo (n + 1)) c v (.name p x .store) = bindName c x v :=
  if_neg (by rw [hx]; exact Bool.false_ne_true)

theorem exists_of_bindName {E : Environment} {v : Value} {w w' : World}
    (h : (bindName c x v w).Finishes E (.ok ()) w') :
    ∃ t, w.bindingTable (w.context c) x = .ok t ∧ w' = w.bind t (some x) v := by
  simp only [bindName, amend, World.assign] at h
  cases ht : w.bindingTable (w.context c) x with
  | error f =>
    rw [ht] at h
    cases h
  | ok t =>
    rw [ht] at h
    cases h
    exact ⟨t, rfl, rfl⟩

theorem loads_after_targets {E : Environment} {n : Nat} {v : Value} {later : List Expr}
    (hlater : ∀ target ∈ later, Aside x target) {w w' : World}
    (h : (each later (assignTarget (upTo (n + 1)) c v) w).Finishes E (.ok ()) w') :
    (w'.Formed → w.Formed) ∧ (w.Loads c x v → w'.Loads c x v) := by
  induction later generalizing w with
  | nil =>
    cases h
    exact ⟨id, id⟩
  | cons target rest ih =>
    obtain ⟨p, y, rfl, hy, hne⟩ := hlater target List.mem_cons_self
    obtain ⟨_, w₁, hfirst, h⟩ := h.of_bind_ok
    rw [assignTarget_of_plain hy] at hfirst
    obtain ⟨t, -, rfl⟩ := exists_of_bindName hfirst
    obtain ⟨hformed, hloads⟩ := ih (fun u hu ↦ hlater u (List.mem_cons_of_mem _ hu)) h
    exact ⟨fun h' ↦ .of_bind (hformed h'),
      fun h' ↦ hloads (.of_load ((World.nameValue_bind_of_ne hne ..).trans h'.load))⟩

theorem statementNode_of_binder {n : Nat} {s : Stmt} {heeds : Bool} {value : Activity Value}
    (hx : Plain x) (h : Binder (upTo (n + 1)) c x s heeds value) :
    ∃ later, (∀ target ∈ later, Aside x target) ∧ (upTo (n + 1)).statementNode c s = value >>=
      fun v ↦ (if heeds then bindName c x v >>= fun _ ↦ each later (assignTarget (upTo (n + 1)) c v)
        else bindCurrent c (some x) v) >>= fun _ ↦ result (.value .none) := by
  cases h with
  | assign pos p targets e hlater =>
    refine ⟨_, hlater, ?_⟩
    simp only [statementNode, Activity.bind_assoc, each_append, each, assignTarget_of_plain hx,
      if_true]
    rfl
  | augAssign pos p o e =>
    refine ⟨[], by simp, ?_⟩
    show (guarded c none .none _ >>= rebind c (.text x)) >>= _ = _
    simp only [Activity.bind_assoc, rebind_of_plain hx, if_true]
    rfl
  | importNames pos names h =>
    refine ⟨[], by simp, ?_⟩
    simp only [statementNode, Interp.importNames, Activity.bind_assoc, each_append, each, h]
    rfl
  | importFrom pos module names level h =>
    refine ⟨[], by simp, ?_⟩
    simp only [statementNode, Interp.importFrom, Activity.bind_assoc, each_append, each, h]
    rfl
  | functionDef pos params stmts decs returns =>
    refine ⟨[], by simp, ?_⟩
    cases params
    simp only [statementNode, defineFunction, functionValue, Activity.bind_assoc]
    rfl

/-- **What a name stands for after a statement that binds it.** -/
theorem load_after_binding (hx : Plain x) (E : Environment) (n : Nat) (c : ContextId) :
    (∀ s heeds value w flow w', Binder (upTo (n + 1)) c x s heeds value →
      ((upTo (n + 2)).statement c s w).Finishes E (.ok flow) w' → w'.Formed →
      ∃ v w₁, (value w).Finishes E (.ok v) w₁ ∧ World.Bound heeds c x v w₁ w') ∧
    (∀ stmts r k last w v w₁, calling (Op.next caller r) w = .ended (.ok (some v)) w₁ → w₁.Formed →
      ∃ w₂, World.Bound false c x v w₁ w₂ ∧ forRounds (upTo n) c (some x) stmts r (k + 1) last w =
        (round (upTo n) c stmts w₂).bind fun flow w₃ ↦
          if flow.leaves then .ended (.ok (some flow)) w₃
            else forRounds (upTo n) c (some x) stmts r k (some flow) w₃) ∧
    ∀ w r T, w.Formed → c < w.contexts.size → (entered c r T w).Own c := by
  refine ⟨fun s heeds value w flow w' hs h hformed ↦ ?_,
    fun stmts r k last w v w₁ hnext hformed ↦ ?_,
    fun w r T hformed hc ↦ World.own_entered hformed hc r T⟩
  · change ((upTo (n + 1)).statementNode c s w).Finishes E (.ok flow) w' at h
    obtain ⟨later, hlater, heq⟩ := statementNode_of_binder hx hs
    rw [heq] at h
    obtain ⟨v, w₁, hv, h⟩ := h.of_bind_ok
    obtain ⟨_, w₂, hbind, h⟩ := h.of_bind_ok
    cases h
    refine ⟨v, w₁, hv, ?_⟩
    cases heeds with
    | true =>
      obtain ⟨_, w₂, hbind, hrest⟩ := hbind.of_bind_ok
      obtain ⟨t, ht, rfl⟩ := exists_of_bindName hbind
      obtain ⟨hbefore, hloads⟩ := loads_after_targets hlater hrest
      exact ⟨fun _ ↦ hloads (World.loads_of_bindingTable (.of_bind (hbefore hformed)) ht),
        by rintro ⟨⟩⟩
    | false =>
      cases hbind
      exact World.bound_bindCurrent (.of_bind hformed)
  · exact ⟨_, World.bound_bindCurrent hformed, forRounds_of_some hnext⟩

def declaring : World where
  start := default
  store.functions := #[{ name := "f", params := .params [] [] none [] [] none [], body := [],
                         doc := none, globals := [("x", true)] }]
  tables := #[⟨[]⟩, ⟨[]⟩]
  contexts :=
    #[{ name := "test", globals := 0, current := 1, locals := 0, suspended := [0]
        function := some 0 }]

def importing : Stmt := .importNames ⟨3, 4⟩ [⟨"math", some "x"⟩]

theorem load_after_binding_import :
    Plain "x" ∧ ∃ value w', Binder (upTo 1) 0 "x" importing false value ∧
      ((upTo 2).statement 0 importing declaring).Finishes quiet (.ok (.value .none)) w' ∧
        w'.Formed ∧
      ∃ v w₁, (value declaring).Finishes quiet (.ok v) w₁ ∧ World.Bound false 0 "x" v w₁ w' := by
  have hx : Plain "x" := by decide
  have hbinder := Binder.importNames (I := upTo 1) (c := 0) (a := ⟨"math", some "x"⟩) ⟨3, 4⟩ [] rfl
  obtain ⟨w', hw'⟩ : ∃ w', w' = declaring.bindCurrent 0 (some "x") (.module "math") := ⟨_, rfl⟩
  have hrun : ((upTo 2).statement 0 importing declaring).Finishes quiet (.ok (.value .none)) w' :=
    hw' ▸ .ended _ _
  have hformed : w'.Formed := by
    intro c
    rw [hw']
    cases c with
    | zero => exact ⟨by decide, by decide, by decide⟩
    | succ c =>
      simp [World.bindCurrent, World.bind, World.updateTable, World.context, Context.Within,
        Context.scope, Scope.stack, declaring]
  exact ⟨hx, _, w', hbinder, hrun, hformed, (load_after_binding hx quiet 0 0).1 _ _ _ _ _ _ hbinder
    hrun hformed⟩

/-- The import binds `x` in the table of the function, and `x` stands for nothing where it was
declared. -/
theorem declared_import_unseen :
    ∃ w', (upTo 2).statement 0 importing declaring = .ended (.ok (.value .none)) w' ∧
    (w'.table 1).get? (some "x") = some (.module "math") ∧
    w'.nameValue (w'.context 0) "x" = .error (.undefinedGlobal "x") :=
  ⟨_, rfl, rfl, rfl⟩

end Interp

end TriggerScript
