import TriggerScript.Proofs.Evaluation.CallFree
import TriggerScript.Proofs.Evaluation.Loading

/-!
# Augmented assignment

`t op= e` and `t = t op e` look up `t`, evaluate `e`, apply the operator and store the result. They
differ in where they say that an error stands, so their runs are compared up to records
(`Step.Meets`). For a plain name they come to the same. A dotted name is stored in different places:
an assignment sets a variable of the host, and an augmented one does so if the variable exists and
binds the name in a table otherwise. It looks the name up as a whole and not as a member
(`augAssign_meets_assign`).
-/

namespace TriggerScript

open Syntax (Position Expr Stmt Operator)

open Activity

/-! ### Runs up to records -/

namespace World

variable {w w' v : World}

theorem Akin.symm (h : Akin w w') : Akin w' w := by
  obtain ⟨contexts, log, rfl⟩ := h.rest
  exact ⟨h.still.symm, _, _, rfl⟩

/-- The name stands for a value. -/
def Stands (w : World) (c : ContextId) (x : String) : Prop :=
  ∃ v, w.nameValue (w.context c) x = .ok v ∧ ∀ name, v ≠ .unresolved name

/-- The name is undeclared and names a state. -/
def Sets (w : World) (c : ContextId) (x : String) : Prop :=
  w.isGlobal (w.context c) x = false ∧ w.isNonlocal (w.context c) x = false ∧
    w.variableExists x = true

theorem Akin.sets {c : ContextId} {x : String} (h : Akin w w') (hw : w.Sets c x) : w'.Sets c x := by
  obtain ⟨error, errorLong, hc⟩ := h.still.contexts c
  obtain ⟨contexts, log, rfl⟩ := h.rest
  rw [Sets, hc]
  exact hw

end World

namespace Step

variable {α β : Type} {E : Environment} {s s' : Step α} {w w' : World}

/-- Every end of `s` is one of `s'`, up to records of errors. -/
def Mirrors (E : Environment) (s s' : Step α) : Prop :=
  ∀ r w, s.Finishes E r w → ∃ w', s'.Finishes E r w' ∧ w.Akin w'

def Meets (E : Environment) (s s' : Step α) : Prop := s.Mirrors E s' ∧ s'.Mirrors E s

theorem mirrors_ended (r : Except Stop α) (h : w.Akin w') : (ended r w).Mirrors E (ended r w') := by
  rintro r u ⟨⟩
  exact ⟨w', .ended _ _, h⟩

theorem mirrors_refl (s : Step α) : s.Mirrors E s := fun _ w h ↦ ⟨w, h, ⟨.refl w, _, _, rfl⟩⟩

theorem Mirrors.bind {f g : α → World → Step β} (hs : s.Mirrors E s') (hf : ∀ a w,
    s.Finishes E (.ok a) w →
    ∀ w', w.Akin w' → (f a w).Mirrors E (g a w')) : (s.bind f).Mirrors E (s'.bind g) := by
  intro r w h
  rcases h.of_bind with ⟨a, w₁, hfirst, hsecond⟩ | ⟨e, hfirst, rfl⟩
  · obtain ⟨w₁', hfirst', hakin⟩ := hs _ w₁ hfirst
    obtain ⟨w', hsecond', hakin'⟩ := hf a w₁ hfirst w₁' hakin r w hsecond
    exact ⟨w', hfirst'.bind hsecond', hakin'⟩
  · obtain ⟨w', hfirst', hakin⟩ := hs _ w hfirst
    exact ⟨w', hfirst'.failed, hakin⟩

theorem Mirrors.attempt (hs : s.Mirrors E s') : s.attempt.Mirrors E s'.attempt := by
  intro r w h
  obtain ⟨r, hrun, rfl⟩ := h.of_attempt
  obtain ⟨w', hrun', hakin⟩ := hs r w hrun
  exact ⟨w', hrun'.attempt, hakin⟩

end Step

theorem Activity.Tandem.mirrors {α : Type} {G : World → World → Prop} {E : Environment}
    {x y : Activity α} (h : Tandem World.Akin G x y) {w w' : World} (hakin : w.Akin w') :
    (x w).Mirrors E (y w') := by
  obtain ⟨r, u, u', hend, hend', -, -, hafter⟩ := h w w' hakin
  rw [hend, hend']
  exact Step.mirrors_ended r hafter

namespace Interp

variable {E : Environment} {I : Interp} {c : ContextId} {n : Nat} {x : String} {o : Operator}
  {e t t' : Expr} {w w' : World} {pos pos' : Option Position}

/-! ### The operation -/

/-- The operation on `left` and `e`, guarded at `pos`. -/
def operation (I : Interp) (c : ContextId) (pos : Option Position) (left : Activity Value)
    (o : Operator) (e : Expr) : Activity Value :=
  guarded c pos .none (do
    let a ← left
    let b ← I.evaluate c e
    defined (← operate o a b))

theorem tandem_standIn (r : Except Fault Value) :
    Tandem World.Akin (World.Spared True) (standIn c pos .none r) (standIn c pos' .none r) := by
  unfold standIn
  split
  · exact (akin True c).result _
  · exact (akin True c).raise _
  · exact (akin True c).bind (tandem_recordError pos pos' _) fun _ ↦ (akin True c).result _

theorem mirrors_operation {left left' : Activity Value} {r : Except Stop Value} {u u' : World}
    (hleft : left w = .ended r u) (hleft' : left' w = .ended r u') (hakin : u.Akin u')
    (he : (I.evaluate c e u).Mirrors E (I.evaluate c e u')) :
    (operation I c pos left o e w).Mirrors E (operation I c pos' left' o e w) := by
  have T := akin True c
  refine Step.Mirrors.bind (Step.Mirrors.attempt ?_) fun r w _ w' hakin ↦
    (tandem_standIn r).mirrors hakin
  show ((left w).bind _).Mirrors E ((left' w).bind _)
  rw [hleft, hleft']
  cases r with
  | error stop => exact Step.mirrors_ended _ hakin
  | ok a =>
    refine he.bind fun b w _ w' hakin ↦ Tandem.mirrors (T.bind ?_ fun v ↦ T.defined v) hakin
    unfold operate
    split
    · exact tandem_calling (.inl trivial)
    · exact T.op _

/-! ### Targets -/

/-- How the name `x` is written where it is stored and where it is looked up. -/
inductive Target : Expr → Expr → String → Prop
  | plain (p p' : Position) (x : String) : Target (.name p x .store) (.name p' x .load) x
  | dotted (p p' : Position) {value : Expr} {owner : String} (attr : String)
      (h : value.dottedName? = some owner) :
      Target (.member p value attr .store) (.member p' value attr .load) (owner ++ "." ++ attr)

theorem memberNode_of_name {p : Position} {value : Expr} {owner attr : String}
    {access : Syntax.Access} {v : Value} (h : value.dottedName? = some owner)
    (hv : nameNode c (owner ++ "." ++ attr) access w = .ended (.ok v) w)
    (hresolved : ∀ name, v ≠ .unresolved name) :
    I.memberNode c (.member p value attr access) value attr access w = .ended (.ok v) w := by
  have hfull : (Expr.member p value attr access).dottedName? = some (owner ++ "." ++ attr) := by
    rw [Expr.dottedName?, h]
    rfl
  unfold memberNode
  rw [hfull, h]
  refine (bind_of_ended hv).trans ?_
  split
  · exact absurd rfl (hresolved _)
  · rfl

theorem Target.evaluate_store (ht : Target t t' x) :
    (upTo (n + 1)).evaluate c t = result (.text x) := by
  cases ht with
  | plain p p' x => rfl
  | @dotted p p' value owner attr h =>
    have hnode : (upTo n).memberNode c (.member p value attr .store) value attr .store =
        result (.text (owner ++ "." ++ attr)) :=
      funext fun w ↦ memberNode_of_name h rfl (by rintro name ⟨⟩)
    show guarded c (some p) .none ((upTo n).memberNode c _ value attr .store >>= defined) = _
    rw [hnode]
    rfl

theorem binary_eq (ho : o ≠ .matMult) (kind : String) (left : Activity Value) :
    (binary I c kind left o e >>= defined) = left >>= fun a ↦ I.evaluate c e >>= fun b ↦
      operate o a b >>= defined := by
  cases o <;> first | exact absurd rfl ho | simp only [binary, Activity.bind_assoc]

theorem augAssign_eq (ht : Target t t' x) (ho : o ≠ .matMult) (p : Position) :
    (upTo (n + 2)).statement c (.augAssign p t o e) =
      operation (upTo (n + 1)) c none (targetValue c (.text x)) o e >>= fun v ↦
        rebind c (.text x) v >>= fun _ ↦ result (.value .none) := by
  show (((upTo (n + 1)).evaluate c t >>= fun name ↦ guarded c none .none _ >>= fun v ↦
    rebind c name v) >>= _) = _
  rw [ht.evaluate_store, operation, ← binary_eq ho "Name"]
  exact Activity.bind_assoc (guarded c none Value.none _) (rebind c (.text x)) _

def storing (c : ContextId) (x : String) (v : Value) : Activity Unit :=
  if x.toList.contains '.' then setVariable x v .none else bindName c x v

theorem assign_eq (ht : Target t t' x) (ho : o ≠ .matMult) (p q : Position) :
    (upTo (n + 3)).statement c (.assign p [t] (.binOp q t' o e)) =
      operation (upTo (n + 1)) c (some q) ((upTo (n + 1)).evaluate c t') o e >>= fun v ↦
        storing c x v >>= fun _ ↦ result (.value .none) := by
  have hvalue : (upTo (n + 2)).evaluate c (.binOp q t' o e) =
      operation (upTo (n + 1)) c (some q) ((upTo (n + 1)).evaluate c t') o e := by
    refine congrArg (guarded c (some q) Value.none) ?_
    show ((read (·.shape) >>= fun shape ↦ binary _ c _ _ o e) >>= defined) = _
    rw [Activity.bind_assoc]
    simp only [binary_eq ho]
    rfl
  have htarget (v : Value) : assignTarget (upTo (n + 2)) c v t = storing c x v := by
    have hstore := ht.evaluate_store (n := n + 1) (c := c)
    cases ht with
    | plain p p' x => rfl
    | dotted p p' attr h =>
      show ((upTo (n + 2)).evaluate c _ >>= _) = _
      rw [hstore]
      rfl
  show ((upTo (n + 2)).evaluate c (.binOp q t' o e) >>= fun v ↦
    (assignTarget (upTo (n + 2)) c v t >>= fun _ ↦ result ()) >>= fun _ ↦
      result (Flow.value .none)) = _
  simp only [hvalue, htarget, Activity.bind_assoc]
  rfl

/-! ### Looking up and storing -/

theorem Target.left_of_stands (ht : Target t t' x) (h : w.Stands c x) :
    ∃ v, targetValue c (.text x) w = .ended (.ok v) w ∧
      (upTo (n + 1)).evaluate c t' w = .ended (.ok v) w := by
  obtain ⟨v, hv, hresolved⟩ := h
  have hname : nameNode c x .load w = .ended (.ok v) w := by
    show lift (w.nameValue (w.context c) x) w = _
    rw [hv]
    rfl
  have hdefined : defined v = result v := by
    cases v <;> first | rfl | exact absurd rfl (hresolved _)
  have hguarded {pos : Option Position} {y : Activity Value} (hy : y w = .ended (.ok v) w) :
      guarded c pos .none (y >>= defined) w = .ended (.ok v) w := by
    show ((y w).bind defined).attempt.bind _ = _
    rw [hy]
    show (defined v w).attempt.bind _ = _
    rw [hdefined]
    rfl
  refine ⟨v, hguarded hname, ?_⟩
  cases ht with
  | plain p p' x => exact hguarded hname
  | dotted p p' attr h => exact hguarded (memberNode_of_name h hname hresolved)

theorem tandem_left (p : Position) (x : String) : Tandem World.Akin (World.Spared True)
    (targetValue c (.text x)) ((upTo (n + 1)).evaluate c (.name p x .load)) := by
  have T := akin True c
  have hnode : Tandem World.Akin (World.Spared True) (targetNode c (.text x))
      (targetNode c (.text x)) :=
    T.bind (T.nameNode (fun hakin ↦ hakin.nameValue c x) .load) fun v ↦ T.defined v
  exact T.bind hnode.attempt tandem_standIn

theorem mirrors_bindName (hakin : w.Akin w') (v : Value) :
    (bindName c x v w).Mirrors E (bindName c x v w') := by
  have htable : w'.bindingTable (w'.context c) x = w.bindingTable (w.context c) x := by
    obtain ⟨error, errorLong, hc⟩ := hakin.still.contexts c
    obtain ⟨contexts, log, rfl⟩ := hakin.rest
    rw [hc]
    rfl
  unfold bindName amend World.assign
  dsimp only
  rw [htable]
  cases w.bindingTable (w.context c) x with
  | error f => exact Step.mirrors_ended _ hakin
  | ok t =>
    refine Step.mirrors_ended _ ⟨⟨?_, hakin.still.size, hakin.still.contexts⟩, ?_⟩
    · exact congrArg (fun ts : Array Table ↦ ts.modify t (·.put (some x) v)) hakin.still.tables
    · obtain ⟨contexts, log, rfl⟩ := hakin.rest
      exact ⟨contexts, log, rfl⟩

theorem rebind_of_sets (h : w.Sets c x) (v : Value) :
    rebind c (.text x) v w = setVariable x v .none w := by
  obtain ⟨hglobal, hnonlocal, hexists⟩ := h
  show (if _ && _ && w.variableExists x then setVariable x v .none else bindName c x v) w = _
  rw [if_pos (by simp [hglobal, hnonlocal, hexists])]

theorem rebind_of_not_sets (h : ¬ w.Sets c x) (v : Value) :
    rebind c (.text x) v w = bindName c x v w := by
  show (if _ && _ && w.variableExists x then setVariable x v .none else bindName c x v) w = _
  rw [if_neg (by simpa [World.Sets] using h)]

theorem meets_of_store {y y' : Activity Value} {store store' : Value → Activity Unit}
    {C : World → Prop} (hoperation : (y w).Meets E (y' w))
    (hC : ∀ {u u'}, World.Akin u u' → C u → C u')
    (hreached : ∀ v u, (y w).Finishes E (.ok v) u → C u)
    (hstore : ∀ v u u', C u → u.Akin u' → (store v u).Meets E (store' v u')) :
    ((y >>= fun v ↦ store v >>= fun _ ↦ result (Flow.value .none)) w).Meets E
      ((y' >>= fun v ↦ store' v >>= fun _ ↦ result (Flow.value .none)) w) := by
  refine ⟨hoperation.1.bind fun v u hu u' hakin ↦ ?_, hoperation.2.bind fun v u' hu' u hakin ↦ ?_⟩
  · exact (hstore v u u' (hreached v u hu) hakin).1.bind fun _ _ _ _ hakin ↦
      Step.mirrors_ended _ hakin
  · obtain ⟨u₀, hu₀, hakin₀⟩ := hoperation.2 _ u' hu'
    have hu : C u := hC hakin (hC hakin₀.symm (hreached v u₀ hu₀))
    exact (hstore v u u' hu hakin.symm).2.bind fun _ _ _ _ hakin ↦ Step.mirrors_ended _ hakin

/-- **`t op= e` and `t = t op e` come to the same but for records**, whatever happens while `e`
waits, if `t` is a plain name that stands for something, however it was declared, or a plain name
and `e` makes no call, or calls what goes on without regard to records in surroundings that do so
too. They do for a dotted name that stands for something as a whole, if a variable exists under it
when the value is stored. Where none exists the augmented assignment leaves the states alone, and
the assignment the tables. -/
theorem augAssign_meets_assign (ht : Target t t' x) (ho : o ≠ .matMult) (E : Environment) (n : Nat)
    (c : ContextId) (e : Expr) (w : World) (p p' q : Position) :
    let aug := (upTo (n + 2)).statement c (.augAssign p t o e)
    let assign := (upTo (n + 3)).statement c (.assign p' [t] (.binOp q t' o e))
    (Plain x → w.Stands c x ∨ e.CallFree ∨ (∀ u u', World.Akin u u' →
      ((upTo (n + 1)).evaluate c e u).Mirrors E ((upTo (n + 1)).evaluate c e u')) →
        (aug w).Meets E (assign w)) ∧
    (¬ Plain x → w.Stands c x →
      (∀ v u, (operation (upTo (n + 1)) c none (targetValue c (.text x)) o e w).Finishes E (.ok v)
        u → u.Sets c x) →
      (aug w).Meets E (assign w)) ∧
    (¬ Plain x → ∀ v u, ¬ u.Sets c x →
      (∀ r u', (rebind c (.text x) v u).Finishes E r u' → u'.host = u.host) ∧
      ∀ r u', (storing c x v u).Finishes E r u' → u'.tables = u.tables) := by
  intro aug assign
  have haug : aug = _ := augAssign_eq ht ho p
  have hassign : assign = _ := assign_eq ht ho p' q
  rw [haug, hassign]
  have hrefl (u : World) : u.Akin u := ⟨.refl u, _, _, rfl⟩
  have hstands (h : w.Stands c x) :
      (operation (upTo (n + 1)) c none (targetValue c (.text x)) o e w).Meets E
      (operation (upTo (n + 1)) c (some q) ((upTo (n + 1)).evaluate c t') o e w) := by
    obtain ⟨v, hleft, hleft'⟩ := ht.left_of_stands h
    exact ⟨mirrors_operation hleft hleft' (hrefl w) (Step.mirrors_refl _),
      mirrors_operation hleft' hleft (hrefl w) (Step.mirrors_refl _)⟩
  have hset (hx : ¬ Plain x) (v : Value) : storing c x v = setVariable x v .none :=
    if_pos (by simpa [Plain] using hx)
  have hspared (v : Value) := (tandem_manner True.intro).setVariable x v .none
  refine ⟨fun hx h ↦ ?_, fun hx h hsets ↦ ?_, fun hx v u hu ↦
    ⟨fun r u' hrun ↦ ?_, fun r u' hrun ↦ ?_⟩⟩
  · have hoperation : (operation (upTo (n + 1)) c none (targetValue c (.text x)) o e w).Meets E
        (operation (upTo (n + 1)) c (some q) ((upTo (n + 1)).evaluate c t') o e w) := by
      rcases h with h | h
      · exact hstands h
      · have he {u u' : World} (hakin : u.Akin u') :
            ((upTo (n + 1)).evaluate c e u).Mirrors E ((upTo (n + 1)).evaluate c e u') := by
          rcases h with h | h
          · exact (tandem_evaluate True c (n + 1) ⟨h, (absurd trivial ·)⟩).mirrors hakin
          · exact h u u' hakin
        cases ht with
        | plain =>
          obtain ⟨r, u, u', hleft, hleft', -, -, hakin⟩ := tandem_left _ x w w (hrefl w)
          exact ⟨mirrors_operation hleft hleft' hakin (he hakin),
            mirrors_operation hleft' hleft hakin.symm (he hakin.symm)⟩
        | dotted => simp [Plain, String.toList_append] at hx
    refine meets_of_store (C := fun _ ↦ True) hoperation (fun _ _ ↦ trivial) (fun _ _ _ ↦ trivial)
      fun v u u' _ hakin ↦ ?_
    rw [rebind_of_plain hx, storing, if_neg (by rw [hx]; exact Bool.false_ne_true)]
    exact ⟨mirrors_bindName hakin v, mirrors_bindName hakin.symm v⟩
  · refine meets_of_store (hstands h) World.Akin.sets hsets fun v u u' hu hakin ↦ ?_
    rw [rebind_of_sets hu, hset hx]
    exact ⟨(hspared v).mirrors hakin, (hspared v).mirrors hakin.symm⟩
  · rw [rebind_of_not_sets hu] at hrun
    unfold bindName amend at hrun
    split at hrun
    · rename_i hassign
      obtain ⟨t, -, rfl⟩ := World.assign_cases hassign
      cases hrun
      rfl
    · cases hrun
      rfl
  · rw [hset hx] at hrun
    obtain ⟨r₁, u₁, -, hend, -, hspared, -⟩ := hspared v u u (hrefl u)
    rw [hend] at hrun
    cases hrun
    exact hspared.still.tables

def dottedTarget (access : Syntax.Access) : Expr :=
  .member ⟨1, 0⟩ (.name ⟨1, 0⟩ "pyscript" .load) "x" access

def one : Expr := .constant ⟨1, 14⟩ (.int 1) none

def withVariable : World := { knowing [] 0 with host.states := [("pyscript.x", ⟨"a", []⟩)] }

theorem augAssign_meets_assign_both :
    let E := Step.undisturbed 0
    (((upTo 2).statement 0 (.augAssign ⟨1, 0⟩ (.name ⟨1, 0⟩ "k" .store) .add one)
      (knowing [] 0)).Meets E ((upTo 3).statement 0 (.assign ⟨1, 0⟩ [.name ⟨1, 0⟩ "k" .store]
        (.binOp ⟨1, 4⟩ (.name ⟨1, 4⟩ "k" .load) .add one)) (knowing [] 0))) ∧
    ((upTo 2).statement 0 (.augAssign ⟨1, 0⟩ (dottedTarget .store) .mult one) withVariable).Meets E
      ((upTo 3).statement 0 (.assign ⟨1, 0⟩ [dottedTarget .store]
        (.binOp ⟨1, 13⟩ (dottedTarget .load) .mult one)) withVariable) := by
  intro E
  have hplain :=
    augAssign_meets_assign (Target.plain ⟨1, 0⟩ ⟨1, 4⟩ "k") (o := .add) (by decide) E 0 0 one
      (knowing [] 0)
    ⟨1, 0⟩ ⟨1, 0⟩ ⟨1, 4⟩
  have htarget : Target (dottedTarget .store) (dottedTarget .load) ("pyscript" ++ "." ++ "x") :=
    .dotted _ _ _ rfl
  have hdotted :=
    augAssign_meets_assign htarget (o := .mult) (by decide) E 0 0 one withVariable ⟨1, 0⟩ ⟨1, 0⟩
      ⟨1, 13⟩
  refine ⟨hplain.1 (by decide) (.inl ⟨.int 0, rfl, by rintro name ⟨⟩⟩),
    hdotted.2.1 (by decide) ⟨.text "a", rfl, by rintro name ⟨⟩⟩ ?_⟩
  rintro v u ⟨⟩
  exact ⟨rfl, rfl, rfl⟩

/-- Where no variable exists, one binds the dotted name in a table and the other sets the
variable. -/
theorem augAssign_undefined_variable :
    (((upTo 3).execute 0 (.augAssign ⟨1, 0⟩ (dottedTarget .store) .add one) (knowing [] 0)).replay 0
      []).map
      (fun p ↦ ((p.2.table 0).contains (some "pyscript.x"), p.2.host.states.length)) =
        some (true, 0) ∧
    (((upTo 4).execute 0 (.assign ⟨1, 0⟩ [dottedTarget .store]
      (.binOp ⟨1, 13⟩ (dottedTarget .load) .add one)) (knowing [] 0)).replay 0 []).map
      (fun p ↦ ((p.2.table 0).contains (some "pyscript.x"), p.2.host.states.length)) =
        some (false, 1) := by
  decide +kernel

end Interp

end TriggerScript
