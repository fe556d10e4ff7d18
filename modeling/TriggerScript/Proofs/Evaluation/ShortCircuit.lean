import TriggerScript.Proofs.Evaluation.Run

/-!
# Operands of `and` and `or`

Conditions and `not` go by the truth of a value (`stopsByTruth`). The operators go by comparison
with zero (`stopsByZero`), and for every value that equals zero they give the integer
(`boolOp_by_zero`).
-/

namespace TriggerScript

open Syntax (Position Expr BoolOperator)

/-! ### Zero and falsehood -/

namespace Value

def isZero (s : Store) (v : Value) : Bool := Value.equal s v (.int 0)

def orZero (s : Store) (v : Value) : Value := if v.isZero s then .int 0 else v

/-- The value equals zero exactly if it is not true. -/
def ToldByZero (s : Store) (v : Value) : Prop := v.isZero s = !v.truth s

theorem isZero_int (s : Store) (n : Int) : (Value.int n).isZero s = (n == 0) := by
  have h : (Value.int n).isZero s = (some (compare n 0) == some .eq) := rfl
  rw [h, Bool.eq_iff_iff]
  simp

theorem isZero_bool (s : Store) (b : Bool) : (Value.bool b).isZero s = !b := by
  cases b <;> rfl

theorem isZero_of_num?_none (s : Store) {v : Value} (h : v.num? = Option.none) :
    v.isZero s = false := by
  cases v with
  | bool b => cases h
  | int n => cases h
  | float x mark => cases h
  | complex re im mark => cases h
  | _ => rfl

theorem orZero_eq_self_iff {s : Store} {v : Value} : v.orZero s = v ↔
    (v.isZero s = true → v = .int 0) := by
  unfold orZero
  split
  · rename_i hzero
    simp [hzero, eq_comm]
  · rename_i hzero
    simp [hzero]

end Value

/-! ### Operands up to the one that decides -/

/-- Operands are evaluated from the left up to the first whose value stops, or else to the last. -/
inductive Decided (E : Environment) (I : Interp) (c : ContextId) (stops : Store → Value → Bool) :
    List Expr → World → List (World × Value) → Value → World → Prop
  | here {e : Expr} {rest : List Expr} {w w' : World} {v : Value}
      (he : (I.evaluate c e w).Finishes E (.ok v) w') (hv : rest = [] ∨ stops w'.store v = true) :
      Decided E I c stops (e :: rest) w [] v w'
  | later {e : Expr} {rest : List Expr} {w w₁ w' : World} {u v : Value}
      {passed : List (World × Value)}
      (he : (I.evaluate c e w).Finishes E (.ok u) w₁) (hu : stops w₁.store u = false)
      (h : Decided E I c stops rest w₁ passed v w') :
      Decided E I c stops (e :: rest) w ((w₁, u) :: passed) v w'

/-- The operand decides the result, by its truth. -/
def stopsByTruth : BoolOperator → Store → Value → Bool
  | .and, s, v => !v.truth s
  | .or, s, v => v.truth s

/-- The operand decides the result, by comparison with zero. -/
def stopsByZero : BoolOperator → Store → Value → Bool
  | .and, s, v => v.isZero s
  | .or, s, v => !v.isZero s

theorem Value.toldByZero_iff (op : BoolOperator) {s : Store} {v : Value} :
    v.ToldByZero s ↔ stopsByTruth op s v = stopsByZero op s v := by
  cases op with
  | and => exact eq_comm
  | or => cases hzero : v.isZero s <;> simp [ToldByZero, stopsByTruth, stopsByZero, hzero]

namespace Interp

open Activity

variable {E : Environment} {I : Interp} {c : ContextId} {op : BoolOperator} {w w' : World}
    {v : Value}

theorem conjunction_nil {u : Value} (hu : stopsByZero .and w.store u = false) :
    conjunction I c u [] w = .ended (.ok (u.orZero w.store)) w := by
  have hzero : u.isZero w.store = false := by simpa [stopsByZero] using hu
  rw [Value.orZero, hzero]
  rfl

theorem conjunction_cons (before : Value) (e : Expr) (rest : List Expr) (w : World) :
    conjunction I c before (e :: rest) w = (I.evaluate c e w).bind fun u w₁ ↦
      if stopsByZero .and w₁.store u then .ended (.ok (u.orZero w₁.store)) w₁
      else conjunction I c u rest w₁ := by
  refine congrArg (Step.bind _) (funext fun u ↦ funext fun w₁ ↦ ?_)
  show (if u.isZero w₁.store then result (.int 0) else conjunction I c u rest) w₁ = _
  cases hzero : u.isZero w₁.store <;> simp [stopsByZero, Value.orZero, hzero, result]

theorem disjunction_nil {u : Value} (hu : stopsByZero .or w.store u = false) :
    disjunction I c [] w = .ended (.ok (u.orZero w.store)) w := by
  have hzero : u.isZero w.store = true := by simpa [stopsByZero] using hu
  rw [Value.orZero, hzero]
  rfl

theorem disjunction_cons (e : Expr) (rest : List Expr) (w : World) :
    disjunction I c (e :: rest) w = (I.evaluate c e w).bind fun u w₁ ↦
      if stopsByZero .or w₁.store u then .ended (.ok (u.orZero w₁.store)) w₁
      else disjunction I c rest w₁ := by
  refine congrArg (Step.bind _) (funext fun u ↦ funext fun w₁ ↦ ?_)
  show (if u.isZero w₁.store then disjunction I c rest else result u) w₁ = _
  cases hzero : u.isZero w₁.store <;> simp [stopsByZero, Value.orZero, hzero, result]

theorem finishes_iff_decided {X : Value → List Expr → Activity Value}
    (hnil : ∀ {w u}, stopsByZero op w.store u = false →
      X u [] w = .ended (.ok (u.orZero w.store)) w)
    (hcons : ∀ before e rest w, X before (e :: rest) w = (I.evaluate c e w).bind fun u w₁ ↦
      if stopsByZero op w₁.store u then .ended (.ok (u.orZero w₁.store)) w₁ else X u rest w₁)
    (before : Value) (e : Expr) (es : List Expr) :
    (X before (e :: es) w).Finishes E (.ok v) w' ↔
      ∃ passed u, Decided E I c (stopsByZero op) (e :: es) w passed u w' ∧
        v = u.orZero w'.store := by
  induction es generalizing before e w with
  | nil =>
    have hlast : X before [e] w = (I.evaluate c e w).bind fun u w₁ ↦
        .ended (.ok (u.orZero w₁.store)) w₁ := by
      rw [hcons]
      refine congrArg (Step.bind _) (funext fun u ↦ funext fun w₁ ↦ ?_)
      cases hstops : stopsByZero op w₁.store u with
      | true => rfl
      | false => exact hnil hstops
    rw [hlast]
    constructor
    · intro h
      obtain ⟨u, w₁, he, hend⟩ := h.of_bind_ok
      obtain ⟨hv, rfl⟩ := Step.finishes_ended.1 hend
      exact ⟨[], u, .here he (.inl rfl), (Except.ok.inj hv).symm⟩
    · rintro ⟨passed, u, hdecided, rfl⟩
      cases hdecided with
      | here he _ => exact he.bind (.ended _ _)
      | later _ _ h => cases h
  | cons d es ih =>
    rw [hcons]
    constructor
    · intro h
      obtain ⟨u, w₁, he, hrest⟩ := h.of_bind_ok
      cases hstops : stopsByZero op w₁.store u with
      | true =>
        rw [if_pos hstops] at hrest
        obtain ⟨hv, rfl⟩ := Step.finishes_ended.1 hrest
        exact ⟨[], u, .here he (.inr hstops), (Except.ok.inj hv).symm⟩
      | false =>
        rw [if_neg (by simp [hstops])] at hrest
        obtain ⟨passed, u', hdecided, hv⟩ := (ih u d).1 hrest
        exact ⟨_, u', .later he hstops hdecided, hv⟩
    · rintro ⟨passed, u, hdecided, rfl⟩
      cases hdecided with
      | here he hstops =>
        refine he.bind ?_
        rw [if_pos (hstops.resolve_left (List.cons_ne_nil d es))]
        exact .ended _ _
      | later he hgoes h =>
        refine he.bind ?_
        rw [if_neg (by simp [hgoes])]
        exact (ih _ d).2 ⟨_, u, h, rfl⟩

theorem finishes_boolOp_iff (pos : Position) (e : Expr) (es : List Expr) :
    (I.expression c (.boolOp pos op (e :: es)) w).Finishes E (.ok v) w' ↔
      ∃ passed u, Decided E I c (stopsByZero op) (e :: es) w passed u w' ∧
        v = u.orZero w'.store := by
  cases op with
  | and => exact finishes_iff_decided conjunction_nil conjunction_cons (.int 1) e es
  | or =>
    exact finishes_iff_decided (X := fun _ ↦ disjunction I c) disjunction_nil
      (fun _ ↦ disjunction_cons) .none e es

end Interp

theorem Decided.byTruth_iff {E : Environment} {I : Interp} {c : ContextId} {op : BoolOperator}
    {es : List Expr} {w w' : World} {passed : List (World × Value)} {v : Value}
    (h : Decided E I c (stopsByZero op) es w passed v w') :
    Decided E I c (stopsByTruth op) es w passed v w' ↔
      (∀ p ∈ passed, p.2.ToldByZero p.1.store) ∧
        (passed.length + 1 < es.length → v.ToldByZero w'.store) := by
  induction h with
  | @here e rest w w' v he hv =>
    cases rest with
    | nil =>
      refine iff_of_true (.here he (.inl rfl)) ⟨by simp, fun hlt ↦ ?_⟩
      simp at hlt
    | cons d rest =>
      have hzero : stopsByZero op w'.store v = true := hv.resolve_left (List.cons_ne_nil d rest)
      constructor
      · intro h
        cases h with
        | here _ hstops =>
          have htruth := hstops.resolve_left (List.cons_ne_nil d rest)
          exact ⟨by simp, fun _ ↦ (Value.toldByZero_iff op).2 (htruth.trans hzero.symm)⟩
      · rintro ⟨-, htold⟩
        exact .here he (.inr (((Value.toldByZero_iff op).1 (htold (by simp))).trans hzero))
  | @later e rest w w₁ w' u v passed he hu _ ih =>
    constructor
    · intro h
      cases h with
      | later he' hu' h =>
        obtain ⟨hpassed, hlast⟩ := ih.1 h
        refine ⟨?_, fun hlt ↦ hlast (by simpa using hlt)⟩
        rintro p (_ | ⟨_, hp⟩)
        · exact (Value.toldByZero_iff op).2 (hu'.trans hu.symm)
        · exact hpassed p hp
    · rintro ⟨hpassed, hlast⟩
      have htold := (Value.toldByZero_iff op).1 (hpassed _ (List.mem_cons_self ..))
      exact .later he (htold.trans hu)
        (ih.2 ⟨fun p hp ↦ hpassed p (List.mem_cons_of_mem _ hp), fun hlt ↦
          hlast (by simpa using hlt)⟩)

/-- **`and` and `or` are decided by zero.** The value of the operator is what is left of the value
of the first operand that equals zero, or does not, and operands after it are not evaluated. It is
the value of the first operand that is false, or true, exactly if every value up to it is told by
the comparison with zero (the one of the last operand need not be), and it was the integer if it
equals zero. What is no number is told only if true. -/
theorem boolOp_by_zero (E : Environment) (n : Nat) (c : ContextId) (pos : Position)
    (op : BoolOperator) (e : Expr) (es : List Expr) (w w' : World) :
    (∀ v, ((Interp.upTo (n + 1)).node c (.boolOp pos op (e :: es)) w).Finishes E (.ok v) w' ↔
      ∃ passed u, Decided E (Interp.upTo n) c (stopsByZero op) (e :: es) w passed u w' ∧
        v = u.orZero w'.store) ∧
    (∀ passed u, Decided E (Interp.upTo n) c (stopsByZero op) (e :: es) w passed u w' →
      (Decided E (Interp.upTo n) c (stopsByTruth op) (e :: es) w passed u w' ∧
        u.orZero w'.store = u ↔
        (∀ p ∈ passed, p.2.ToldByZero p.1.store) ∧
          (passed.length < es.length → u.ToldByZero w'.store) ∧
          (u.isZero w'.store = true → u = .int 0))) ∧
    ∀ s : Store, (∀ k, (Value.int k).ToldByZero s) ∧ (∀ b, (Value.bool b).ToldByZero s) ∧
      ∀ v : Value, v.num? = none → (v.ToldByZero s ↔ v.truth s = true) := by
  refine ⟨fun v ↦ Interp.finishes_boolOp_iff pos e es, fun passed u h ↦ ?_, fun s ↦ ⟨fun k ↦ ?_,
    fun b ↦ ?_, fun v hv ↦ ?_⟩⟩
  · rw [h.byTruth_iff, Value.orZero_eq_self_iff, and_assoc, List.length_cons,
      Nat.add_lt_add_iff_right]
  · rw [Value.ToldByZero, Value.isZero_int, Value.truth, bne, Bool.not_not]
  · rw [Value.ToldByZero, Value.isZero_bool, Value.truth]
  · rw [Value.ToldByZero, Value.isZero_of_num?_none s hv]
    cases v.truth s <;> simp

/-- `None or 5` is nothing: the first operand is false, and the second is not evaluated. -/
theorem none_or_five_is_none :
    let operands : List Expr := [.constant ⟨1, 0⟩ .none none, .constant ⟨1, 8⟩ (.int 5) none]
    ((Interp.upTo 2).node 0 (.boolOp ⟨1, 0⟩ .or operands) (knowing [] 0)).Finishes quiet (.ok .none)
        (knowing [] 0) ∧
      ∀ passed v w', Decided quiet (Interp.upTo 1) 0 (stopsByTruth .or) operands (knowing [] 0)
        passed v w' → v = .int 5 := by
  refine ⟨.ended _ _, fun passed v w' h ↦ ?_⟩
  cases h with
  | here he hv =>
    obtain ⟨⟨⟩, -⟩ := Step.finishes_ended.1 he
    exact absurd (hv.resolve_left (List.cons_ne_nil _ _)) Bool.false_ne_true
  | later he _ h =>
    obtain ⟨-, rfl⟩ := Step.finishes_ended.1 he
    cases h with
    | here he _ =>
      obtain ⟨⟨⟩, -⟩ := Step.finishes_ended.1 he
      rfl
    | later _ _ h => cases h

end TriggerScript
