import TriggerScript.Proofs.Evaluation.Scope
import TriggerScript.Proofs.Task.Finish

/-!
# Scopes that are restored

When a node has run to its end, the context is back in the scope in which it began, whatever errors
were met, with two exceptions (`scope_restored_unless_told`). A node lets an error out exactly if
its own evaluation failed with a missing key that cannot be put into words, and a body that an error
leaves stays on the stack for good. And at the limit of depth nothing is restored. Others may change
the world meanwhile, but not the scope of the context (`scopeSparing`).
-/

namespace TriggerScript

open Syntax (Position Expr Stmt Operator Access)

/-- Whatever others do meanwhile, the scope of `d` stays as it is. -/
def scopeSparing (d : ContextId) : Environment := fun _ w _ w' ↦ Kept d [] w w'

namespace Step

variable {d : ContextId} {α : Type} {s : Step α} {r : Except Stop α} {w w₀ : World}

theorem Keeps.settled (h : s.Keeps d w₀) (hrun : s.Finishes (scopeSparing d) r w) :
    Settled d (Excused r) w₀ w := by
  induction hrun with
  | ended r w => exact h
  | resumed reply hkept _ ih => exact ih (h.2 reply _ hkept)

theorem Restores.settled (h : s.Restores d w₀) (hrun : s.Finishes (scopeSparing d) r w) :
    Settled d (r = .error .cancelled ∨ r = .error .outOfFuel) w₀ w := by
  induction hrun with
  | ended r w => exact h
  | resumed reply hkept _ ih => exact ih (h.2 reply _ hkept)

end Step

/-! ### Nodes -/

open Activity Interp Number

/-- The activities around which errors are recorded. -/
inductive Node (I : Interp) (c : ContextId) : {α : Type} → Activity α → Prop
  | checked (e : Expr) : Node I c (do defined (← I.node c e))
  | unchecked (e : Expr) : Node I c (I.node c e)
  | statement (s : Stmt) : Node I c (I.statement c s)
  | module (stmts : List Stmt) : Node I c (I.sequence c (.value .none) stmts)
  | index (e : Expr) : Node I c (I.evaluate c e)
  | target (name : Value) : Node I c (targetNode c name)
  | operation (name : Value) (operator : Operator) (value : Expr) :
    Node I c (do defined (← I.binary c "Name" (targetValue c name) operator value))
  | nothing : Node I c (unsupported c "NoneType" : Activity Unit)

variable {α : Type} {c : ContextId} {I : Interp} {k n : Nat} {r : Ref} {w w' : World}

theorem Node.obeys {D : Discipline} (h : D.Obeyed I) {x : Activity α} (hx : Node I c x) :
    D.Obeys ⟨c, true⟩ x := by
  cases hx with
  | checked e => exact D.bind (h.node c e) fun v ↦ D.defined v
  | unchecked e => exact h.node c e
  | statement s => exact h.statement c s
  | module stmts => exact h.sequence c _ stmts
  | index e => exact h.evaluate c e
  | target name => exact Regime.Obeyed.targetNode c name
  | operation name operator value =>
    exact D.bind (h.binary c _ (Regime.Obeyed.targetValue c name) operator value) fun v ↦
      D.defined v
  | nothing => exact Regime.Obeyed.unsupported c _

theorem finishes_guarded_raised_iff {pos : Option Position} {fallback : α} {x : Activity α}
    {f : Fault} : (guarded c pos fallback x w).Finishes (scopeSparing c) (.error (.raised f)) w' ↔
      ∃ why, f = .unworded why ∧ (x w).Finishes (scopeSparing c)
        (.error (.raised (.unshownKey why))) w' := by
  constructor
  · intro h
    rcases h.of_bind with ⟨outcome, w₁, hfirst, hsecond⟩ | ⟨e, hfirst, he⟩
    · obtain ⟨r, hr, hcaught⟩ := hfirst.of_attempt
      match r, hcaught with
      | .ok a, hcaught =>
        cases hcaught
        nomatch hsecond
      | .error (.raised g), hcaught =>
        cases hcaught
        rcases standIn_error c pos fallback g with ⟨why, rfl, hstand⟩ | hstand
        · rw [hstand] at hsecond
          cases hsecond
          exact ⟨why, rfl, hr⟩
        · rw [hstand] at hsecond
          nomatch hsecond
    · obtain ⟨r, -, hcaught⟩ := hfirst.of_attempt
      cases he
      rcases r with (g | _ | _) | a <;> nomatch hcaught
  · rintro ⟨why, rfl, h⟩
    exact h.attempt.bind (.ended _ _)

theorem callBody_restores_iff {t : Table} {stmts : List Stmt} {S : Scope}
    {outcome : Except Stop Value} (hbody : Keeps c (I.body c stmts)) (hS : w.scope? c = some S)
    (hrun : (I.callBody c r t stmts w).Finishes (scopeSparing c) outcome w') :
    ∃ ending w₁, (I.body c stmts (entered c r t w)).Finishes (scopeSparing c) ending w₁ ∧
      (w'.scope? c = w.scope? c ↔
        (∃ v, ending = .ok v) ∧ w₁.scope? c = (entered c r t w).scope? c) := by
  have hopen := kept_entered r t hS
  have hkeeps := hbody _ _ (scope?_entered r t hS)
  rw [callBody_apply] at hrun
  rcases hrun.of_bind with ⟨v, w₁, hfirst, hsecond⟩ | ⟨e, hfirst, rfl⟩
  · obtain ⟨left, hkept, -⟩ := hkeeps.settled hfirst
    obtain ⟨_, _, left', hclosing, -, hkept', hleft, -⟩ :=
      closing_apply hS (function_eq_of_scope? hS) hopen hkept v
    rw [hclosing] at hsecond
    cases hsecond
    refine ⟨_, w₁, hfirst, ?_⟩
    rw [hkept'.scope_eq_iff, hleft, hkept.scope_eq_iff]
    simp
  · obtain ⟨left, hkept, -⟩ := hkeeps.settled hfirst
    refine ⟨_, w', hfirst, ?_⟩
    rw [(hopen.trans hkept).scope_eq_iff]
    simp

/-- **Scopes are restored unless the log tells otherwise.** When the evaluation of a node has run to
its end, however often it waited, the scope is the one in which it began, or the log has come to
tell of a missing key that could not be put into words, or the evaluation was cut off at a limit
such as that of depth. In each case what lies on top of the stack that was there is new.

The first exception is met in one way: an error leaves a node exactly if the node itself failed with
such a key, and a call goes back to its caller exactly if no error left its body. -/
theorem scope_restored_unless_told (n : Nat) {c : ContextId} {α : Type} {x : Activity α}
    (hx : Node (upTo n) c x) (pos : Option Position) (fallback : α) {w w' : World}
    {S : Scope}
    {r : Except Stop α} (hS : w.scope? c = some S)
    (hrun : (guarded c pos fallback x w).Finishes (scopeSparing c) r w')
    (hcancelled : r ≠ .error .cancelled) :
    (w'.scope? c = some S ∨ w.TellsSince w' ∨ r = .error .outOfFuel) ∧
      (∃ left, Kept c left w w') ∧
      (∀ f, r = .error (.raised f) → ∃ why, f = .unworded why ∧
        (x w).Finishes (scopeSparing c) (.error (.raised (.unshownKey why))) w') ∧
      (∀ (f : Ref) (t : Table) (stmts : List Stmt) (w₁ w₂ : World) (S₁ : Scope)
        (outcome : Except Stop Value), w₁.scope? c = some S₁ →
        ((upTo n).callBody c f t stmts w₁).Finishes (scopeSparing c) outcome w₂ →
        ∃ ending w₃,
          ((upTo n).body c stmts (entered c f t w₁)).Finishes (scopeSparing c) ending
            w₃ ∧ (w₂.scope? c = w₁.scope? c ↔
              (∃ v, ending = .ok v) ∧ w₃.scope? c = (entered c f t w₁).scope? c)) := by
  have hobeyed := (keeping c).obeyed_upTo n
  have hkeeps : Keeps c x := hx.obeys hobeyed
  obtain ⟨left, hkept, htells⟩ := (hkeeps.restores c pos fallback hS).settled hrun
  refine ⟨?_, ⟨left, hkept⟩, ?_, ?_⟩
  · by_cases hleft : left = []
    · exact .inl ((hkept.scope_eq_iff.2 hleft).trans hS)
    · exact .inr ((htells hleft).imp_right fun h ↦ h.resolve_left hcancelled)
  · rintro f rfl
    exact finishes_guarded_raised_iff.1 hrun
  · intro f t stmts w₁ w₂ S₁ outcome hS₁ hcall
    exact callBody_restores_iff (hobeyed.body c stmts) hS₁ hcall

def knowing (stmts : List Stmt) (k : Nat) : World where
  start := default
  store.objects := #[.dict []]
  store.functions :=
    #[{ name := "f", params := .params [] [] none [] [] none [], body := stmts, doc := none }]
  tables := #[⟨[(some "f", .function 0), (some "d", .dict 0), (some "k", .int k)]⟩]
  contexts := #[{ name := "test", globals := 0, current := 0, locals := 0 }]

def knownCall : Expr := .call ⟨3, 0⟩ (.name ⟨3, 0⟩ "f" .load) [] []

/-- The error of a bare `return` is met inside a call and logged. -/
theorem scope_restored_unless_told_bareReturn :
    ∃ w', ((upTo 4).evaluate 0 knownCall (knowing [.ret ⟨2, 4⟩ none] 0)).Finishes
        (scopeSparing 0) (.ok .none) w' ∧
      w'.log.size = 1 ∧
        (w'.scope? 0 = some ⟨0, [], none⟩ ∨ (knowing [.ret ⟨2, 4⟩ none] 0).TellsSince w') := by
  obtain ⟨w', hrun, hlog⟩ : ∃ w', (upTo 4).evaluate 0 knownCall
      (knowing [.ret ⟨2, 4⟩ none] 0) = .ended (.ok .none) w' ∧ w'.log.size = 1 := ⟨_, rfl, rfl⟩
  have hfinishes : ((upTo 4).evaluate 0 knownCall (knowing [.ret ⟨2, 4⟩ none] 0)).Finishes
      (scopeSparing 0) (.ok .none) w' := by
    rw [hrun]
    exact .ended _ _
  have hscope :=
    (scope_restored_unless_told 4 (.checked knownCall) (some knownCall.pos) .none rfl hfinishes
      nofun).1
  exact ⟨w', hfinishes, hlog, hscope.imp_right fun h ↦ h.resolve_right nofun⟩

/-! ### A scope that is lost -/

theorem le_log2_of_tenTo_le (h : tenTo (43 * k) ≤ n) : 140 * k ≤ n.log2 := by
  have hbits : 2 ^ (140 * k) ≤ n := by
    calc 2 ^ (140 * k) = (2 ^ 140) ^ k := Nat.pow_mul 2 140 k
      _ ≤ (10 ^ 43) ^ k := Nat.pow_le_pow_left (by decide) k
      _ = 10 ^ (43 * k) := (Nat.pow_mul 10 43 k).symm
      _ ≤ n := h
  exact (Nat.le_log2 (Nat.ne_of_gt (Nat.lt_of_lt_of_le (Nat.two_pow_pos _) hbits))).2 hbits

theorem lt_length_toDigits_of_tenTo_le (hk : 0 < k) (h : tenTo k ≤ n) :
    k < (Nat.toDigits 10 n).length := by
  rw [← Nat.not_le, Nat.length_toDigits_le_iff (by decide) hk]
  exact Nat.not_lt.2 h

theorem boundedIntText_of_le (h : tenTo digitLimit ≤ n) :
    boundedIntText n = .error .digitLimit := by
  have hlimit : digitLimit = 43 * 100 := rfl
  have hlog : ¬ n.log2 < 140 * 100 := Nat.not_lt.2 (le_log2_of_tenTo_le (hlimit ▸ h))
  have hsign : ¬ (n : Int) < 0 := by simp
  have hlength : digitLimit < (intText n).length := by
    have hdigits := lt_length_toDigits_of_tenTo_le (by decide) h
    simpa [intText, natText, hsign] using hdigits
  simp only [boundedIntText, Int.natAbs_natCast, hlog, if_false, hsign, hlength, if_true]

theorem missingKey_of_le (s : Store) (h : tenTo digitLimit ≤ n) :
    missingKey s (.int n) = .unshownKey .tooManyDigits := by
  have hshown : Value.shown s (.int n) = .error .digitLimit := boundedIntText_of_le h
  rw [missingKey, hshown]

theorem run_deleteItem_empty {s : Store} (h : s.dictAt r = []) (n : Int) :
    (Op.deleteItem (.dict r) (.int n)).run.run s = (.error (missingKey s (.int n)), s) := by
  have hnone : Entries.get? s (s.dictAt r) (.int n) = none := by
    rw [h]
    rfl
  have hkey : (Value.int n).checkKey = .ok () := rfl
  simp only [Op.deleteItem, Op.store, Op.look, bind_assoc, run_get_bind, hkey, pure_bind, hnone]
  rfl

/-- Deletion of a key from an empty dictionary, when no answers of the host are at hand. -/
theorem calling_deleteItem_empty (h : w.store.dictAt r = []) (hanswers : w.store.answers = [])
    (hwanted : w.store.wanted = none) (n : Int) :
    calling (Op.deleteItem (.dict r) (.int n)) w =
      .ended (.error (.raised (missingKey w.store (.int n)))) w := by
  have hstore : { w.store with answers := [], wanted := none } = w.store := by
    rw [← hanswers, ← hwanted]
  rw [calling_of_run (s := w.store) (by rw [hstore]; exact run_deleteItem_empty h n) hwanted,
    hstore]
  rfl

namespace Interp

variable {I : Interp} {c : ContextId} {w w' : World}

variable {r : Ref} {why : Unshown}

theorem statementNode_delete_empty (pos : Position) {p p' : Position} {base : Expr} {id : String}
    {a a' : Access} {n : Int} (hshape : w.shape.wrapsIndex = true)
    (hbase : I.evaluate c base w = .ended (.ok (.dict r)) w) (hempty : w.store.dictAt r = [])
    (hanswers : w.store.answers = []) (hwanted : w.store.wanted = none)
    (hindex : I.evaluate c (.name p' id a') w = .ended (.ok (.int n)) w) :
    I.statementNode c (.delete pos [.subscript p base (.name p' id a') a]) w =
      .ended (.error (.raised (missingKey w.store (.int n)))) w := by
  have hkind : (Expr.name p' id a').subscriptName w.shape = "Index" := by
    simp [Expr.subscriptName, hshape, Expr.isDimensions]
  have hdelete : I.deleteItem c base (.name p' id a') w =
      .ended (.error (.raised (missingKey w.store (.int n)))) w := by
    show ((I.evaluate c base w).bind fun v ↦
      if (Expr.name p' id a').subscriptName w.shape == "Index" then _ else _) = _
    rw [hbase, hkind]
    show (I.evaluate c (.name p' id a') w).bind _ = _
    rw [hindex]
    exact calling_deleteItem_empty hempty hanswers hwanted n
  show ((I.deleteItem c base (.name p' id a') w).bind _).bind _ = _
  rw [hdelete]
  rfl

theorem callBody_unworded {t : Table} {s : Stmt} {rest : List Stmt}
    (h : I.statement c s (entered c r t w) = .ended (.error (.raised (.unshownKey why))) w') :
    I.callBody c r t (s :: rest) w = .ended (.error (.raised (.unworded why))) w' := by
  rw [callBody_apply]
  show (((I.statement c s (entered c r t w)).attempt.bind _).bind _).bind _ = _
  rw [h]
  rfl

theorem evaluate_unworded {e : Expr}
    (h : I.node c e w = .ended (.error (.raised (.unworded why))) w') :
    ∃ w₁, I.evaluate c e w = .ended (.ok .none) w₁ ∧ w₁.scope? c = w'.scope? c := by
  obtain ⟨place, g, hrecord, hg⟩ := recordError_apply c (some e.pos) (.unworded why) w'
  refine ⟨(w'.updateContext c g).say "eval" .error (place ++ errorText (.unworded why)), ?_,
    World.scope?_updateContext hg⟩
  show ((I.node c e w).bind _).attempt.bind _ = _
  rw [h]
  show (recordError c (some e.pos) (.unworded why) w').bind (fun _ ↦ result Value.none) = _
  rw [hrecord]
  rfl

end Interp

def deletion : Stmt :=
  .delete ⟨2, 4⟩ [.subscript ⟨2, 8⟩ (.name ⟨2, 8⟩ "d" .load) (.name ⟨2, 10⟩ "k" .load) .delete]

/-- **A key that cannot be put into words leaves the scope of the call open**, though the call ends
with a value. -/
theorem scope_left_open : ∃ w', (upTo 5).evaluate 0 knownCall
      (knowing [deletion] (tenTo digitLimit)) = .ended (.ok .none) w' ∧
    w'.scope? 0 = some ⟨1, [0], some 0⟩ ∧
    (knowing [deletion] (tenTo digitLimit)).scope? 0 = some ⟨0, [], none⟩ := by
  have hcall (k : Nat) : (upTo 5).node 0 knownCall (knowing [deletion] k) =
      (upTo 4).callBody 0 0 {} [deletion] (knowing [deletion] k) := by
    generalize [deletion] = stmts
    rfl
  have hdelete (k : Nat) : (upTo 4).statement 0 deletion
      (entered 0 0 {} (knowing [deletion] k)) =
        .ended (.error (.raised (missingKey (knowing [deletion] k).store (.int k))))
          (entered 0 0 {} (knowing [deletion] k)) :=
    statementNode_delete_empty ⟨2, 4⟩ rfl rfl rfl rfl rfl rfl
  obtain ⟨w', hrun, hscope⟩ := evaluate_unworded
    ((hcall _).trans (callBody_unworded
      ((hdelete _).trans (by rw [missingKey_of_le _ (Nat.le_refl _)]))))
  exact ⟨w', hrun, hscope, rfl⟩

end TriggerScript
