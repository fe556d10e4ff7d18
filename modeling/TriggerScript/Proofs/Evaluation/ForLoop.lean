import TriggerScript.Proofs.Evaluation.Account
import TriggerScript.Proofs.Evaluation.Flow
import TriggerScript.Proofs.Evaluation.Reading

/-!
# Going through a sequence

In each round a `for` statement takes the next element of its cursor, binds its target and executes
its body; when there is no element left it comes to its `else` part. How the last round ended is
asked for before the `else` part, so a loop without a round fails there (`for_rounds`).
-/

namespace TriggerScript

open Syntax (Position Expr Stmt)

/-! ### What is left to go through -/

def Value.items? (s : Store) : Value → Option (List Value)
  | .list r => some (s.listAt r)
  | .tuple xs => some xs
  | .text t => some (chars t)
  | .bytes bs => some (byteValues bs)
  | .byteArray r => some (byteValues (s.bytesAt r))
  | .range a b c => some (rangeItems a b c)
  | _ => Option.none

def Cursor.left? (s : Store) : Cursor → Option (List Value)
  | .over _ rest => some rest
  | .range a b c => some (rangeItems a b c)
  | .list q i => some ((s.listAt q).drop i)
  | .finished _ => some []
  | _ => none

def Store.left? (s : Store) (r : Ref) : Option (List Value) := (s.cursorAt r).left? s

theorem ediv_step {d m : Int} {k : Nat} (hm : 0 < m) (hd : 0 < d)
    (h : ((d - 1) / m + 1).toNat = k + 1) :
    (if 0 < d - m then ((d - m - 1) / m + 1).toNat else 0) = k := by
  have hstep : (d - 1) / m = (d - m - 1) / m + 1 := by
    rw [← Int.add_mul_ediv_right _ 1 (Int.ne_of_gt hm)]
    congr 1
    omega
  split
  · have hnonneg : 0 ≤ (d - m - 1) / m := Int.ediv_nonneg (by omega) (by omega)
    omega
  · have hzero : (d - 1) / m = 0 := Int.ediv_eq_zero_of_lt (by omega) (by omega)
    omega

theorem rangeLength_next {a b c : Int} {k : Nat} (h : rangeLength a b c = k + 1) :
    rangeLength (a + c) b c = k := by
  unfold rangeLength at *
  rcases Int.lt_trichotomy c 0 with hc | rfl | hc
  · rw [if_neg (by omega), if_pos hc] at *
    split at h
    · have hstep := ediv_step (d := a - b) (m := -c) (by omega) (by omega) h
      rw [show a - b - -c = a + c - b by omega] at hstep
      rw [← hstep]
      simp only [Int.sub_pos]
    · cases h
  · simp at h
  · rw [if_pos hc] at *
    split at h
    · have hstep := ediv_step (d := b - a) hc (by omega) h
      rw [Int.sub_sub b a c] at hstep
      rw [← hstep]
      simp only [Int.sub_pos]
    · cases h

theorem rangeItems_next {a b c : Int} (h : rangeLength a b c ≠ 0) :
    rangeItems a b c = .int a :: rangeItems (a + c) b c := by
  obtain ⟨k, hk⟩ := Nat.exists_eq_succ_of_ne_zero h
  rw [rangeItems, rangeItems, hk, rangeLength_next hk, List.range_succ_eq_map]
  simp only [List.map_cons, List.map_map]
  congr 1
  · simp
  · refine List.map_congr_left fun i _ ↦ ?_
    simp [Int.mul_add]
    omega

namespace Store

variable {s : Store} {r : Ref} {xs : List Value} {cur : Cursor}

theorem get?_of_cursorAt (h : s.cursorAt r = cur) (hcur : ∀ type, cur ≠ .finished type) :
    s.get? r = some (.cursor cur) := by
  unfold cursorAt at h
  split at h
  · rw [← h]
    assumption
  · exact absurd h.symm (hcur _)

theorem left?_put (h : s.get? r = some (.cursor cur)) (next : Cursor) :
    (s.put r (.cursor next)).left? r = next.left? s := by
  have hr : r < s.objects.size := (Array.getElem?_eq_some_iff.1 h).1
  have hnext : (s.put r (.cursor next)).cursorAt r = next := by simp [cursorAt, get?, put, hr]
  rw [left?, hnext]
  cases next with
  | list q i =>
    have hlist : (s.put r (.cursor (.list q i))).listAt q = s.listAt q := by
      by_cases hq : r = q
      · subst hq
        simp [listAt, h]
        simp [get?, put, hr]
      · simp [listAt, get?, put, hq]
    rw [Cursor.left?, Cursor.left?, hlist]
  | _ => rfl

theorem run_put_bind {α : Type} (h : s.get? r = some (.cursor cur)) (o : Object) (f : Unit → Op α) :
    (Op.put r o >>= f).run.run s = (f ()).run.run (s.put r o) := by
  unfold Op.put
  rw [bind_assoc, Activity.run_get_bind, h]
  rfl

theorem run_next (call : Caller) (h : s.left? r = some xs) :
    ∃ s', (Op.next call r).run.run s = (.ok xs.head?, s') ∧ s'.wanted = s.wanted ∧
      s'.left? r = some xs.tail := by
  obtain ⟨n, hlimit⟩ : ∃ n, Op.elementLimit = n + 1 := ⟨_, rfl⟩
  have hnext : (Op.next call r).run.run s = (Op.nextTo call (n + 1) r).run.run s := by
    rw [Op.next, hlimit]
  unfold Op.nextTo at hnext
  rw [Op.store, Activity.run_get_bind] at hnext
  unfold left? at h
  cases hcur : s.cursorAt r with
  | finished type =>
    rw [hcur] at h hnext
    cases h
    exact ⟨s, hnext, rfl, by rw [left?, hcur]; rfl⟩
  | «over» type rest =>
    have hget := get?_of_cursorAt hcur (by simp)
    rw [hcur] at h hnext
    cases h
    cases xs with
    | nil | cons _ _ => exact ⟨_, hnext.trans (run_put_bind hget ..), rfl, left?_put hget _⟩
  | range a b c =>
    have hget := get?_of_cursorAt hcur (by simp)
    rw [hcur] at h hnext
    cases h
    dsimp only at hnext
    by_cases hlen : rangeLength a b c = 0
    · rw [rangeItems, hlen]
      rw [hlen] at hnext
      exact ⟨_, hnext.trans (run_put_bind hget ..), rfl, left?_put hget _⟩
    · rw [rangeItems_next hlen]
      rw [if_neg (by simpa using hlen)] at hnext
      exact ⟨_, hnext.trans (run_put_bind hget ..), rfl, left?_put hget _⟩
  | list q i =>
    have hget := get?_of_cursorAt hcur (by simp)
    rw [hcur] at h hnext
    cases h
    dsimp only at hnext
    rw [List.head?_drop, List.tail_drop]
    cases hitem : (s.listAt q)[i]? with
    | none =>
      rw [hitem] at hnext
      rw [List.drop_eq_nil_of_le (Nat.le_succ_of_le (List.getElem?_eq_none_iff.1 hitem))]
      exact ⟨_, hnext.trans (run_put_bind hget ..), rfl, left?_put hget _⟩
    | some x =>
      rw [hitem] at hnext
      exact ⟨_, hnext.trans (run_put_bind hget ..), rfl, left?_put hget _⟩
  | _ =>
    rw [hcur] at h
    cases h

theorem left?_with (s : Store) (functions : Array Function) (answers : List Answer)
    (wanted : Option (HostFunction × List Value)) (r : Ref) :
    { s with functions, answers, wanted }.left? r = s.left? r := by
  show ({ s with functions, answers, wanted }.cursorAt r).left? _ = (s.cursorAt r).left? s
  have hcur : { s with functions, answers, wanted }.cursorAt r = s.cursorAt r := rfl
  rw [hcur]
  cases s.cursorAt r <;> rfl

theorem left?_push {cur : Cursor} : (s.push (.cursor cur)).left? s.objects.size = cur.left? s := by
  have hcur : (s.push (.cursor cur)).cursorAt s.objects.size = cur := by simp [cursorAt, get?, push]
  rw [left?, hcur]
  cases cur with
  | list q i =>
    have hlist : (s.push (.cursor (.list q i))).listAt q = s.listAt q := by
      by_cases hq : q = s.objects.size
      · simp [listAt, get?, push, hq]
      · simp [listAt, get?, push, Array.getElem?_push, hq]
    rw [Cursor.left?, Cursor.left?, hlist]
  | _ => rfl

end Store

theorem Value.cursor?_of_items? {s : Store} {v : Value} {xs : List Value}
    (h : v.items? s = some xs) : ∃ cur, v.cursor? s = some cur ∧ cur.left? s = some xs := by
  cases v with
  | list _ | tuple _ | text _ | bytes _ | byteArray _ | range _ _ _ => exact ⟨_, rfl, h⟩
  | _ => cases h

namespace Activity

variable {w : World} {r : Ref} {xs : List Value}

theorem op_of_run {α : Type} {x : Op α} {a : α} {s : Store} (h : x.run.run w.store = (.ok a, s)) :
    op x w = .ended (.ok a) { w with store := { s with functions := w.store.functions } } := by
  unfold op
  dsimp only
  rw [h]

theorem calling_next (h : w.store.left? r = some xs) :
    ∃ s, calling (Op.next caller r) w = .ended (.ok xs.head?) { w with store := s } ∧
      s.left? r = some xs.tail := by
  obtain ⟨s, hrun, hwanted, hleft⟩ := Store.run_next caller
    ((Store.left?_with w.store w.store.functions [] none r).trans h)
  exact ⟨_, calling_of_run hrun hwanted, (Store.left?_with ..).trans hleft⟩

theorem op_iterate {v : Value} (h : v.items? w.store = some xs) :
    ∃ s, op (Op.iterate v) w = .ended (.ok w.store.objects.size) { w with store := s } ∧
      s.left? w.store.objects.size = some xs := by
  obtain ⟨cur, hcur, hleft⟩ := Value.cursor?_of_items? h
  have hrun : (Op.iterate v).run.run w.store =
      (.ok w.store.objects.size, w.store.push (.cursor cur)) := by
    unfold Op.iterate
    split
    · cases h
    · rw [Op.store, run_get_bind, hcur]
      rfl
  exact ⟨_, op_of_run hrun, (Store.left?_with _ _ _ _ _).trans (Store.left?_push.trans hleft)⟩

end Activity

namespace World

/-- The name stands for `v`, unless a declaration sends the lookup elsewhere. -/
def Finds (w : World) (c : ContextId) (x : String) (v : Value) : Prop :=
  (w.context c).current < w.tables.size → w.isGlobal (w.context c) x = false →
    w.isNonlocal (w.context c) x = false → w.nameValue (w.context c) x = .ok v

theorem finds_bindCurrent (w : World) (c : ContextId) (x : String) (v : Value) :
    (w.bindCurrent c (some x) v).Finds c x v := by
  intro hcurrent hglobal hnonlocal
  have hlt : (w.context c).current < w.tables.size := Nat.lt_of_lt_of_eq hcurrent Array.size_modify
  have hbound : (w.bindCurrent c (some x) v).bound? ((w.bindCurrent c (some x) v).context c)
      (some x) = some v := by
    show (((w.bindCurrent c (some x) v).table (w.context c).current).get? (some x)).or _ = _
    rw [bindCurrent, bind, table_updateTable_self hlt, Table.get?_put_self]
    rfl
  rw [nameValue, if_neg (by simp [hglobal]), if_neg (by simp [hnonlocal]), hbound]

end World

/-! ### Rounds -/

def Flow.leaves : Flow → Bool
  | .exit | .answer _ => true
  | _ => false

/-- The element of a round, and the worlds around its body. -/
structure LoopRound where
  element : Value
  before : World
  after : World

namespace Interp

open Activity Step

variable {E : Environment} {I : Interp} {c : ContextId} {key : Key} {stmts : List Stmt} {r : Ref}
  {w w' : World} {rounds : List LoopRound} {flow : Flow}

/-- The rounds of a loop that nothing leaves. -/
inductive Rounds (E : Environment) (I : Interp) (c : ContextId) (key : Key) (stmts : List Stmt)
    (r : Ref) : World → List LoopRound → World → Prop
  | done {w w' : World} (h : calling (Op.next caller r) w = .ended (.ok none) w') :
      Rounds E I c key stmts r w [] w'
  | next {w w₁ w₂ w' : World} {v : Value} {flow : Flow} {rest : List LoopRound}
      (hnext : calling (Op.next caller r) w = .ended (.ok (some v)) w₁)
      (hround : (round I c stmts (w₁.bindCurrent c key v)).Finishes E (.ok flow) w₂)
      (hrest : Rounds E I c key stmts r w₂ rest w') :
      Rounds E I c key stmts r w (⟨v, w₁.bindCurrent c key v, w₂⟩ :: rest) w'

def EndedSo (before : LastRound) : List LoopRound → LastRound → Prop
  | [], last => last = before
  | _ :: _, last => ∃ flow, last = some flow ∧ flow.leaves = false

theorem forRounds_of_none {n : Nat} {last : LastRound}
    (h : calling (Op.next caller r) w = .ended (.ok none) w') :
    forRounds I c key stmts r (n + 1) last w = .ended (.ok last) w' := bind_of_ended h

theorem forRounds_of_some {n : Nat} {last : LastRound} {v : Value}
    (h : calling (Op.next caller r) w = .ended (.ok (some v)) w') :
    forRounds I c key stmts r (n + 1) last w = (round I c stmts (w'.bindCurrent c key v)).bind
      fun flow w₁ ↦
      if flow.leaves then .ended (.ok (some flow)) w₁
        else forRounds I c key stmts r n (some flow) w₁ := by
  refine (bind_of_ended h).trans
    (congrArg (bind (round I c stmts (w'.bindCurrent c key v))) (funext fun flow ↦ ?_))
  cases flow <;> rfl

section

variable (hbody : (round I c stmts).Gives E fun flow ↦ flow.leaves = false)

include hbody

theorem rounds_of_forRounds {n : Nat} {before last : LastRound}
    (h : (forRounds I c key stmts r n before w).Finishes E (.ok last) w') :
    ∃ rounds, Rounds E I c key stmts r w rounds w' ∧ rounds.length < n ∧
      EndedSo before rounds last := by
  induction n generalizing before w with
  | zero => cases h
  | succ n ih =>
    obtain ⟨next, s, hnext, -⟩ := blind.calling (Op.next caller r) w
    rcases next with e | _ | v
    · have hfailed : forRounds I c key stmts r (n + 1) before w = .ended (.error e) _ :=
        congrArg (bind · _) hnext
      rw [hfailed] at h
      cases h
    · rw [forRounds_of_none hnext] at h
      cases h
      exact ⟨[], .done hnext, Nat.succ_pos n, rfl⟩
    · rw [forRounds_of_some hnext] at h
      obtain ⟨flow, w₁, hround, hrest⟩ := h.of_bind_ok
      have hflow := hbody _ flow w₁ hround
      rw [if_neg (by simp [hflow])] at hrest
      obtain ⟨rounds, hrounds, hlen, hlast⟩ := ih hrest
      refine ⟨_, .next hnext hround hrounds, Nat.succ_lt_succ hlen, ?_⟩
      cases rounds with
      | nil => exact ⟨flow, hlast, hflow⟩
      | cons _ _ => exact hlast

theorem forRounds_of_rounds (h : Rounds E I c key stmts r w rounds w') {n : Nat}
    (hn : rounds.length < n) (before : LastRound) :
    ∃ last, (forRounds I c key stmts r n before w).Finishes E (.ok last) w' ∧
      EndedSo before rounds last := by
  induction h generalizing n before with
  | done hnext =>
    obtain ⟨n, rfl⟩ := Nat.exists_eq_add_of_lt hn
    rw [forRounds_of_none hnext]
    exact ⟨before, .ended _ _, rfl⟩
  | @next w w₁ w₂ w' v flow rest hnext hround _ ih =>
    obtain ⟨n, rfl⟩ := Nat.exists_eq_add_of_lt hn
    have hflow := hbody _ flow w₂ hround
    obtain ⟨last, hrest, hlast⟩ := ih (n := rest.length + 1 + n) (by omega) (some flow)
    refine ⟨last, ?_, ?_⟩
    · rw [forRounds_of_some hnext]
      refine hround.bind ?_
      rw [if_neg (by simp [hflow])]
      exact hrest
    · cases rest with
      | nil => exact ⟨flow, hlast, hflow⟩
      | cons _ _ => exact hlast

end

theorem Rounds.elements {xs : List Value} (h : Rounds E I c key stmts r w rounds w')
    (hleft : w.store.left? r = some xs)
    (hspared : ∀ p ∈ rounds, p.after.store.left? r = p.before.store.left? r) :
    rounds.map LoopRound.element = xs := by
  induction h generalizing xs with
  | done hnext =>
    obtain ⟨s, hnext', -⟩ := calling_next hleft
    obtain ⟨hhead, -⟩ := ended.inj (hnext.symm.trans hnext')
    rw [List.head?_eq_none_iff.1 (Except.ok.inj hhead).symm, List.map_nil]
  | @next w w₁ w₂ w' v flow rest hnext _ _ ih =>
    obtain ⟨s, hnext', hrest⟩ := calling_next hleft
    obtain ⟨hhead, rfl⟩ := ended.inj (hnext.symm.trans hnext')
    obtain ⟨tail, rfl⟩ := List.head?_eq_some_iff.1 (Except.ok.inj hhead).symm
    have hafter : w₂.store.left? r = some tail := (hspared _ (List.mem_cons_self ..)).trans hrest
    rw [List.map_cons, ih hafter fun p hp ↦ hspared p (List.mem_cons_of_mem _ hp)]

theorem Rounds.eq_nil_iff {xs : List Value} (h : Rounds E I c key stmts r w rounds w')
    (hleft : w.store.left? r = some xs) : rounds = [] ↔ xs = [] := by
  obtain ⟨s, hnext', -⟩ := calling_next hleft
  cases h with
  | done hnext =>
    obtain ⟨hhead, -⟩ := ended.inj (hnext.symm.trans hnext')
    exact iff_of_true rfl (List.head?_eq_none_iff.1 (Except.ok.inj hhead).symm)
  | next hnext _ _ =>
    obtain ⟨hhead, -⟩ := ended.inj (hnext.symm.trans hnext')
    obtain ⟨tail, rfl⟩ := List.head?_eq_some_iff.1 (Except.ok.inj hhead).symm
    simp

theorem Rounds.nameValue {x : String} (h : Rounds E I c (some x) stmts r w rounds w') :
    ∀ p ∈ rounds, p.before.Finds c x p.element := by
  induction h with
  | done _ => simp
  | @next w w₁ w₂ w' v flow rest _ _ _ ih =>
    rintro p (_ | ⟨_, hp⟩)
    · exact World.finds_bindCurrent w₁ c x v
    · exact ih p hp

/-- A loop goes through the elements of `v` in these rounds. -/
def GoesThrough (E : Environment) (I : Interp) (c : ContextId) (x : String) (stmts : List Stmt)
    (v : Value) (w : World) (rounds : List LoopRound) (w' : World) : Prop :=
  ∃ r w₁, op (Op.iterate v) w = .ended (.ok r) w₁ ∧ Rounds E I c (some x) stmts r w₁ rounds w' ∧
    rounds.length < roundLimit ∧
    ((∀ p ∈ rounds, p.after.store.left? r = p.before.store.left? r) →
      v.items? w.store = some (rounds.map LoopRound.element))

section

variable {x : String} {v : Value} {xs : List Value} (hxs : v.items? w.store = some xs)

include hxs

theorem GoesThrough.eq_nil_iff (h : GoesThrough E I c x stmts v w rounds w') :
    rounds = [] ↔ xs = [] := by
  obtain ⟨r, w₁, hcursor, hrounds, -⟩ := h
  obtain ⟨s, hcursor', hleft⟩ := op_iterate hxs
  cases hcursor.symm.trans hcursor'
  exact hrounds.eq_nil_iff hleft

theorem goesThrough_of_forRounds (hbody : (round I c stmts).Gives E fun flow ↦ flow.leaves = false)
    {last : LastRound} {w₁ : World} (hcursor : op (Op.iterate v) w = .ended (.ok r) w₁)
    (hfor : (forRounds I c (some x) stmts r roundLimit none w₁).Finishes E (.ok last) w') :
    ∃ rounds, GoesThrough E I c x stmts v w rounds w' ∧ EndedSo none rounds last := by
  obtain ⟨s, hcursor', hleft⟩ := op_iterate hxs
  cases hcursor.symm.trans hcursor'
  obtain ⟨rounds, hrounds, hlen, hlast⟩ := rounds_of_forRounds hbody hfor
  refine ⟨rounds, ⟨_, _, hcursor, hrounds, hlen, fun hspared ↦ ?_⟩, hlast⟩
  rw [hxs, hrounds.elements hleft hspared]

end

theorem statement_for {n : Nat} (pos p : Position) (x : String) (iter : Expr)
    (stmts orelse : List Stmt) (w : World) :
    (upTo (n + 2)).statement c (.forLoop pos false (.name p x .store) iter stmts orelse) w =
      ((upTo (n + 1)).evaluate c iter w).bind fun v w₁ ↦ (op (Op.iterate v) w₁).bind fun r w₂ ↦
        (forRounds (upTo (n + 1)) c (some x) stmts r roundLimit none w₂).bind fun last w₃ ↦
          last.elim (.ended (.error (.raised .noRound)) w₃) fun flow ↦
            finishLoop (upTo (n + 1)) c flow orelse w₃ := by
  refine congrArg (bind ((upTo (n + 1)).evaluate c iter w)) (funext fun v ↦ funext fun w₁ ↦ ?_)
  refine congrArg (bind (op (Op.iterate v) w₁)) (funext fun r ↦ funext fun w₂ ↦ ?_)
  refine congrArg (bind (forRounds (upTo (n + 1)) c (some x) stmts r roundLimit none w₂))
    (funext fun last ↦ ?_)
  cases last <;> rfl

theorem finishLoop_of_leaves (h : flow.leaves = false) (orelse : List Stmt) :
    finishLoop I c flow orelse = otherwise I c orelse := by
  cases flow with
  | value _ | next => rfl
  | exit | answer _ => cases h

theorem execute_for_empty {n : Nat} {pos p : Position} {x : String} {iter : Expr}
    {orelse : List Stmt} {v : Value} {w₁ : World}
    (hv : ((upTo (n + 1)).evaluate c iter w).Finishes E (.ok v) w₁)
    (hempty : v.items? w₁.store = some []) :
    ∃ w₂, GoesThrough E (upTo (n + 1)) c x stmts v w₁ [] w₂ ∧
      ((upTo (n + 2)).execute c (.forLoop pos false (.name p x .store) iter stmts orelse)
        w).Finishes E (.ok (.value .none)) (w₂.recording c (some pos) .noRound) := by
  obtain ⟨s, hcursor, hleft⟩ := op_iterate hempty
  obtain ⟨s', hnext, -⟩ := calling_next (w := { w₁ with store := s }) hleft
  refine ⟨_, ⟨_, _, hcursor, .done hnext, Nat.succ_pos _, fun _ ↦ hempty⟩, ?_⟩
  refine finishes_of_deals (.recorded (f := .noRound) (by rintro why ⟨⟩) _) ?_
  rw [statement_for]
  refine hv.bind ?_
  obtain ⟨k, hlimit⟩ : ∃ k, roundLimit = k + 1 := ⟨_, rfl⟩
  rw [hcursor, hlimit]
  show ((forRounds (upTo (n + 1)) c (some x) stmts _ (k + 1) none _).bind _).Finishes E _ _
  rw [forRounds_of_none hnext]
  exact .ended _ _

/-- **A loop over a sequence that its body does not leave.** If the sequence has elements, the
rounds are followed by the `else` part. If it has none the statement fails and the `else` part is
not executed. -/
theorem for_rounds {n : Nat} {pos p : Position} {x : String} {iter : Expr} {orelse : List Stmt}
    (hbody : (round (upTo (n + 1)) c stmts).Gives E fun flow ↦ flow.leaves = false)
    (hiter : ∀ v w₁, ((upTo (n + 1)).evaluate c iter w).Finishes E (.ok v) w₁ →
      (v.items? w₁.store).isSome) :
    (∀ flow w', ((upTo (n + 2)).statement c
        (.forLoop pos false (.name p x .store) iter stmts orelse) w).Finishes E (.ok flow) w' ↔
      ∃ v w₁ rounds w₂, ((upTo (n + 1)).evaluate c iter w).Finishes E (.ok v) w₁ ∧
        GoesThrough E (upTo (n + 1)) c x stmts v w₁ rounds w₂ ∧ v.items? w₁.store ≠ some [] ∧
          (otherwise (upTo (n + 1)) c orelse w₂).Finishes E (.ok flow) w') ∧
    (∀ v w₁, ((upTo (n + 1)).evaluate c iter w).Finishes E (.ok v) w₁ →
      v.items? w₁.store = some [] → ∃ w₂, GoesThrough E (upTo (n + 1)) c x stmts v w₁ [] w₂ ∧
        ((upTo (n + 2)).execute c (.forLoop pos false (.name p x .store) iter stmts orelse)
          w).Finishes E (.ok (.value .none)) (w₂.recording c (some pos) .noRound)) ∧
    ∀ v w₁ rounds w₂, GoesThrough E (upTo (n + 1)) c x stmts v w₁ rounds w₂ →
      ∀ p ∈ rounds, p.before.Finds c x p.element := by
  refine ⟨fun flow w' ↦ ⟨fun h ↦ ?_, ?_⟩, fun v w₁ hv hempty ↦ ?_, ?_⟩
  · rw [statement_for] at h
    obtain ⟨v, w₁, hv, h⟩ := h.of_bind_ok
    obtain ⟨xs, hxs⟩ := Option.isSome_iff_exists.1 (hiter v w₁ hv)
    obtain ⟨s, hcursor, -⟩ := op_iterate hxs
    obtain ⟨r, w₂, hop, h⟩ := h.of_bind_ok
    rw [hcursor] at hop
    cases hop
    obtain ⟨last, w₂, hfor, h⟩ := h.of_bind_ok
    obtain ⟨rounds, hthrough, hlast⟩ := goesThrough_of_forRounds hxs hbody hcursor hfor
    cases rounds with
    | nil =>
      cases hlast
      cases h
    | cons round rest =>
      obtain ⟨flow, rfl, hflow⟩ := hlast
      refine ⟨v, w₁, _, w₂, hv, hthrough, ?_, ?_⟩
      · rw [hxs]
        rintro ⟨rfl⟩
        exact absurd ((GoesThrough.eq_nil_iff hxs hthrough).2 rfl) (List.cons_ne_nil round rest)
      · rwa [← finishLoop_of_leaves hflow]
  · rintro ⟨v, w₁, rounds, w₂, hv, hthrough, hne, helse⟩
    obtain ⟨xs, hxs⟩ := Option.isSome_iff_exists.1 (hiter v w₁ hv)
    have hrounds : rounds ≠ [] :=
      fun hnil ↦ hne (by rw [hxs, (GoesThrough.eq_nil_iff hxs hthrough).1 hnil])
    obtain ⟨r, w₃, hcursor, hpassed, hlen, -⟩ := hthrough
    obtain ⟨last, hfor, hlast⟩ := forRounds_of_rounds hbody hpassed hlen none
    have hop : (op (Op.iterate v) w₁).Finishes E (.ok r) w₃ := by
      rw [hcursor]
      exact .ended _ _
    rw [statement_for]
    refine hv.bind (hop.bind (hfor.bind ?_))
    cases rounds with
    | nil => exact absurd rfl hrounds
    | cons round rest =>
      obtain ⟨flow, rfl, hflow⟩ := hlast
      show (finishLoop (upTo (n + 1)) c flow orelse w₂).Finishes E _ _
      rwa [finishLoop_of_leaves hflow]
  · exact execute_for_empty hv hempty
  · rintro v w₁ rounds w₂ ⟨r, w₃, -, hrounds, -⟩
    exact hrounds.nameValue

def bindingY : Stmt := .assign ⟨3, 4⟩ [.name ⟨3, 4⟩ "y" .store] (.constant ⟨3, 8⟩ (.int 1) none)

def loopOver (items : List Expr) : Stmt :=
  .forLoop ⟨1, 0⟩ false (.name ⟨1, 4⟩ "x" .store) (.tuple ⟨1, 9⟩ items .load) [.pass ⟨1, 17⟩]
    [bindingY]

theorem for_rounds_pair :
    let items : List Expr := [.constant ⟨1, 10⟩ (.int 5) none, .constant ⟨1, 13⟩ (.int 6) none]
    let E := undisturbed 0
    (round (upTo 2) 0 [.pass ⟨1, 17⟩]).Gives E (fun flow ↦ flow.leaves = false) ∧
    ∃ flow w', ((upTo 3).statement 0 (loopOver items) (knowing [] 0)).Finishes E (.ok flow) w' ∧
      (w'.table 0).contains (some "y") = true ∧
      ∃ v w₁ rounds w₂, ((upTo 2).evaluate 0 (.tuple ⟨1, 9⟩ items .load) (knowing [] 0)).Finishes E
        (.ok v) w₁ ∧
        GoesThrough E (upTo 2) 0 "x" [.pass ⟨1, 17⟩] v w₁ rounds w₂ ∧ v.items? w₁.store ≠ some [] ∧
          (otherwise (upTo 2) 0 [bindingY] w₂).Finishes E (.ok flow) w' := by
  intro items E
  have hbody : (round (upTo 2) 0 [.pass ⟨1, 17⟩]).Gives E fun flow ↦ flow.leaves = false := by
    intro w flow w' h
    obtain ⟨⟨⟩, -⟩ := finishes_ended.1 h
    rfl
  obtain ⟨⟨r, w'⟩, hreplay, hy⟩ := Option.map_eq_some_iff.1 (show
    (((upTo 3).statement 0 (loopOver items) (knowing [] 0)).replay 0 []).map (fun p ↦
      p.1.toBool && (p.2.table 0).contains (some "y")) = some true by decide +kernel)
  obtain ⟨hr, hy⟩ := Bool.and_eq_true_iff.1 hy
  cases r with
  | error e => cases hr
  | ok flow =>
    have hrun := finishes_of_replay hreplay
    refine ⟨hbody, flow, w', hrun, hy, ((for_rounds hbody fun v w₁ h ↦ ?_).1 flow w').1 hrun⟩
    obtain ⟨⟨⟩, -⟩ := finishes_ended.1 h
    rfl

/-- A loop over nothing fails, and its `else` part is not executed. -/
theorem for_empty_fails : ∃ w', (upTo 3).execute 0 (loopOver []) (knowing [] 0) =
      .ended (.ok (.value .none)) w' ∧
    (w'.table 0).contains (some "y") = false ∧ w'.log.size = 1 ∧
    (w'.context 0).error.isSome = true :=
  ⟨_, rfl, rfl, rfl, rfl⟩

end Interp

end TriggerScript
