import TriggerScript.Proofs.Evaluation.ForLoop

/-!
# The `else` part of a loop

The `else` part of a loop is taken up again after a jump, and the jump is forgotten
(`otherwise_iff`). So no loop comes to a jump, and the loop around it goes on with the statement
that follows (`else_jumps_dropped`).
-/

namespace TriggerScript

open Syntax (Position Expr Stmt)

def Flow.jumps : Flow → Bool
  | .exit | .next => true
  | _ => false

/-- What a loop comes to after its `else` part came to this. -/
def Flow.leaving : Flow → Flow
  | .answer v => .answer v
  | _ => .value .none

def Syntax.Stmt.elsePart : Stmt → List Stmt
  | .forLoop _ _ _ _ _ orelse | .whileLoop _ _ _ orelse => orelse
  | _ => []

namespace Interp

open Activity

variable {E : Environment} {I : Interp} {c : ContextId} {s : Stmt} {stmts later : List Stmt}
  {flow last : Flow} {w w' : World} {n : Nat}

/-- Statements are executed in turn, up to one that jumps or answers; `rest` is what is left out. -/
inductive Stops (E : Environment) (I : Interp) (c : ContextId) :
    List Stmt → World → Flow → World → List Stmt → Prop
  | done (w : World) : Stops E I c [] w (.value .none) w []
  | here {s : Stmt} {rest : List Stmt} {w w' : World} {flow : Flow} (hflow : flow.stops = true)
      (h : (I.execute c s w).Finishes E (.ok flow) w') : Stops E I c (s :: rest) w flow w' rest
  | later {s : Stmt} {rest left : List Stmt} {w w₁ w' : World} {v : Value} {flow : Flow}
      (h : (I.execute c s w).Finishes E (.ok (.value v)) w₁)
        (hrest : Stops E I c rest w₁ flow w' left) :
      Stops E I c (s :: rest) w flow w' left

theorem stops_cons {rest left : List Stmt} : Stops E I c (s :: rest) w flow w' left ↔
    (flow.stops = true ∧ left = rest ∧ (I.execute c s w).Finishes E (.ok flow) w') ∨
      ∃ v w₁, (I.execute c s w).Finishes E (.ok (.value v)) w₁ ∧
        Stops E I c rest w₁ flow w' left := by
  constructor
  · rintro (_ | ⟨hflow, h⟩ | ⟨h, hrest⟩)
    · exact .inl ⟨hflow, rfl, h⟩
    · exact .inr ⟨_, _, h, hrest⟩
  · rintro (⟨hflow, rfl, h⟩ | ⟨v, w₁, h, hrest⟩)
    · exact .here hflow h
    · exact .later h hrest

theorem otherwise_iff : (otherwise I c stmts w).Finishes E (.ok flow) w' ↔
    ∃ stop w₁ rest, Stops E I c stmts w stop w₁ rest ∧
      if stop.jumps then (otherwise I c rest w₁).Finishes E (.ok flow) w'
        else flow = stop ∧ w' = w₁ := by
  induction stmts generalizing w with
  | nil =>
    refine ⟨fun h ↦ ?_, ?_⟩
    · cases h
      exact ⟨_, _, [], .done _, rfl, rfl⟩
    · rintro ⟨stop, w₁, rest, ⟨⟩, rfl, rfl⟩
      exact .ended _ _
  | cons s later ih =>
    constructor
    · intro h
      obtain ⟨stop, w₁, hs, h⟩ := h.of_bind_ok
      cases stop with
      | value v =>
        obtain ⟨stop, w₂, rest, hstops, hend⟩ := ih.1 h
        exact ⟨stop, w₂, rest, .later hs hstops, hend⟩
      | exit | next => exact ⟨_, w₁, later, .here rfl hs, h⟩
      | answer v =>
        cases h
        exact ⟨_, _, later, .here rfl hs, rfl, rfl⟩
    · rintro ⟨stop, w₁, rest, hstops, hend⟩
      rcases stops_cons.1 hstops with ⟨hstop, rfl, hs⟩ | ⟨v, w₂, hs, hstops⟩
      · refine hs.bind ?_
        cases stop with
        | value v => cases hstop
        | exit | next => exact hend
        | answer v =>
          obtain ⟨rfl, rfl⟩ := hend
          exact .ended _ _
      · exact hs.bind (ih.2 ⟨stop, w₁, rest, hstops, hend⟩)

theorem sequence_iff_of_stops (hflow : flow.stops = true) (last : Flow)
    (hlast : last.stops = false) :
    (I.sequence c last stmts w).Finishes E (.ok flow) w' ↔
      ∃ rest, Stops E I c stmts w flow w' rest := by
  induction stmts generalizing last w with
  | nil =>
    refine ⟨fun h ↦ ?_, ?_⟩
    · cases h
      rw [hflow] at hlast
      cases hlast
    · rintro ⟨rest, ⟨⟩⟩
      cases hflow
  | cons s later ih =>
    constructor
    · intro h
      obtain ⟨stop, w₁, hs, h⟩ := h.of_bind_ok
      cases hstop : stop.stops with
      | true =>
        rw [if_pos hstop] at h
        cases h
        exact ⟨later, .here hstop hs⟩
      | false =>
        rw [if_neg (by simp [hstop])] at h
        obtain ⟨v, rfl⟩ : ∃ v, stop = .value v := by
          cases stop <;> first | exact ⟨_, rfl⟩ | cases hstop
        obtain ⟨rest, hrest⟩ := (ih (.value v) rfl).1 h
        exact ⟨rest, .later hs hrest⟩
    · rintro ⟨rest, hstops⟩
      rcases stops_cons.1 hstops with ⟨hstop, -, hs⟩ | ⟨v, w₂, hs, hstops⟩
      · refine hs.bind ?_
        rw [if_pos hstop]
        exact .ended _ _
      · exact hs.bind ((ih (.value v) rfl).2 ⟨rest, hstops⟩)

/-- The rounds of a loop, without its `else` part. -/
def rounds (I : Interp) (c : ContextId) : Stmt → Activity Flow
  | .forLoop _ false target iter stmts _ => do
    let key := targetKey (← I.evaluate c target)
    let v ← I.evaluate c iter
    let r ← op (Op.iterate v)
    match ← forRounds I c key stmts r roundLimit none with
    | none => raise .noRound
    | some last => return last
  | .whileLoop _ test stmts _ => whileRounds I c test stmts roundLimit
  | s => unsupported c s.nodeName

theorem statementNode_of_isLoop (h : s.isLoop = true) :
    I.statementNode c s = rounds I c s >>= fun last ↦ finishLoop I c last s.elsePart := by
  cases s with
  | forLoop pos isAsync target iter stmts orelse =>
    cases isAsync with
    | true => rfl
    | false =>
      simp only [rounds, Activity.bind_assoc]
      refine congrArg (I.evaluate c target >>= ·) (funext fun key ↦ ?_)
      refine congrArg (I.evaluate c iter >>= ·) (funext fun v ↦ ?_)
      refine congrArg (op (Op.iterate v) >>= ·) (funext fun r ↦ ?_)
      refine congrArg (forRounds I c _ stmts r roundLimit none >>= ·) (funext fun last ↦ ?_)
      cases last <;> rfl
  | whileLoop pos test stmts orelse => rfl
  | _ => cases h

theorem finishLoop_iff : (finishLoop I c last stmts w).Finishes E (.ok flow) w' ↔
    if last.leaves then flow = last.leaving ∧ w' = w
      else (otherwise I c stmts w).Finishes E (.ok flow) w' := by
  cases last with
  | value v | next => exact Iff.rfl
  | exit | answer v =>
    refine Step.finishes_ended.trans ?_
    show (Except.ok _ = _ ∧ _) ↔ _
    rw [Except.ok.injEq, eq_comm, eq_comm (a := w)]
    exact Iff.rfl

theorem sequence_loop_iff (h : s.isLoop = true) :
    ((upTo n).sequence c last (s :: later) w).Finishes E (.ok flow) w' ↔
      (∃ v, flow = .answer v ∧ ((upTo n).execute c s w).Finishes E (.ok flow) w') ∨
        ∃ w₁, ((upTo n).execute c s w).Finishes E (.ok (.value .none)) w₁ ∧
          ((upTo n).sequence c (.value .none) later w₁).Finishes E (.ok flow) w' := by
  constructor
  · intro hrun
    obtain ⟨stop, w₁, hs, hrun⟩ := hrun.of_bind_ok
    rcases (execute_yields E c n s w stop w₁ hs).of_isLoop h with rfl | ⟨v, rfl⟩
    · exact .inr ⟨w₁, hs, hrun⟩
    · cases hrun
      exact .inl ⟨v, rfl, hs⟩
  · rintro (⟨v, rfl, hs⟩ | ⟨w₁, hs, hrun⟩)
    · exact hs.bind (.ended _ _)
    · exact hs.bind hrun

/-- **A jump in the `else` part of a loop is forgotten**, at every depth and whatever happens
meanwhile. The part goes on with what follows the jump. The loop comes to nothing or to an answer,
so what follows the loop is executed next. A jump that ends a round stands in the body of that loop
and in no loop inside it. -/
theorem else_jumps_dropped (E : Environment) (n : Nat) (c : ContextId) :
    (∀ stmts w flow w', (otherwise (upTo n) c stmts w).Finishes E (.ok flow) w' ↔
      ∃ stop w₁ rest, Stops E (upTo n) c stmts w stop w₁ rest ∧
        if stop.jumps then (otherwise (upTo n) c rest w₁).Finishes E (.ok flow) w'
          else flow = stop ∧ w' = w₁) ∧
    (∀ s, s.isLoop = true →
      (∀ w flow w', ((upTo (n + 1)).statement c s w).Finishes E (.ok flow) w' ↔
        ∃ last w₁, (rounds (upTo n) c s w).Finishes E (.ok last) w₁ ∧
          if last.leaves then flow = last.leaving ∧ w' = w₁
          else (otherwise (upTo n) c s.elsePart w₁).Finishes E (.ok flow) w') ∧
      ∀ last later w flow w', ((upTo n).sequence c last (s :: later) w).Finishes E (.ok flow) w' ↔
        (∃ v, flow = .answer v ∧ ((upTo n).execute c s w).Finishes E (.ok flow) w') ∨
          ∃ w₁, ((upTo n).execute c s w).Finishes E (.ok (.value .none)) w₁ ∧
            ((upTo n).sequence c (.value .none) later w₁).Finishes E (.ok flow) w') ∧
    ∀ stmts w flow w', flow.jumps = true →
      ((round (upTo n) c stmts w).Finishes E (.ok flow) w' ↔
        ∃ rest, Stops E (upTo n) c stmts w flow w' rest) ∧
      ((round (upTo n) c stmts w).Finishes E (.ok flow) w' → Among E c stmts flow) := by
  refine ⟨fun stmts w flow w' ↦ otherwise_iff, fun s hs ↦ ⟨fun w flow w' ↦ ?_, ?_⟩, ?_⟩
  · show ((upTo n).statementNode c s w).Finishes E (.ok flow) w' ↔ _
    rw [statementNode_of_isLoop hs]
    simp only [← finishLoop_iff]
    refine ⟨fun h ↦ h.of_bind_ok, ?_⟩
    rintro ⟨last, w₁, hrounds, hend⟩
    exact hrounds.bind hend
  · exact fun last later w flow w' ↦ sequence_loop_iff hs
  · intro stmts w flow w' hjumps
    have hflow : flow.stops = true := by
      cases flow <;> first | rfl | cases hjumps
    refine ⟨sequence_iff_of_stops hflow _ rfl, fun h ↦ ?_⟩
    refine (gives_sequence (execute_yields E c n) _ stmts w flow w' h).resolve_left ?_
    rintro rfl
    cases hjumps

def jumpingElse : Stmt :=
  .whileLoop ⟨2, 4⟩ (.constant ⟨2, 10⟩ (.bool false) none) [.pass ⟨2, 17⟩]
    [.breakLoop ⟨4, 8⟩, bindingY]

def nestedElse : Stmt :=
  .forLoop ⟨1, 0⟩ false (.name ⟨1, 4⟩ "x" .store)
    (.tuple ⟨1, 9⟩ [.constant ⟨1, 10⟩ (.int 5) none, .constant ⟨1, 13⟩ (.int 6) none] .load)
      [jumpingElse] []

theorem else_jumps_dropped_while :
    let E := Step.undisturbed 0
    jumpingElse.isLoop = true ∧ Flow.exit.jumps = true ∧
    (∃ flow w', ((upTo 3).sequence 0 (.value .none) [jumpingElse] (knowing [] 0)).Finishes E
      (.ok flow) w' ∧ (w'.table 0).contains (some "y") = true ∧
      ((∃ v, flow = .answer v ∧
        ((upTo 3).execute 0 jumpingElse (knowing [] 0)).Finishes E (.ok flow) w') ∨
        ∃ w₁, ((upTo 3).execute 0 jumpingElse (knowing [] 0)).Finishes E (.ok (.value .none)) w₁ ∧
          ((upTo 3).sequence 0 (.value .none) [] w₁).Finishes E (.ok flow) w')) ∧
    ∃ rest, Stops E (upTo 3) 0 jumpingElse.elsePart (knowing [] 0) .exit (knowing [] 0) rest := by
  intro E
  obtain ⟨⟨r, w'⟩, hreplay, hy⟩ := Option.map_eq_some_iff.1 (show
    (((upTo 3).sequence 0 (.value .none) [jumpingElse] (knowing [] 0)).replay 0 []).map (fun p ↦
      p.1.toBool && (p.2.table 0).contains (some "y")) = some true by decide +kernel)
  obtain ⟨hr, hy⟩ := Bool.and_eq_true_iff.1 hy
  obtain ⟨-, hloop, hbody⟩ := else_jumps_dropped E 3 0
  cases r with
  | error e => cases hr
  | ok flow =>
    have hrun := Step.finishes_of_replay hreplay
    exact ⟨rfl, rfl, ⟨flow, w', hrun, hy, ((hloop jumpingElse rfl).2 _ _ _ _ _).1 hrun⟩,
      (hbody _ _ .exit _ rfl).1.1 (.ended _ _)⟩

/-- The loop around it goes on to its last element, and the statement after the `break` is
executed. -/
theorem else_break_forgotten :
    (((upTo 5).execute 0 nestedElse (knowing [] 0)).replay 0 []).map (fun p ↦
      (((p.2.table 0).get? (some "x")).bind Value.int?, (p.2.table 0).contains (some "y"))) =
        some (some 6, true) := by
  decide +kernel

end Interp

end TriggerScript
