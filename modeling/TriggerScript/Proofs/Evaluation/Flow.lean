import TriggerScript.Proofs.Evaluation.Run

/-!
# What statements come to

A `break` or `continue` passes through conditions and through nothing else. An answer passes through
conditions and loops, and it carries what an expression came to. Everything else comes to a value.
Execution comes to nothing else (`execute_yields`), so a loop comes to nothing or to an answer
(`Yields.of_isLoop`).
-/

namespace TriggerScript

open Syntax (Position Expr Stmt)

/-! ### What an activity may result in -/

namespace Activity

variable {E : Environment} {α β : Type} {P Q : α → Prop}

/-- If `x` ends well, `P` holds of its result. -/
def Gives (E : Environment) (P : α → Prop) (x : Activity α) : Prop :=
  ∀ w a w', (x w).Finishes E (.ok a) w' → P a

theorem gives_result {a : α} (h : P a) : (result a).Gives E P := by
  intro w b w' hrun
  obtain ⟨hb, -⟩ := Step.finishes_ended.1 hrun
  obtain rfl := Except.ok.inj hb
  exact h

theorem gives_true (x : Activity α) : x.Gives E fun _ ↦ True := fun _ _ _ _ ↦ trivial

theorem gives_raise (f : Fault) : (raise f : Activity α).Gives E P := by
  intro w a w' hrun
  obtain ⟨h, -⟩ := Step.finishes_ended.1 hrun
  cases h

theorem gives_outOfFuel : (outOfFuel : Activity α).Gives E P := by
  intro w a w' hrun
  obtain ⟨h, -⟩ := Step.finishes_ended.1 hrun
  cases h

variable {x : Activity α} {f : α → Activity β}

theorem Gives.mono (h : x.Gives E P) (hPQ : ∀ a, P a → Q a) : x.Gives E Q :=
  fun w a w' hrun ↦ hPQ a (h w a w' hrun)

theorem Gives.bind {P : β → Prop} (hx : x.Gives E Q) (hf : ∀ a, Q a → (f a).Gives E P) :
    (x >>= f).Gives E P := by
  intro w b w' hrun
  obtain ⟨a, w₁, hfirst, hsecond⟩ := hrun.of_bind_ok
  exact hf a (hx w a w₁ hfirst) w₁ b w' hsecond

theorem Gives.after {P : β → Prop} (hf : ∀ a, (f a).Gives E P) : (x >>= f).Gives E P :=
  (gives_true x).bind fun a _ ↦ hf a

theorem Gives.attempt (hx : x.Gives E P) : x.attempt.Gives E fun outcome ↦ ∀ a, outcome = .ok a →
    P a := by
  intro w outcome w' hrun a ha
  obtain ⟨r, hr, hcaught⟩ := hrun.of_attempt
  subst ha
  rcases r with (_ | _ | _) | b
  · cases hcaught
  · cases hcaught
  · cases hcaught
  · obtain rfl : a = b := Except.ok.inj (Except.ok.inj hcaught)
    exact hx w a w' hr

theorem Gives.guarded {c : ContextId} {pos : Option Position} {fallback : α} (hx : x.Gives E P)
    (hfallback : P fallback) : (guarded c pos fallback x).Gives E P := by
  refine hx.attempt.bind fun outcome houtcome ↦ ?_
  rcases outcome with f | a
  · rcases standIn_error c pos fallback f with ⟨why, -, hstand⟩ | hstand
    · rw [hstand]
      exact gives_raise _
    · rw [hstand]
      exact Gives.after fun _ ↦ gives_result hfallback
  · exact gives_result (houtcome a rfl)

end Activity

/-! ### What statements come to -/

def ValueOf (E : Environment) (c : ContextId) (e : Expr) (v : Value) : Prop :=
  ∃ n w w', ((Interp.upTo n).evaluate c e w).Finishes E (.ok v) w'

/-- What the statement may come to, by its syntax. -/
inductive Yields (E : Environment) (c : ContextId) : Stmt → Flow → Prop
  | nothing (s : Stmt) : Yields E c s (.value .none)
  | value {e : Expr} {v : Value} (pos : Position) (h : ValueOf E c e v) :
      Yields E c (.expr pos e) (.value v)
  | answer {e : Expr} {v : Value} (pos : Position) (h : ValueOf E c e v) :
      Yields E c (.ret pos (some e)) (.answer v)
  | bareAnswer (pos : Position) : Yields E c (.ret pos none) (.answer .none)
  | exit (pos : Position) : Yields E c (.breakLoop pos) .exit
  | next (pos : Position) : Yields E c (.continueLoop pos) .next
  | cond {pos : Position} {test : Expr} {stmts orelse : List Stmt} {s : Stmt} {flow : Flow}
      (hs : s ∈ stmts ∨ s ∈ orelse) (h : Yields E c s flow) :
        Yields E c (.cond pos test stmts orelse) flow
  | forLoop {pos : Position} {target iter : Expr} {stmts orelse : List Stmt} {s : Stmt} {v : Value}
      (hs : s ∈ stmts ∨ s ∈ orelse) (h : Yields E c s (.answer v)) :
      Yields E c (.forLoop pos false target iter stmts orelse) (.answer v)
  | whileLoop {pos : Position} {test : Expr} {stmts orelse : List Stmt} {s : Stmt} {v : Value}
      (hs : s ∈ stmts ∨ s ∈ orelse) (h : Yields E c s (.answer v)) :
      Yields E c (.whileLoop pos test stmts orelse) (.answer v)

namespace Interp

open Activity

variable {E : Environment} {I : Interp} {c : ContextId}

/-- One of the statements comes to `flow`. -/
def Among (E : Environment) (c : ContextId) (stmts : List Stmt) (flow : Flow) : Prop :=
  ∃ s ∈ stmts, Yields E c s flow

theorem Among.mono {stmts stmts' : List Stmt} {flow : Flow} (h : Among E c stmts flow)
    (hsub : stmts ⊆ stmts') : Among E c stmts' flow := by
  obtain ⟨s, hs, hyields⟩ := h
  exact ⟨s, hsub hs, hyields⟩

/-- A loop of statements in `P` comes to nothing or to an answer that one of them comes to. -/
def OfLoop (E : Environment) (c : ContextId) (P : Stmt → Prop) (flow : Flow) : Prop :=
  flow = .value .none ∨ ∃ v, flow = .answer v ∧ ∃ s, P s ∧ Yields E c s (.answer v)

section

variable (hI : ∀ s, (I.execute c s).Gives E (Yields E c s))

include hI

theorem gives_sequence (last : Flow) (stmts : List Stmt) :
    (I.sequence c last stmts).Gives E fun flow ↦ flow = last ∨ Among E c stmts flow := by
  induction stmts generalizing last with
  | nil => exact gives_result (.inl rfl)
  | cons s rest ih =>
    refine (hI s).bind fun flow hflow ↦ ?_
    have hhere : Among E c (s :: rest) flow := ⟨s, by simp, hflow⟩
    split
    · exact gives_result (.inr hhere)
    · refine (ih flow).mono fun flow' h ↦ .inr ?_
      rcases h with rfl | h
      · exact hhere
      · exact h.mono (List.subset_cons_self s rest)

theorem gives_otherwise {P : Stmt → Prop} (stmts : List Stmt) (hP : ∀ s ∈ stmts, P s) :
    (otherwise I c stmts).Gives E (OfLoop E c P) := by
  induction stmts with
  | nil => exact gives_result (.inl rfl)
  | cons s rest ih =>
    have hrest := ih fun s hs ↦ hP s (List.mem_cons_of_mem _ hs)
    refine (hI s).bind fun flow hflow ↦ ?_
    rcases flow with v | _ | _ | v
    · exact hrest
    · exact hrest
    · exact hrest
    · exact gives_result (.inr ⟨v, rfl, s, hP s List.mem_cons_self, hflow⟩)

theorem gives_finishLoop {last : Flow} {stmts : List Stmt} (orelse : List Stmt)
    (hlast : ∀ v, last = .answer v → Among E c stmts (.answer v)) :
    (finishLoop I c last orelse).Gives E (OfLoop E c fun s ↦ s ∈ stmts ∨ s ∈ orelse) := by
  have hrest := gives_otherwise hI (P := fun s ↦ s ∈ stmts ∨ s ∈ orelse) orelse fun _ ↦ .inr
  rcases last with v | _ | _ | v
  · exact hrest
  · exact gives_result (.inl rfl)
  · exact hrest
  · obtain ⟨s, hs, h⟩ := hlast v rfl
    exact gives_result (.inr ⟨v, rfl, s, .inl hs, h⟩)

theorem gives_forRounds (target : Key) (stmts : List Stmt) (r : Ref) (n : Nat) (last : LastRound)
    (hlast : ∀ v, last = some (.answer v) → Among E c stmts (.answer v)) :
    (forRounds I c target stmts r n last).Gives E fun last ↦
      ∀ v, last = some (.answer v) → Among E c stmts (.answer v) := by
  induction n generalizing last with
  | zero => exact gives_outOfFuel
  | succ n ih =>
    refine Gives.after fun element ↦ ?_
    rcases element with _ | element
    · exact gives_result hlast
    refine Gives.after fun _ ↦ (gives_sequence hI (.value .none) stmts).bind fun flow hflow ↦ ?_
    have hround : ∀ v, some flow = some (.answer v) → Among E c stmts (.answer v) := by
      rintro v ⟨rfl⟩
      exact hflow.resolve_left Flow.noConfusion
    rcases flow with v | _ | _ | v
    · exact ih _ hround
    · exact gives_result hround
    · exact ih _ hround
    · exact gives_result hround

theorem gives_whileRounds (test : Expr) (stmts : List Stmt) (n : Nat) :
    (whileRounds I c test stmts n).Gives E fun last ↦
      ∀ v, last = .answer v → Among E c stmts (.answer v) := by
  induction n with
  | zero => exact gives_outOfFuel
  | succ n ih =>
    refine Gives.after fun v ↦ Gives.after fun store ↦ ?_
    split
    · refine (gives_sequence hI (.value .none) stmts).bind fun flow hflow ↦ ?_
      have hround : ∀ v, flow = .answer v → Among E c stmts (.answer v) := by
        rintro v rfl
        exact hflow.resolve_left Flow.noConfusion
      rcases flow with v | _ | _ | v
      · exact ih
      · exact gives_result hround
      · exact ih
      · exact gives_result hround
    · refine gives_result ?_
      rintro v ⟨⟩

theorem gives_statementNode (hvalue : ∀ e, (I.evaluate c e).Gives E (ValueOf E c e)) (s : Stmt) :
    (I.statementNode c s).Gives E (Yields E c s) := by
  have hdone : ∀ s : Stmt, (result (Flow.value .none)).Gives E (Yields E c s) := fun s ↦
    gives_result (.nothing s)
  have hrefused : ∀ s : Stmt, (unsupported c s.nodeName : Activity Flow).Gives E (Yields E c s) :=
    fun s ↦ Gives.after fun _ ↦ gives_raise _
  cases s with
  | functionDef pos isAsync name params stmts decs returns =>
    cases isAsync with
    | false => exact Gives.after fun _ ↦ hdone _
    | true => exact hrefused _
  | ret pos value =>
    cases value with
    | none => exact Gives.after fun _ ↦ gives_result (.bareAnswer pos)
    | some e => exact (hvalue e).bind fun v hv ↦ gives_result (.answer pos hv)
  | delete pos targets => exact Gives.after fun _ ↦ hdone _
  | assign pos targets value => exact Gives.after fun _ ↦ Gives.after fun _ ↦ hdone _
  | augAssign pos target operator value => exact Gives.after fun _ ↦ hdone _
  | forLoop pos isAsync target iter stmts orelse =>
    cases isAsync with
    | true => exact hrefused _
    | false =>
      refine Gives.after fun key ↦ Gives.after fun v ↦ Gives.after fun r ↦
        (gives_forRounds hI _ stmts r _ none (by rintro v ⟨⟩)).bind fun last hlast ↦ ?_
      rcases last with _ | last
      · exact gives_raise _
      · refine (gives_finishLoop hI orelse fun v hv ↦ hlast v (by rw [hv])).mono fun flow h ↦ ?_
        rcases h with rfl | ⟨v, rfl, s, hs, h⟩
        · exact .nothing _
        · exact .forLoop hs h
  | whileLoop pos test stmts orelse =>
    refine (gives_whileRounds hI test stmts _).bind fun last hlast ↦ ?_
    refine (gives_finishLoop hI orelse hlast).mono fun flow h ↦ ?_
    rcases h with rfl | ⟨v, rfl, s, hs, h⟩
    · exact .nothing _
    · exact .whileLoop hs h
  | cond pos test stmts orelse =>
    refine Gives.after fun v ↦ Gives.after fun store ↦ ?_
    refine (gives_sequence hI (.value .none) _).mono fun flow h ↦ ?_
    rcases h with rfl | ⟨s, hs, h⟩
    · exact .nothing _
    · split at hs
      · exact .cond (.inl hs) h
      · exact .cond (.inr hs) h
  | importNames pos names => exact Gives.after fun _ ↦ hdone _
  | importFrom pos module names level => exact Gives.after fun _ ↦ hdone _
  | globalNames pos names => exact Gives.after fun _ ↦ hdone _
  | nonlocalNames pos names => exact Gives.after fun _ ↦ hdone _
  | expr pos e => exact (hvalue e).bind fun v hv ↦ gives_result (.value pos hv)
  | pass pos => exact hdone _
  | breakLoop pos => exact gives_result (.exit pos)
  | continueLoop pos => exact gives_result (.next pos)
  | _ => exact hrefused _

end

theorem execute_yields (E : Environment) (c : ContextId) (n : Nat) (s : Stmt) :
    ((upTo n).execute c s).Gives E (Yields E c s) := by
  induction n generalizing s with
  | zero => exact Gives.guarded gives_outOfFuel (.nothing s)
  | succ n ih =>
    have hvalue : ∀ e, ((upTo n).evaluate c e).Gives E (ValueOf E c e) :=
      fun e w v w' hrun ↦ ⟨n, w, w', hrun⟩
    exact Gives.guarded (gives_statementNode ih hvalue s) (.nothing s)

end Interp

def Syntax.Stmt.isLoop : Stmt → Bool
  | .forLoop .. => true
  | .whileLoop .. => true
  | _ => false

namespace Yields

variable {E : Environment} {c : ContextId} {s : Stmt} {flow : Flow}

theorem of_isLoop (h : Yields E c s flow) (hloop : s.isLoop = true) :
    flow = .value .none ∨ ∃ v, flow = .answer v := by
  cases h with
  | nothing _ => exact .inl rfl
  | forLoop _ _ => exact .inr ⟨_, rfl⟩
  | whileLoop _ _ => exact .inr ⟨_, rfl⟩
  | _ => cases hloop

end Yields

end TriggerScript
