import TriggerScript.Evaluation.Statement
import TriggerScript.Proofs.Task.Finish
import TriggerScript.Proofs.Task.Unique

/-!
# A task that yields goes on

A call for a unique name may ask that the caller itself be stopped if the name is taken. The caller
then waits for its own end, and what comes to stop it is swallowed there. So it gets one turn later,
goes on whoever holds the name, and is the holder from then on (`unique_never_yields`). A turn can
always be had, so nothing keeps the call from returning.
-/

namespace TriggerScript

namespace World

def holder? (w : World) (name : String) : Option TaskId :=
  (w.claims.find? fun e ↦ Value.alike w.store e.1 (.text name)).map (·.2)

theorem holder?_reclaim (w : World) (name : String) (t : TaskId) :
    (w.reclaim name t).holder? name = some t := by
  have hothers : ((w.claims.filter fun e ↦ !Value.alike w.store e.1 (.text name)).find? fun e ↦
      Value.alike w.store e.1 (.text name)) = none := by
    rw [List.find?_eq_none]
    intro e he
    simpa using (List.mem_filter.1 he).2
  have hself : Value.alike w.store (.text name) (.text name) = true := by
    rw [alike_text, beq_self_eq_true]
  show ((_ ++ [(Value.text name, t)]).find? fun e ↦ Value.alike w.store e.1 (.text name)).map _ = _
  rw [List.find?_append, hothers]
  simp [hself]

theorem reclaim_of_holder?_none {w : World} {name : String} (h : w.holder? name = none)
    (t : TaskId) : { w with claims := w.claims ++ [(.text name, t)] } = w.reclaim name t := by
  have hfilter : w.claims.filter (fun e ↦ !Value.alike w.store e.1 (.text name)) = w.claims := by
    rw [List.filter_eq_self]
    intro e he
    simpa using List.find?_eq_none.1 (Option.map_eq_none_iff.1 h) e he
  rw [reclaim, hfilter]

theorem isSome_answer?_turn (w : World) (t : TaskId) : (w.answer? t .turn).isSome = true := by
  unfold answer?
  split <;> rfl

end World

theorem claim_yielding_of_some {w : World} {name : String} {u : TaskId}
    (h : w.holder? name = some u) :
    ∃ resume, Activity.claim (.text name) true w = .waiting .turn w resume ∧
      ∀ reply w₁, resume reply w₁ = .ended (.ok ()) (w₁.reclaim name w.running) := by
  obtain ⟨e, hfind, -⟩ := Option.map_eq_some_iff.1 h
  have hstop : Activity.stopTask w.running w = (Activity.yieldTurn w).settle := by
    show (if w.running = w.running then _ else _ : Activity Unit) w = _
    rw [if_pos rfl]
    rfl
  have hclaim : Activity.claim (.text name) true w = (Activity.stopTask w.running w).bind fun _ w₁ ↦
      .ended (.ok ()) (w₁.reclaim name w.running) := by
    rw [Activity.claim, look_bind_apply, hfind]
    rfl
  rw [hclaim, hstop]
  refine ⟨_, rfl, fun reply w₁ ↦ ?_⟩
  cases reply <;> rfl

/-- The call asks that the caller be stopped if the name is taken. -/
structure Arguments.Yields (a : Arguments) (name : String) (w : World) : Prop where
  check : HostFunction.unique.signature.check a = .ok ()
  name : HostFunction.unique.signature.argument? a "name" = some (.text name)
  yields : ∃ v, HostFunction.unique.signature.argument? a "kill_me" = some v ∧
    v.truth w.store = true

theorem callHost_yielding {I : Interp} {a : Arguments} {name : String} {w : World}
    (h : a.Yields name w) :
    I.callHost .unique a w = (Activity.claim (.text name) true w).bind fun _ ↦
      Activity.result .none := by
  obtain ⟨hcheck, hname, v, hv, htrue⟩ := h
  show (Activity.lift (HostFunction.unique.signature.check a) w).bind _ = _
  rw [hcheck]
  show (Activity.claim ((HostFunction.unique.signature.argument? a "name").getD .none)
    (((HostFunction.unique.signature.argument? a "kill_me").getD .none).truth w.store) w).bind _ = _
  rw [hname, hv, Option.getD_some, Option.getD_some, htrue]
  rfl

theorem callHost_yielding_of_none {I : Interp} {a : Arguments} {name : String} {w : World}
    (h : a.Yields name w) (hholder : w.holder? name = none) :
    I.callHost .unique a w = .ended (.ok .none) (w.reclaim name w.running) := by
  rw [callHost_yielding h, claim_of_find?_none true (Option.map_eq_none_iff.1 hholder),
    World.reclaim_of_holder?_none hholder]
  rfl

theorem callHost_yielding_of_some {I : Interp} {a : Arguments} {name : String} {w : World}
    (h : a.Yields name w) {u : TaskId} (hholder : w.holder? name = some u) :
    ∃ resume, I.callHost .unique a w = .waiting .turn w resume ∧
      ∀ reply w₁, resume reply w₁ = .ended (.ok .none) (w₁.reclaim name w.running) := by
  obtain ⟨resume, hclaim, hresume⟩ := claim_yielding_of_some hholder
  rw [callHost_yielding h, hclaim]
  refine ⟨_, rfl, fun reply w₁ ↦ ?_⟩
  show (resume reply w₁).bind _ = _
  rw [hresume]
  rfl

/-- **A call that asks to yield always returns, and its task holds the name**, at once if nobody
holds it. Otherwise the caller gets a turn and goes on, whoever holds the name, and even if the
caller is asked to stop. Nothing is done to any task, and a turn can always be had. -/
theorem unique_never_yields {I : Interp} {E : Environment} {a : Arguments} {name : String}
    {w : World} (h : a.Yields name w) :
    (∀ r w', (I.callHost .unique a w).Finishes E r w' ↔ r = .ok .none ∧
      (w.holder? name = none ∧ w' = w.reclaim name w.running ∨
        (∃ u, w.holder? name = some u) ∧
          ∃ reply w₁, E .turn w reply w₁ ∧ w' = w₁.reclaim name w.running)) ∧
    ∀ w₁ : World, (w₁.reclaim name w.running).holder? name = some w.running ∧
      (w₁.reclaim name w.running).tasks = w₁.tasks ∧ ∀ t, (w₁.answer? t .turn).isSome = true := by
  refine ⟨fun r w' ↦ ?_, fun w₁ ↦ ⟨w₁.holder?_reclaim name _, rfl, w₁.isSome_answer?_turn⟩⟩
  cases hholder : w.holder? name with
  | none =>
    rw [callHost_yielding_of_none h hholder, Step.finishes_ended]
    simp [eq_comm]
  | some u =>
    obtain ⟨resume, hcall, hresume⟩ := callHost_yielding_of_some (I := I) h hholder
    rw [hcall]
    constructor
    · rintro (_ | ⟨reply, hreply, hrest⟩)
      rw [hresume, Step.finishes_ended] at hrest
      exact ⟨hrest.1.symm, .inr ⟨⟨u, rfl⟩, reply, _, hreply, hrest.2.symm⟩⟩
    · rintro ⟨rfl, ⟨hnone, -⟩ | ⟨-, reply, w₁, hreply, rfl⟩⟩
      · cases hnone
      · refine .resumed reply hreply ?_
        rw [hresume]
        exact .ended _ _

def heldName : World :=
  { start := default
    tables := #[{}]
    contexts := #[{ name := "test", globals := 0, current := 0, locals := 0 }]
    tasks := #[{ job := .setup }, { job := .setup }]
    claims := [(.text "n", 0)]
    running := 1 }

/-- The second task returns from its call as the holder of the name. -/
theorem unique_never_yields_held :
    Arguments.Yields ⟨[.text "n"], [("kill_me", .bool true)]⟩ "n" heldName ∧
      (Interp.full.callHost .unique ⟨[.text "n"], [("kill_me", .bool true)]⟩ heldName).Finishes
        scheduled (.ok .none) (heldName.reclaim "n" 1) := by
  have hyields : Arguments.Yields ⟨[.text "n"], [("kill_me", .bool true)]⟩ "n" heldName :=
    ⟨rfl, rfl, .bool true, rfl, rfl⟩
  refine ⟨hyields, ((unique_never_yields hyields).1 _ _).2
    ⟨rfl, .inr ⟨⟨0, by decide⟩, .go, heldName, ?_, rfl⟩⟩⟩
  exact ⟨1, heldName, heldName, Nat.le_refl _, rfl, rfl⟩

open Syntax in
def yieldAndBind : List Stmt :=
  [.expr ⟨1, 0⟩ (.call ⟨1, 0⟩ (.member ⟨1, 0⟩ (.name ⟨1, 0⟩ "task" .load) "unique" .load)
      [.constant ⟨1, 12⟩ (.text "n") none]
      [.keyword (some "kill_me") (.constant ⟨1, 25⟩ (.bool true) none)]),
    .assign ⟨2, 0⟩ [.name ⟨2, 0⟩ "y" .store] (.constant ⟨2, 4⟩ (.int 1) none)]

/-- The second task executes its next statement, though the first has not ended. -/
theorem caller_goes_on_beside_holder :
    ∃ r w', ((Interp.upTo 5).sequence 0 (.value .none) yieldAndBind heldName).Finishes
        (Step.undisturbed 1) r w' ∧
      heldName.holder? "n" = some 0 ∧ w'.isPending 0 = true ∧ w'.isPending 1 = true ∧
      (w'.table 0).contains (some "y") = true := by
  obtain ⟨⟨r, w'⟩, hreplay, hw'⟩ := Option.map_eq_some_iff.1 (show
    (((Interp.upTo 5).sequence 0 (.value .none) yieldAndBind heldName).replay 1 [0]).map (fun p ↦
      (p.2.isPending 0, p.2.isPending 1, (p.2.table 0).contains (some "y"))) = some (true, true,
        true) by
        decide +kernel)
  simp only [Prod.mk.injEq] at hw'
  exact ⟨r, w', Step.finishes_of_replay hreplay, by decide, hw'⟩

end TriggerScript
