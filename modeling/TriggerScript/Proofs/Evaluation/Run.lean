import TriggerScript.Proofs.Evaluation.Restored
import TriggerScript.Proofs.Evaluation.Locals

/-!
# What a run executes

A run with a trace finishes (`Runs.finishes`), and whatever evaluation finishes has a trace
(`tracing`, which is a discipline).
-/

namespace TriggerScript

open Syntax (Position Stmt)

/-- Tables, contexts and functions stay as they are while an activity waits. -/
structure World.Quiet (w w' : World) : Prop where
  tables : w'.tables = w.tables
  contexts : w'.contexts = w.contexts
  functions : w'.store.functions = w.store.functions
  log : w.log.toList <+: w'.log.toList

/-- Others leave tables, contexts and functions alone. -/
def quiet : Environment := fun _ w _ w' ↦ w.Quiet w'

/-! ### Runs -/

/-- What a run executes: the body of a function, the script of a context. -/
inductive Executed where
  | function (f : Ref)
  | script (stmts : List Stmt)

open Activity Interp

/-- The activity, at its site, goes from one world to another and ends with a result. On its way it
executes the listed bodies and scripts, in this order. -/
inductive Runs : Site → {α : Type} → Activity α → World → List Executed → Except Stop α → World →
    Prop
  | prompt {p : Site} {α : Type} {x : Activity α} {w w' : World} {r : Except Stop α}
      (hend : x w = .ended r w') (hact : Act .whole p w w') : Runs p x w [] r w'
  | paused {p : Site} {α : Type} {x : Activity α} {w w' : World} {r : Except Stop α}
      {request : Request} {resume : Reply → World → Step α} (reply : Reply)
      (hwait : x w = .waiting request w resume) (hquiet : w.Quiet w')
      (hend : resume reply w' = .ended r w') : Runs p x w [] r w'
  | bind {p : Site} {α β : Type} {x : Activity α} {f : α → Activity β} {w w₁ w' : World} {a : α}
      {es es' : List Executed} {r : Except Stop β} (hx : Runs p x w es (.ok a) w₁)
      (hf : Runs p (f a) w₁ es' r w') : Runs p (x >>= f) w (es ++ es') r w'
  | failed {p : Site} {α β : Type} {x : Activity α} {f : α → Activity β} {w w' : World} {e : Stop}
      {es : List Executed} (hx : Runs p x w es (.error e) w') : Runs p (x >>= f) w es (.error e) w'
  | attempt {p : Site} {α : Type} {x : Activity α} {w w' : World} {es : List Executed}
      {r : Except Stop α} (hx : Runs p x w es r w') : Runs p x.attempt w es (Step.caught r) w'
  | call {I : Interp} {c : ContextId} {b : Bool} {f : Ref} {t : Table} {stmts : List Stmt}
      {w w₁ w' : World} {es : List Executed} {ending outcome : Except Stop Value}
      (hbody : Runs ⟨c, true⟩ (I.body c stmts) (entered c f t w) es ending w₁)
      (hleave : (Step.ended ending w₁).bind (closing c (w.context c).function) =
        .ended outcome w') :
      Runs ⟨c, b⟩ (I.callBody c f t stmts) w (.function f :: es) outcome w'
  | script {p : Site} {I : Interp} {c : ContextId} {tree : Syntax.Module} {w w' : World}
      {es : List Executed} {r : Except Stop Value} (htree : (w.context c).tree = some tree)
      (hrun : Runs (.script c tree.body) (I.treeValue c tree) w es r w') :
      Runs p (I.runTree c) w (.script tree.body :: es) r w'

variable {α β : Type} {p : Site} {w w' : World} {es : List Executed}

theorem Runs.finishes {x : Activity α} {r : Except Stop α} (h : Runs p x w es r w') :
    (x w).Finishes quiet r w' := by
  induction h with
  | prompt hend _ =>
    rw [hend]
    exact .ended _ _
  | paused reply hwait hquiet hend =>
    rw [hwait]
    refine .resumed reply hquiet ?_
    rw [hend]
    exact .ended _ _
  | bind _ _ ihx ihf => exact ihx.bind ihf
  | failed _ ih => exact ih.failed
  | attempt _ ih => exact ih.attempt
  | @call I c b f t stmts w w₁ w' es ending outcome _ hleave ih =>
    rw [callBody_apply]
    cases ending with
    | ok v =>
      refine ih.bind ?_
      rw [show closing c (w.context c).function v w₁ = .ended outcome w' from hleave]
      exact .ended _ _
    | error e =>
      cases hleave
      exact ih.failed
  | script htree _ ih =>
    rw [runTree_of_tree _ htree]
    exact ih

/-! ### Every run of evaluation has a trace -/

def Activity.Traced (p : Site) (x : Activity α) : Prop :=
  ∀ w r w', (x w).Finishes quiet r w' → ∃ es, Runs p x w es r w'

namespace Activity

variable {x : Activity α} {c : ContextId} {I : Interp}

theorem Proper.traced (hx : Proper .whole p x) : Traced p x := by
  intro w r w' h
  obtain ⟨r₁, w₁, hend, hact⟩ := hx w
  rw [hend, Step.finishes_ended] at h
  obtain ⟨rfl, rfl⟩ := h
  exact ⟨[], .prompt hend hact⟩

theorem Pauses.traced {Q : Notify.QueueId → Prop} (hx : Pauses Q x) : Traced p x := by
  intro w r w' h
  obtain ⟨request, resume, hwait, -, hresume⟩ := hx w
  rw [hwait] at h
  obtain _ | ⟨reply, hquiet, hrest⟩ := h
  obtain ⟨r₁, hend⟩ := hresume reply _
  rw [hend, Step.finishes_ended] at hrest
  obtain ⟨rfl, rfl⟩ := hrest
  exact ⟨[], .paused reply hwait hquiet hend⟩

theorem Traced.bind {f : α → Activity β} (hx : Traced p x) (hf : ∀ a, Traced p (f a)) :
    Traced p (x >>= f) := by
  intro w r w' h
  rcases h.of_bind with ⟨a, w₁, hfirst, hsecond⟩ | ⟨e, hfirst, rfl⟩
  · obtain ⟨es, hes⟩ := hx w _ w₁ hfirst
    obtain ⟨es', hes'⟩ := hf a w₁ r w' hsecond
    exact ⟨es ++ es', .bind hes hes'⟩
  · obtain ⟨es, hes⟩ := hx w _ w' hfirst
    exact ⟨es, .failed hes⟩

theorem Traced.guarded (hx : Traced p x) (c : ContextId) (pos : Option Position) (fallback : α) :
    Traced p (guarded c pos fallback x) := by
  have hattempt : Traced p x.attempt := by
    intro w r w' h
    obtain ⟨r₁, hr, rfl⟩ := h.of_attempt
    obtain ⟨es, hes⟩ := hx w r₁ w' hr
    exact ⟨es, .attempt hes⟩
  exact hattempt.bind fun r ↦ (proper_standIn (E := .whole) trivial pos fallback r).traced

end Activity

end TriggerScript
