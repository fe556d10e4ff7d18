import TriggerScript.Proofs.Evaluation.Order
import TriggerScript.Proofs.Evaluation.Reading

/-!
# Expressions without a call

Evaluation of an expression without a call ends at once. What was recorded before makes no
difference to it (`World.Akin`). But where elements of an operand are gone through, or sets are
combined with a view, a function of the host may be applied to them, and it may set a state
(`evaluate_callFree`).
-/

namespace TriggerScript

open Syntax (Position Expr)

open Activity

namespace World

variable {w w' u u' v : World} {calls : Prop}

/-- The worlds differ in the log and in what contexts remember of errors. -/
structure Akin (w w' : World) : Prop where
  still : w.Still w'
  rest : ∃ contexts log, w' = { w with contexts, log }

/-- Tables, contexts and registrations are left alone, apart from records of errors. -/
structure Spared (calls : Prop) (w u : World) : Prop where
  still : w.Still u
  rest : u = { w with
    store := u.store, contexts := u.contexts, log := u.log
    host := { w.host with states := u.host.states, notes := u.host.notes }
    tasks := u.tasks, started := u.started }
  host : ¬ calls → u.host = w.host ∧ u.tasks = w.tasks ∧ u.started = w.started ∧
    u.store.functions = w.store.functions

namespace Spared

theorem refl (w : World) : Spared calls w w := ⟨.refl w, rfl, fun _ ↦ ⟨rfl, rfl, rfl, rfl⟩⟩

theorem trans (h : Spared calls w u) (h' : Spared calls u v) : Spared calls w v := by
  refine ⟨h.still.trans h'.still, ?_, fun hcalls ↦ ?_⟩
  · rw [h'.rest, h.rest]
  · obtain ⟨hhost, htasks, hstarted, hfunctions⟩ := h.host hcalls
    obtain ⟨hhost', htasks', hstarted', hfunctions'⟩ := h'.host hcalls
    exact ⟨hhost'.trans hhost, htasks'.trans htasks, hstarted'.trans hstarted,
      hfunctions'.trans hfunctions⟩

end Spared

theorem Akin.of_spared (h : Akin w w') (hu : Spared calls w u) (hu' : Spared calls w' u')
    (hrest : ∃ contexts log, u' = { u with contexts, log }) : Akin u u' :=
  ⟨hu.still.symm.trans (h.still.trans hu'.still), hrest⟩

theorem Akin.nameValue (h : Akin w w') (c : ContextId) (name : String) :
    w'.nameValue (w'.context c) name = w.nameValue (w.context c) name := by
  obtain ⟨error, errorLong, hc⟩ := h.still.contexts c
  obtain ⟨contexts, log, rfl⟩ := h.rest
  rw [hc]
  rfl

end World

namespace Interp

variable {α : Type} {calls : Prop} {c : ContextId}

theorem tandem_modify {f : World → World} (hspared : ∀ w, World.Spared calls w (f w))
    (hrest : ∀ (w : World) contexts log, ∃ contexts' log', f { w with contexts, log } =
      { f w with contexts := contexts', log := log' }) :
    Tandem World.Akin (World.Spared calls) (modify f) (modify f) := by
  intro w w' hakin
  refine ⟨.ok (), f w, f w', rfl, rfl, hspared w, hspared w',
    hakin.of_spared (hspared w) (hspared w') ?_⟩
  obtain ⟨contexts, log, rfl⟩ := hakin.rest
  exact hrest w contexts log

theorem spared_store (calls : Prop) (w : World) (s : Store) :
    World.Spared calls w { w with store := { s with functions := w.store.functions } } :=
  ⟨.of_contexts rfl rfl, rfl, fun _ ↦ ⟨rfl, rfl, rfl, rfl⟩⟩

theorem tandem_op (x : Op α) : Tandem World.Akin (World.Spared calls) (op x) (op x) := by
  intro w w' hakin
  obtain ⟨contexts, log, rfl⟩ := hakin.rest
  unfold op
  dsimp only
  generalize x.run.run w.store = p
  obtain ⟨r, s⟩ := p
  have hafter :=
    hakin.of_spared (spared_store calls w s) (spared_store calls _ s) ⟨contexts, log, rfl⟩
  cases r <;> exact ⟨_, _, _, rfl, rfl, spared_store calls w s, spared_store calls _ s, hafter⟩

theorem spared_record (calls : Prop) (w : World) (c : ContextId) (error errorLong : Option String)
    (log : Array LogLine) :
    World.Spared calls w { w.updateContext c fun ctx ↦ { ctx with error, errorLong } with log } :=
  ⟨w.still_record .., rfl, fun _ ↦ ⟨rfl, rfl, rfl, rfl⟩⟩

theorem tandem_recordError (pos pos' : Option Position) (f : Fault) :
    Tandem World.Akin (World.Spared calls) (recordError c pos f) (recordError c pos' f) := by
  intro w w' hakin
  refine ⟨.ok (), _, _, rfl, rfl, spared_record calls w .., spared_record calls w' ..,
    hakin.of_spared (spared_record calls w ..) (spared_record calls w' ..) ?_⟩
  obtain ⟨contexts, log, rfl⟩ := hakin.rest
  exact ⟨_, _, rfl⟩

theorem akin (calls : Prop) (c : ContextId) : TandemRel World.Akin (World.Spared calls) c c where
  refl := .refl
  trans := .trans
  look {_ f} h w w' hakin := by
    obtain ⟨contexts, log, rfl⟩ := hakin.rest
    exact h w w.tables contexts log
  name {w w'} hakin := by
    obtain ⟨error, errorLong, hc⟩ := hakin.still.contexts c
    rw [hc]
  op := tandem_op
  recordError pos := tandem_recordError pos pos

theorem tandem_manner (hcalls : calls) :
    Manner fun {α : Type} (x : Activity α) ↦ Tandem World.Akin (World.Spared calls) x x where
  read := (akin calls 0).read
  raise := (akin calls 0).raise
  outOfFuel := (akin calls 0).outOfFuel
  op := tandem_op
  attempt_op x := (tandem_op x).attempt
  bind hx hf := (akin calls 0).bind hx hf
  say _ _ _ :=
    tandem_modify (fun w ↦ ⟨.of_contexts rfl rfl, rfl, fun _ ↦ ⟨rfl, rfl, rfl, rfl⟩⟩) fun _ _ _ ↦
      ⟨_, _, rfl⟩
  note _ := tandem_modify (fun w ↦ ⟨.of_contexts rfl rfl, rfl, (absurd hcalls ·)⟩) fun _ _ _ ↦
    ⟨_, _, rfl⟩
  putState _ _ := tandem_modify (fun w ↦ ⟨.of_contexts rfl rfl, rfl, (absurd hcalls ·)⟩) fun _ _ _ ↦
    ⟨_, _, rfl⟩
  declare _ _ _ _ :=
    tandem_modify (fun w ↦ ⟨.of_contexts rfl rfl, rfl, (absurd hcalls ·)⟩) fun _ _ _ ↦ ⟨_, _, rfl⟩
  deliver e := by
    refine tandem_modify (fun w ↦ ?_) fun w contexts log ↦ ⟨contexts, log, ?_⟩
    · generalize w.host.listenersOf e.type = ls
      induction ls generalizing w with
      | nil => exact .refl w
      | cons l rest ih =>
        have hstart : World.Spared calls w (w.startTask .noted (.deliver l e)).2 :=
          ⟨.of_contexts rfl rfl, rfl, (absurd hcalls ·)⟩
        exact hstart.trans (ih _)
    · show (w.host.listenersOf e.type).foldl _ _ = _
      induction w.host.listenersOf e.type generalizing w with
      | nil => rfl
      | cons l rest ih => exact ih (w.startTask .noted (.deliver l e)).2

theorem tandem_calling {x : Op α} (h : calls ∨ Looks x) :
    Tandem World.Akin (World.Spared calls) (calling x) (calling x) := by
  rcases h with h | h
  · exact (tandem_manner h).calling x
  intro w w' hakin
  obtain ⟨contexts, log, rfl⟩ := hakin.rest
  have hrun (s : Store) : x.run.run s = ((x.run.run s).1, s) := Prod.ext rfl (h s)
  rw [calling_of_run (w := w) (hrun _) rfl, calling_of_run (hrun _) rfl]
  have hlook := spared_store calls w { w.store with answers := [], wanted := none }
  have hlook' :=
    spared_store calls { w with contexts, log } { w.store with answers := [], wanted := none }
  obtain ⟨r, u, u', hend, hend', hu, hu', hafter⟩ := (akin calls 0).lift
    (x.run.run { w.store with answers := [], wanted := none }).1 _ _
    (hakin.of_spared hlook hlook' ⟨contexts, log, rfl⟩)
  exact ⟨r, u, u', hend, hend', hlook.trans hu, hlook'.trans hu', hafter⟩

def Glances (calls : Prop) (e : Expr) : Prop :=
  e.CallFree ∧ (¬ calls → e.Throughout (·.iterates = false))

theorem Glances.operand {e d : Expr} (h : Glances calls e) (hd : d ∈ e.operands false) :
    Glances calls d :=
  ⟨h.1.operand (e.operands_subset hd), fun hcalls ↦ (h.2 hcalls).operand (e.operands_subset hd)⟩

variable {I : Interp}

theorem tandem_expression (hI : ∀ e, Glances calls e → Tandem World.Akin (World.Spared calls)
    (I.node c e) (I.node c e)) {e : Expr} (he : Glances calls e) :
    Tandem World.Akin (World.Spared calls) (I.expression c e) (I.expression c e) := by
  have T := akin calls c
  have hname (name : String) (access : Syntax.Access) :=
    T.nameNode (fun hakin ↦ hakin.nameValue c name) access
  have hiterates (h : e.iterates = true) : calls := by
    by_contra hcalls
    rw [((he.2 hcalls).self :)] at h
    cases h
  refine (T.walk calls tandem_calling hI).expression hiterates (fun hlooked _ ↦ ?_) fun d ↦
    he.operand
  cases e with
  | name pos id access => exact hname id access
  | member pos value attr access =>
    show Tandem _ _ (I.memberNode c _ value attr access) (I.memberNode c _ value attr access)
    unfold memberNode
    split
    · refine T.bind (hname _ access) fun v ↦ ?_
      split
      · exact T.bind (hname _ access) fun v ↦ T.memberOf _ _ _
      · exact T.result _
    · refine T.bind (T.guarded (hI value (he.operand (List.mem_singleton_self value))) _ _)
        fun v ↦ ?_
      split
      · exact hname _ access
      · exact T.bind (T.memberOf _ _ _) fun _ ↦ T.result _
  | call pos func args keywords => cases he.1.self
  | _ => cases hlooked

theorem tandem_node (calls : Prop) (c : ContextId) (n : Nat) {e : Expr} (he : Glances calls e) :
    Tandem World.Akin (World.Spared calls) ((upTo n).node c e) ((upTo n).node c e) := by
  induction n generalizing e with
  | zero => exact (akin calls c).outOfFuel
  | succ n ih => exact tandem_expression (fun _ ↦ ih) he

theorem tandem_evaluate (calls : Prop) (c : ContextId) (n : Nat) {e : Expr} (he : Glances calls e) :
    Tandem World.Akin (World.Spared calls) ((upTo n).evaluate c e) ((upTo n).evaluate c e) :=
  ((akin calls c).walk calls tandem_calling fun _ ↦ tandem_node calls c n).evaluate e
    (by simpa using he)

end Interp

end TriggerScript
