import TriggerScript.Proofs.Evaluation.Run

/-!
# Accounts of errors

Evaluation goes on after an error. The node at which it was met **records** it: the log gets a line,
the context remembers the text, and something empty stands in for the result. Only a missing key
that cannot be put into words is **passed on** to the node around it.

* A run finishes exactly if it has an account (`meets_iff_finishes`).
* An account explains the log and what the context remembers (`Meets.explained`).
* An error that was passed on is answered for by the next record (`Meets.answered_or`).
-/

namespace TriggerScript

open Syntax (Position Expr Stmt)

/-! ### Recording an error -/

namespace World

def errorPlaceAt (w : World) (c : ContextId) (pos : Option Position) : String :=
  Activity.errorPlace ((w.functionOf? (w.context c)).map (·.name)) (w.context c).file pos

def errorLine (w : World) (c : ContextId) (pos : Option Position) (f : Fault) : String :=
  w.errorPlaceAt c pos ++ Activity.errorText f

def recording (w : World) (c : ContextId) (pos : Option Position) (f : Fault) : World :=
  (w.updateContext c fun ctx ↦
    { ctx with
      error := some (w.errorLine c pos f)
      errorLong := some (w.errorPlaceAt c pos ++ Activity.errorTextLong f) }).say
    "eval" .error (w.errorLine c pos f)

theorem context_updateContext_of_lt {w : World} {c d : ContextId} (hd : d < w.contexts.size)
    (f : Context → Context) :
    (w.updateContext c f).context d = if c = d then f (w.context d) else w.context d := by
  have hctx : w.contexts[d]? = some w.contexts[d] := Array.getElem?_eq_getElem hd
  simp only [World.context, World.updateContext, Array.getElem?_modify, hctx]
  split <;> rfl

end World

theorem Activity.recordError_eq (c : ContextId) (pos : Option Position) (f : Fault) (w : World) :
    recordError c pos f w = .ended (.ok ()) (w.recording c pos f) := rfl

/-! ### What a node does about an error -/

/-- What an account lists: a line of the log, an error that a node recorded, one that it passed on.
-/
inductive Incident where
  | said (line : LogLine)
  | recorded (c : ContextId) (pos : Option Position) (f : Fault) (text : String)
  | passedOn (c : ContextId) (pos : Option Position) (why : Unshown)

namespace Incident

def line? : Incident → Option LogLine
  | said line => some line
  | recorded _ _ _ text => some ⟨"eval", .error, text⟩
  | passedOn _ _ _ => none

/-- The text that is recorded in the context `d`. -/
def text? (d : ContextId) : Incident → Option String
  | recorded c _ _ text => if c = d then some text else none
  | _ => none

end Incident

variable {α β : Type}

/-- What a node makes of the way in which its own evaluation ended. -/
inductive Deals (c : ContextId) (pos : Option Position) {α : Type} (fallback : α) :
    Except Stop α → World → List Incident → Except Stop α → World → Prop
  | well (a : α) (w : World) : Deals c pos fallback (.ok a) w [] (.ok a) w
  | recorded {f : Fault} (hf : ∀ why, f ≠ .unshownKey why) (w : World) :
    Deals c pos fallback (.error (.raised f)) w [.recorded c pos f (w.errorLine c pos f)]
      (.ok fallback) (w.recording c pos f)
  | passedOn (why : Unshown) (w : World) :
    Deals c pos fallback (.error (.raised (.unshownKey why))) w [.passedOn c pos why]
      (.error (.raised (.unworded why))) w
  | stopped {e : Stop} (he : ∀ f, e ≠ .raised f) (w : World) :
    Deals c pos fallback (.error e) w [] (.error e) w

namespace Activity

variable {c : ContextId} {pos : Option Position} {fallback : α} {x : Activity α} {E : Environment}
  {r r₁ : Except Stop α} {w w₁ w' : World} {V : List Incident}

theorem standIn_eq_of_ne {f : Fault} (hf : ∀ why, f ≠ .unshownKey why) :
    standIn c pos fallback (.error f) = (do recordError c pos f; return fallback) := by
  grind [standIn_error]

theorem finishes_of_deals (h : Deals c pos fallback r₁ w₁ V r w') (hx : (x w).Finishes E r₁ w₁) :
    (guarded c pos fallback x w).Finishes E r w' := by
  have hattempt := hx.attempt
  show ((x w).attempt.bind (standIn c pos fallback)).Finishes E r w'
  rcases h with _ | @⟨f, hf, _⟩ | _ | @⟨e, he, _⟩
  · exact hattempt.bind (.ended _ _)
  · refine hattempt.bind ?_
    rw [standIn_eq_of_ne hf]
    show ((recordError c pos f w₁).bind fun _ ↦ result fallback).Finishes E _ _
    rw [recordError_eq]
    exact .ended _ _
  · exact hattempt.bind (.ended _ _)
  · rcases e with f | _ | _
    · exact absurd rfl (he f)
    · exact hattempt.failed
    · exact hattempt.failed

theorem deals_of_finishes (h : (guarded c pos fallback x w).Finishes E r w') :
    ∃ r₁ w₁ V, (x w).Finishes E r₁ w₁ ∧ Deals c pos fallback r₁ w₁ V r w' := by
  have h : ((x w).attempt.bind (standIn c pos fallback)).Finishes E r w' := h
  rcases h.of_bind with ⟨outcome, w₁, hfirst, hsecond⟩ | ⟨e, hfirst, rfl⟩
  · obtain ⟨r₁, hx, hcaught⟩ := hfirst.of_attempt
    rcases r₁ with (f | _ | _) | a <;> cases hcaught
    · -- an error was caught
      by_cases hf : ∃ why, f = .unshownKey why
      · obtain ⟨why, rfl⟩ := hf
        obtain ⟨rfl, rfl⟩ := Step.finishes_ended.1 hsecond
        exact ⟨_, _, _, hx, .passedOn why _⟩
      · have hne : ∀ why, f ≠ .unshownKey why := fun why heq ↦ hf ⟨why, heq⟩
        rw [standIn_eq_of_ne hne] at hsecond
        obtain ⟨rfl, rfl⟩ := Step.finishes_ended.1 hsecond
        exact ⟨_, _, _, hx, .recorded hne _⟩
    · obtain ⟨rfl, rfl⟩ := Step.finishes_ended.1 hsecond
      exact ⟨_, _, _, hx, .well a _⟩
  · obtain ⟨r₁, hx, hcaught⟩ := hfirst.of_attempt
    rcases r₁ with (f | _ | _) | a <;> cases hcaught
    · exact ⟨_, _, _, hx, .stopped (fun f heq ↦ by cases heq) _⟩
    · exact ⟨_, _, _, hx, .stopped (fun f heq ↦ by cases heq) _⟩

/-- `y` does `x` and deals with the error `x` ends in, if any. -/
def Guards (c : ContextId) (pos : Option Position) (fallback : α) (x y : Activity α) : Prop :=
  ∀ (E : Environment) (w : World) (r : Except Stop α) (w' : World), (y w).Finishes E r w' ↔
    ∃ r₁ w₁ V, (x w).Finishes E r₁ w₁ ∧ Deals c pos fallback r₁ w₁ V r w'

theorem guards_guarded (c : ContextId) (pos : Option Position) (fallback : α) (x : Activity α) :
    Guards c pos fallback x (guarded c pos fallback x) := by
  intro E w r w'
  constructor
  · exact deals_of_finishes
  · grind [finishes_of_deals]

end Activity

/-! ### What an account explains -/

/-- The account `V` tells what was added to the log, and which error `d` remembers. -/
structure World.Explained (d : ContextId) (V : List Incident) (w w' : World) : Prop where
  size : w.contexts.size ≤ w'.contexts.size
  log : w'.log.toList = w.log.toList ++ V.filterMap Incident.line?
  error : (w'.context d).error = (V.filterMap (Incident.text? d)).getLast?.or (w.context d).error

namespace World.Explained

variable {d : ContextId} {V V' : List Incident} {w w₁ w' : World}

theorem lt_size (h : w.Explained d V w') (hd : d < w.contexts.size) : d < w'.contexts.size :=
  Nat.lt_of_lt_of_le hd h.size

theorem trans (h : w.Explained d V w₁) (h' : w₁.Explained d V' w') :
    w.Explained d (V ++ V') w' where
  size := Nat.le_trans h.size h'.size
  log := by rw [h'.log, h.log, List.filterMap_append, List.append_assoc]
  error := by rw [h'.error, h.error, List.filterMap_append, List.getLast?_append, Option.or_assoc]

theorem of_eq (hcontexts : w'.contexts = w.contexts) (hlog : w'.log = w.log) :
    w.Explained d [] w' := by
  refine ⟨Nat.le_of_eq (by rw [hcontexts]), by rw [hlog]; exact (List.append_nil _).symm, ?_⟩
  rw [World.context, World.context, hcontexts]
  rfl

theorem refl (w : World) : w.Explained d [] w := .of_eq rfl rfl

variable {c : ContextId}

theorem updateContext (w : World) {f : Context → Context}
    (hf : c = d → ∀ ctx, (f ctx).error = ctx.error) : w.Explained d [] (w.updateContext c f) := by
  refine ⟨Nat.le_of_eq Array.size_modify.symm, (List.append_nil _).symm, ?_⟩
  show _ = (w.context d).error
  rcases w.context_updateContext c f d with h | ⟨rfl, h⟩ <;> rw [h]
  exact hf rfl _

theorem say (w : World) (logger : String) (level : Level) (text : String) :
    w.Explained d [.said ⟨logger, level, text⟩] (w.say logger level text) :=
  ⟨Nat.le_refl _, Array.toList_push .., rfl⟩

theorem recording {pos : Option Position} {f : Fault} (hd : d < w.contexts.size) :
    w.Explained d [.recorded c pos f (w.errorLine c pos f)] (w.recording c pos f) := by
  refine ⟨Nat.le_of_eq Array.size_modify.symm, Array.toList_push .., ?_⟩
  show ((w.updateContext c _).context d).error = _
  rw [context_updateContext_of_lt hd]
  simp only [List.filterMap_cons, Incident.text?]
  split <;> rfl

theorem passedOn (c : ContextId) (pos : Option Position) (why : Unshown) (w : World) :
    w.Explained d [.passedOn c pos why] w :=
  ⟨Nat.le_refl _, (List.append_nil _).symm, rfl⟩

end World.Explained

variable {w w' : World}

theorem Act.explained {E : Owned} {p : Site} {d : ContextId} (h : Act E p w w')
    (hE : ¬ E.contexts d) (hd : d < w.contexts.size) :
    ∃ ls : List LogLine, w.Explained d (ls.map .said) w' := by
  induction h with
  | refl w => exact ⟨[], .refl w⟩
  | trans _ _ ih₁ ih₂ =>
    obtain ⟨ls, h₁⟩ := ih₁ hd
    obtain ⟨ls', h₂⟩ := ih₂ (h₁.lt_size hd)
    refine ⟨ls ++ ls', ?_⟩
    rw [List.map_append]
    exact h₁.trans h₂
  | context w c name =>
    -- the new context has a number of its own
    refine ⟨[], ?_, (List.append_nil _).symm, ?_⟩
    · exact Nat.le_trans (Nat.le_succ _) (Nat.le_of_eq (Array.size_push _).symm)
    · show _ = (w.context d).error
      simp [World.context, World.addContext, World.addTable, Array.getElem?_push, Nat.ne_of_lt hd]
  | install w _ t =>
    have hadd : w.Explained d [] (w.addTable t).2 := .of_eq rfl rfl
    exact ⟨[], hadd.trans (.updateContext _ fun _ _ ↦ rfl)⟩
  | remember w hc f _ => exact ⟨[], .updateContext w fun heq ↦ absurd hc (heq ▸ hE)⟩
  | say w logger level text => exact ⟨[⟨logger, level, text⟩], .say w logger level text⟩
  | _ => exact ⟨[], .of_eq rfl rfl⟩

/-! ### Accounts -/

/-- After each error that was passed on comes the record of it. -/
inductive Answered : List Incident → Prop
  | nil : Answered []
  | said (line : LogLine) {V : List Incident} (h : Answered V) : Answered (.said line :: V)
  | recorded (c : ContextId) (pos : Option Position) (f : Fault) (text : String) {V : List Incident}
      (h : Answered V) : Answered (.recorded c pos f text :: V)
  | passedOn (c c' : ContextId) (pos pos' : Option Position) (why : Unshown) (text : String)
      {V : List Incident} (h : Answered V) :
      Answered (.passedOn c pos why :: .recorded c' pos' (.unworded why) text :: V)

namespace Answered

theorem map_said (ls : List LogLine) : Answered (ls.map .said) := by
  induction ls with
  | nil => exact .nil
  | cons line rest ih => exact .said line ih

theorem append {V V' : List Incident} (h : Answered V) (h' : Answered V') : Answered (V ++ V') := by
  induction h with
  | nil => exact h'
  | said line _ ih => exact .said line ih
  | recorded c pos f text _ ih => exact .recorded c pos f text ih
  | passedOn c c' pos pos' why text _ ih => exact .passedOn c c' pos pos' why text ih

end Answered

/-- Whatever others add is explained by incidents of theirs. -/
def remembering (d : ContextId) : Environment := fun _ w _ w' ↦ ∃ V, Answered V ∧ w.Explained d V w'

def Activity.Bystander (d : ContextId) (x : Activity α) : Prop :=
  ∀ w, d < w.contexts.size →
    ∃ r w', x w = .ended r w' ∧ ∃ ls : List LogLine, w.Explained d (ls.map .said) w'

/-- The run of `x` from `w` to `w'` has the account `V` in the context `d`, and ends in `r`. -/
inductive Meets (d : ContextId) :
    {α : Type} → Activity α → World → List Incident → Except Stop α → World → Prop
  | prompt {α : Type} {x : Activity α} {w w' : World} {r : Except Stop α} {ls : List LogLine}
      (hx : x.Bystander d) (hend : x w = .ended r w') (hsaid : w.Explained d (ls.map .said) w') :
      Meets d x w (ls.map .said) r w'
  | paused {α : Type} {x : Activity α} {w w' : World} {r : Except Stop α} {V : List Incident}
      {request : Request} {resume : Reply → World → Step α} (reply : Reply)
      (hwait : x w = .waiting request w resume) (hV : Answered V) (hothers : w.Explained d V w')
      (hend : resume reply w' = .ended r w') : Meets d x w V r w'
  | bind {α β : Type} {x : Activity α} {f : α → Activity β} {w w₁ w' : World} {a : α}
      {V V' : List Incident} {r : Except Stop β} (hx : Meets d x w V (.ok a) w₁)
      (hf : Meets d (f a) w₁ V' r w') : Meets d (x >>= f) w (V ++ V') r w'
  | failed {α β : Type} {x : Activity α} {f : α → Activity β} {w w' : World} {e : Stop}
      {V : List Incident} (hx : Meets d x w V (.error e) w') : Meets d (x >>= f) w V (.error e) w'
  | guarded {α : Type} {x : Activity α} {c : ContextId} {pos : Option Position} {fallback : α}
      {w w₁ w' : World} {V V' : List Incident} {r₁ r : Except Stop α} (hvacant : Vacant fallback)
      (hx : Meets d x w V r₁ w₁) (hdeals : Deals c pos fallback r₁ w₁ V' r w') :
      Meets d (Activity.guarded c pos fallback x) w (V ++ V') r w'

namespace Meets

variable {d : ContextId} {x : Activity α} {w w' : World} {V : List Incident} {r : Except Stop α}

theorem finishes (h : Meets d x w V r w') : (x w).Finishes (remembering d) r w' := by
  induction h with
  | prompt _ hend _ =>
    rw [hend]
    exact .ended _ _
  | paused reply hwait hV hothers hend =>
    rw [hwait]
    refine .resumed reply ⟨_, hV, hothers⟩ ?_
    rw [hend]
    exact .ended _ _
  | bind _ _ ihx ihf => exact ihx.bind ihf
  | failed _ ih => exact ih.failed
  | guarded _ _ hdeals ih => exact Activity.finishes_of_deals hdeals ih

theorem explained (h : Meets d x w V r w') (hd : d < w.contexts.size) : w.Explained d V w' := by
  induction h with
  | prompt _ _ hsaid => exact hsaid
  | paused _ _ _ hothers _ => exact hothers
  | bind _ _ ihx ihf => exact (ihx hd).trans (ihf ((ihx hd).lt_size hd))
  | failed _ ih => exact ih hd
  | guarded _ _ hdeals ih =>
    refine (ih hd).trans ?_
    cases hdeals with
    | recorded hf w => exact .recording ((ih hd).lt_size hd)
    | passedOn why _ => exact .passedOn _ _ why _
    | well a _ => exact .refl _
    | stopped he _ => exact .refl _

theorem answered_or (h : Meets d x w V r w') : Answered V ∨
    ∃ V₀ c pos why, V = V₀ ++ [.passedOn c pos why] ∧ Answered V₀ ∧
      r = .error (.raised (.unworded why)) := by
  induction h with
  | prompt _ _ _ => exact .inl (.map_said _)
  | paused _ _ hV _ _ => exact .inl hV
  | @bind _ _ _ _ _ _ _ _ V V' _ _ _ ihx ihf => grind [Answered.append]
  | failed _ ih => grind
  | guarded _ _ hdeals ih =>
    -- what was passed on to this node is the error that it deals with now
    cases hdeals with
    | well a w => grind
    | @recorded f hf w =>
      rcases ih with h | ⟨V₀, c, pos, why, rfl, h, hr⟩
      · exact .inl (h.append (.recorded _ _ _ _ .nil))
      · cases hr
        rw [List.append_assoc]
        exact .inl (h.append (.passedOn _ _ _ _ _ _ .nil))
    | passedOn why w => grind
    | stopped he w => grind

end Meets

/-! ### Every run has an account -/

namespace Activity

def Accountable (d : ContextId) (x : Activity α) : Prop :=
  ∀ w r w', d < w.contexts.size → (x w).Finishes (remembering d) r w' → ∃ V, Meets d x w V r w'

variable {d : ContextId} {p : Site} {x : Activity α}

theorem Bystander.accountable (hx : Bystander d x) : Accountable d x := by
  intro w r w' hd h
  obtain ⟨r₁, w₁, hend, ls, hsaid⟩ := hx w hd
  obtain ⟨rfl, rfl⟩ : r₁ = r ∧ w₁ = w' := by
    rw [hend] at h
    exact Step.finishes_ended.1 h
  exact ⟨_, .prompt hx hend hsaid⟩

theorem Proper.bystander {E : Owned} (hx : Proper E p x) (hE : ¬ E.contexts d) : Bystander d x := by
  intro w hd
  obtain ⟨r, w', hend, hact⟩ := hx w
  exact ⟨r, w', hend, hact.explained hE hd⟩

theorem bystander_read (f : World → α) : Bystander d (read f) := fun w _ ↦ ⟨_, w, rfl, [], .refl w⟩

theorem Pauses.accountable {Q : Notify.QueueId → Prop} (hx : Pauses Q x) : Accountable d x := by
  intro w r w' _ h
  obtain ⟨request, resume, hwait, -, hresume⟩ := hx w
  rw [hwait] at h
  obtain _ | ⟨reply, ⟨V, hV, hothers⟩, hrest⟩ := h
  obtain ⟨r₁, hend⟩ := hresume reply _
  rw [hend] at hrest
  obtain ⟨rfl, rfl⟩ := Step.finishes_ended.1 hrest
  exact ⟨V, .paused reply hwait hV hothers hend⟩

theorem Accountable.bind {f : α → Activity β} (hx : Accountable d x)
    (hf : ∀ a, Accountable d (f a)) : Accountable d (x >>= f) := by
  intro w r w' hd h
  rcases h.of_bind with ⟨a, w₁, hfirst, hsecond⟩ | ⟨e, hfirst, rfl⟩
  · obtain ⟨V, hV⟩ := hx w _ w₁ hd hfirst
    obtain ⟨V', hV'⟩ := hf a w₁ r w' ((hV.explained hd).lt_size hd) hsecond
    exact ⟨V ++ V', hV.bind hV'⟩
  · obtain ⟨V, hV⟩ := hx w _ w' hd hfirst
    exact ⟨V, hV.failed⟩

theorem accountable_newContextBeside (c : ContextId) (name : String) {f : ContextId → Activity β}
    (hf : ∀ e, e ≠ d → Accountable d (f e)) : Accountable d (newContextBeside c name >>= f) := by
  intro w r w' hd h
  have hnew : Bystander d (newContextBeside c name) :=
    (proper_newContextBeside (E := ⟨fun _ ↦ False, fun _ ↦ False⟩) (p := default) c
      name).bystander id
  obtain ⟨V, hV⟩ := hnew.accountable w _ _ hd (.ended _ _)
  obtain ⟨V', hV'⟩ := hf w.contexts.size (Nat.ne_of_gt hd) _ r w' ((hV.explained hd).lt_size hd) h
  exact ⟨V ++ V', hV.bind hV'⟩

theorem Accountable.guarded (hx : Accountable d x) (c : ContextId) (pos : Option Position)
    {fallback : α} (hvacant : Vacant fallback) : Accountable d (guarded c pos fallback x) := by
  intro w r w' hd h
  obtain ⟨r₁, w₁, V', hrun, hdeals⟩ := deals_of_finishes h
  obtain ⟨V, hV⟩ := hx w r₁ w₁ hd hrun
  exact ⟨V ++ V', hV.guarded hvacant hdeals⟩

end Activity

namespace Interp

open Activity

variable {d : ContextId}

variable {I : Interp}

theorem accountable_callBody {c : ContextId} (r : Ref) (t : Table) {stmts : List Stmt}
    (hbody : Accountable d (I.body c stmts)) : Accountable d (I.callBody c r t stmts) := by
  have henter : Bystander d (enter c r t) := by
    intro w _
    have hadd : w.Explained d [] (w.addTable t).2 := .of_eq rfl rfl
    exact ⟨_, _, rfl, [], hadd.trans (.updateContext _ fun _ _ ↦ rfl)⟩
  have hleave (caller : Option Ref) : Bystander d (leave c caller) := by
    intro w _
    rw [leave_apply]
    cases (w.context c).suspended with
    | nil => exact ⟨_, w, rfl, [], .refl w⟩
    | cons t rest => exact ⟨_, _, rfl, [], .updateContext w fun _ _ ↦ rfl⟩
  exact (bystander_read _).accountable.bind fun ctx ↦ henter.accountable.bind fun _ ↦
    hbody.bind fun v ↦ (hleave _).accountable.bind fun _ ↦ (bystander_read fun _ ↦ v).accountable

theorem accountable_runTree {c d : ContextId}
    (hscript : ∀ stmts, Accountable d (I.sequence c (.value .none) stmts)) :
    Accountable d (I.runTree c) :=
  runTree_of_sequence (P := Accountable d) (fun f ↦ (bystander_read f).accountable) Accountable.bind
    (fun pos _ _ hvacant hx ↦ hx.guarded _ pos hvacant) hscript

end Interp

def accounting (d : ContextId) : Discipline where
  own := ⟨(· ≠ d), fun _ ↦ True⟩
  Obeys _ := Activity.Accountable d
  prompt hx := (hx.bystander (absurd rfl)).accountable
  pausing hx := hx.accountable
  bind := Activity.Accountable.bind
  fresh c name _ hf := Activity.accountable_newContextBeside c name hf
  guarded c pos _ _ hvacant hx := hx.guarded c pos hvacant
  callBody _ _ r t _ hbody := Interp.accountable_callBody r t hbody
  runTree _ _ _ hscript := Interp.accountable_runTree hscript
  queues _ := trivial

namespace Interp

open Activity

variable {d : ContextId} {w w' : World}

theorem meets_iff_finishes (n : Nat) (hd : d < w.contexts.size) {r : Except Stop Value} :
    (∃ V, Meets d ((upTo n).runTree d) w V r w') ↔
      ((upTo n).runTree d w).Finishes (remembering d) r w' := by
  constructor
  · rintro ⟨V, hV⟩
    exact hV.finishes
  · intro h
    have hobeyed := (accounting d).obeyed_upTo n
    have hscript : Accountable d ((upTo n).runTree d) :=
      accountable_runTree fun stmts ↦ hobeyed.script d _ stmts
    exact hscript w r w' hd h

/-! ### Whole runs -/

variable {c : ContextId} {E : Environment} {f : Fault} {I : Interp} {values : Value}

theorem unworded_of_sequence {stmts : List Stmt} {last : Flow}
    (h : (I.sequence c last stmts w).Finishes E (.error (.raised f)) w') :
    ∃ why, f = .unworded why := by
  induction stmts generalizing w last with
  | nil =>
    obtain ⟨hr, -⟩ := Step.finishes_ended.1 h
    cases hr
  | cons s rest ih =>
    rcases h.of_bind with ⟨flow, w₁, -, hrest⟩ | ⟨e, hfirst, he⟩
    · split at hrest
      · obtain ⟨hr, -⟩ := Step.finishes_ended.1 hrest
        cases hr
      · exact ih hrest
    · cases he
      obtain ⟨r₁, w₁, V, -, hdeals⟩ := deals_of_finishes hfirst
      cases hdeals with
      | passedOn why w => exact ⟨why, rfl⟩
      | stopped he w => exact absurd rfl (he f)

theorem runTree_not_raised : ¬ (I.runTree c w).Finishes E (.error (.raised f)) w' := by
  intro h
  rcases htree : (w.context c).tree with _ | tree
  · rw [runTree_of_none _ htree] at h
    obtain ⟨hr, -⟩ := Step.finishes_ended.1 h
    cases hr
  · rw [runTree_of_tree _ htree] at h
    rcases h.of_bind with ⟨flow, w₁, -, hvalue⟩ | ⟨e, hnode, he⟩
    · rcases flow with v | _ | _ | v <;> cases hvalue
    · cases he
      obtain ⟨r₁, w₁, V, hbody, hdeals⟩ := deals_of_finishes hnode
      cases hdeals with
      | passedOn why w =>
        -- what the statements pass on can be put into words again
        obtain ⟨why', hwhy⟩ := unworded_of_sequence hbody
        cases hwhy
      | stopped he w => exact he f rfl

def beginning (c : ContextId) (values : Value) : Activity Unit := do
  modify (·.updateContext c fun ctx ↦ { ctx with error := none, errorLong := none })
  give c values

theorem run_of_beginning (I : Interp) {u : World} (h : beginning c values w = .ended (.ok ()) u) :
    I.run c values w = I.runTree c u := by
  show (beginning c values >>= fun _ ↦ I.runTree c) w = _
  exact bind_of_ended h

/-- A run is given nothing or a dictionary. -/
def Givable (values : Value) : Prop := values = .none ∨ ∃ r, values = .dict r

theorem beginning_ended (hd : d < w.contexts.size) (hvalues : Givable values) :
    ∃ u, beginning d values w = .ended (.ok ()) u ∧ u.contexts.size = w.contexts.size ∧
      u.log = w.log ∧ (u.context d).error = none := by
  let clear (ctx : Context) : Context := { ctx with error := none, errorLong := none }
  have hsize : (w.updateContext d clear).contexts.size = w.contexts.size := Array.size_modify
  have herror : ((w.updateContext d clear).context d).error = none := by
    rw [World.context_updateContext_of_lt hd, if_pos rfl]
  rcases hvalues with rfl | ⟨r, rfl⟩
  · exact ⟨_, rfl, hsize, rfl, herror⟩
  · refine ⟨(w.updateContext d clear).give d _, give_dict d r _, ?_, ?_, ?_⟩
    · rw [World.contexts_give, hsize]
    · obtain h | ⟨-, h⟩ := World.give_cases (w.updateContext d clear) d _ <;> rw [h] <;> rfl
    · rw [World.context_give, herror]

/-- A run of the tree meets the incidents `V` and ends with `r`. -/
def RunMeets (I : Interp) (d : ContextId) (values : Value) (w : World) (V : List Incident)
    (r : Except Stop Value) (w' : World) : Prop :=
  ∃ u, beginning d values w = .ended (.ok ()) u ∧ Meets d (I.runTree d) u V r w'

/-- **Every error is dealt with once.** The script of a context is run, and meanwhile nobody makes
the context forget. There are two exceptions. A run that is cut off at a limit, such as that of
depth, is left out (`hfuel`): errors there are not dealt with at their nodes. Any other run that is
not cancelled ends with a value. Each node records an error of its own evaluation once, under its
position, and only a missing key that cannot be put into words is passed on to the node around it.
Runs are exactly what has an account: it lists the lines that the log has got, in order; whatever
was passed on was recorded next; and the context remembers the last error that was recorded
there. -/
theorem errors_dealt_with_once (n : Nat) {d : ContextId} {values : Value} {w w' : World}
    {r : Except Stop Value} (hd : d < w.contexts.size) (hvalues : Givable values)
    (hrun : ((upTo n).run d values w).Finishes (remembering d) r w')
    (hcancelled : r ≠ .error .cancelled) (hfuel : r ≠ .error .outOfFuel) :
    (∃ v, r = .ok v) ∧
      (∀ c e, Guards c (some e.pos) .none (do defined (← (upTo n).node c e))
        ((upTo n).evaluate c e)) ∧
      (∀ c s, Guards c (some s.pos) (.value .none) ((upTo n).statement c s)
        ((upTo n).execute c s)) ∧
      (∀ r₁ w₁, ((upTo n).run d values w).Finishes (remembering d) r₁ w₁ ↔
        ∃ V, (upTo n).RunMeets d values w V r₁ w₁) ∧
      ∀ V, (upTo n).RunMeets d values w V r w' →
        Answered V ∧
        w'.log.toList = w.log.toList ++ V.filterMap Incident.line? ∧
        (w'.context d).error = (V.filterMap (Incident.text? d)).getLast? := by
  obtain ⟨u, hbegin, hsize, hlog, herror⟩ := beginning_ended hd hvalues
  have hrun_eq := run_of_beginning (upTo n) hbegin
  have hdu : d < u.contexts.size := hsize ▸ hd
  have hok : ∃ v, r = .ok v := by
    rcases r with (f | _ | _) | v
    · grind [runTree_not_raised]
    · exact absurd rfl hcancelled
    · exact absurd rfl hfuel
    · exact ⟨v, rfl⟩
  refine ⟨hok, fun c e ↦ guards_guarded c _ _ _, fun c s ↦ guards_guarded c _ _ _,
    fun r₁ w₁ ↦ ?_, ?_⟩
  · rw [hrun_eq, ← meets_iff_finishes n hdu]
    constructor
    · rintro ⟨V, hV⟩
      exact ⟨V, u, hbegin, hV⟩
    · rintro ⟨V, u', hbegin', hV⟩
      cases hbegin.symm.trans hbegin'
      exact ⟨V, hV⟩
  · rintro V ⟨u', hbegin', hV⟩
    cases hbegin.symm.trans hbegin'
    have hexplained := hV.explained hdu
    refine ⟨?_, by rw [hexplained.log, hlog], ?_⟩
    · grind [Meets.answered_or]
    · rw [hexplained.error, herror, Option.or_none]

end Interp

def scripted (script stmts : List Stmt) (k : Nat) : World :=
  { knowing stmts k with
    contexts := #[{ name := "test", globals := 0, current := 0, locals := 0, file := "<unknown>"
                    tree := some ⟨script⟩ }] }

def callAndMisspell : List Stmt := [.expr ⟨3, 0⟩ knownCall, .expr ⟨4, 0⟩ (.name ⟨4, 0⟩ "e" .load)]

open Interp in
/-- The bare `return` is an error inside of the call, and the script goes on to the error of the
name. -/
theorem errors_dealt_with_once_callAndMisspell :
    ∃ w', ((upTo 5).run 0 .none (scripted callAndMisspell [.ret ⟨2, 4⟩ none] 0)).Finishes
        (remembering 0) (.ok .none) w' ∧
      w'.log.size = 2 ∧
      (w'.context 0).error =
        some "Exception in <unknown> line 4 column 0: name 'e' is not defined" ∧
      ∃ V, (upTo 5).RunMeets 0 .none (scripted callAndMisspell [.ret ⟨2, 4⟩ none] 0) V (.ok .none)
        w' ∧ Answered V ∧ w'.log.toList = V.filterMap Incident.line? ∧
        (w'.context 0).error = (V.filterMap (Incident.text? 0)).getLast? := by
  obtain ⟨w', hend, hlog, herror⟩ :
      ∃ w', (upTo 5).run 0 .none (scripted callAndMisspell [.ret ⟨2, 4⟩ none] 0) =
          .ended (.ok .none) w' ∧
        w'.log.size = 2 ∧
        (w'.context 0).error =
          some "Exception in <unknown> line 4 column 0: name 'e' is not defined" :=
    ⟨_, rfl, rfl, rfl⟩
  have hrun : ((upTo 5).run 0 .none (scripted callAndMisspell [.ret ⟨2, 4⟩ none] 0)).Finishes
      (remembering 0) (.ok .none) w' := by
    rw [hend]
    exact .ended _ _
  obtain ⟨-, -, -, hmeets, haccount⟩ := errors_dealt_with_once 5
    (w := scripted callAndMisspell [.ret ⟨2, 4⟩ none] 0) (Nat.zero_lt_succ 0) (.inl rfl) hrun
    (fun h ↦ by cases h) (fun h ↦ by cases h)
  obtain ⟨V, hV⟩ := (hmeets _ w').1 hrun
  exact ⟨w', hrun, hlog, herror, V, hV, haccount V hV⟩

/-! ### An error that is recorded elsewhere -/

theorem Interp.runTree_unworded {I : Interp} {c : ContextId} {s : Stmt} {rest : List Stmt}
    {why : Unshown} (htree : (w.context c).tree = some ⟨s :: rest⟩)
    (h : I.statement c s w = .ended (.error (.raised (.unshownKey why))) w') :
    I.runTree c w = .ended (.ok .none) (w'.recording c none (.unworded why)) := by
  rw [runTree_of_tree I htree]
  show ((((I.statement c s w).attempt.bind _).bind _).attempt.bind _).bind _ = _
  rw [h]
  rfl

def deleteAndBind : List Stmt :=
  [deletion, .assign ⟨3, 0⟩ [.name ⟨3, 0⟩ "x" .store] (.constant ⟨3, 4⟩ (.int 1) none)]

open Interp Activity in
/-- **An error that cannot be put into words is not recorded where it is met**: the one line in the
log has no position, and the script goes no further. -/
theorem passed_on_ends_script : ∃ w',
    (upTo 5).run 0 .none (scripted deleteAndBind [] (Number.tenTo Number.digitLimit)) =
        .ended (.ok .none) w' ∧
      w'.log.toList = [⟨"eval", .error,
        "Exception in <unknown>: Exceeds the limit (4300 digits) for integer string conversion; " ++
          "use sys.set_int_max_str_digits() to increase the limit"⟩] ∧
      (w'.table 0).get? (some "x") = none := by
  let u (k : Nat) : World := (scripted deleteAndBind [] k).updateContext 0 fun ctx ↦
    { ctx with error := none, errorLong := none }
  have hbegin (k : Nat) : beginning 0 .none (scripted deleteAndBind [] k) =
      .ended (.ok ()) (u k) := rfl
  have hdelete (k : Nat) : (upTo 5).statement 0 deletion (u k) =
      .ended (.error (.raised (missingKey (u k).store (.int k)))) (u k) :=
    statementNode_delete_empty ⟨2, 4⟩ rfl rfl rfl rfl rfl rfl
  have hrun (k : Nat) (hk : missingKey (u k).store (.int k) = .unshownKey .tooManyDigits) :
      (upTo 5).run 0 .none (scripted deleteAndBind [] k) =
        .ended (.ok .none) ((u k).recording 0 none (.unworded .tooManyDigits)) :=
    (run_of_beginning _ (hbegin k)).trans (runTree_unworded rfl ((hdelete k).trans (by rw [hk])))
  have hline : errorPlace none "<unknown>" none ++ errorText (.unworded .tooManyDigits) =
      "Exception in <unknown>: Exceeds the limit (4300 digits) for integer string conversion; " ++
        "use sys.set_int_max_str_digits() to increase the limit" := by decide
  have hlog (k : Nat) : ((u k).recording 0 none (.unworded .tooManyDigits)).log.toList =
      [⟨"eval", .error, errorPlace none "<unknown>" none ++
        errorText (.unworded .tooManyDigits)⟩] := rfl
  have hunbound (k : Nat) :
      (((u k).recording 0 none (.unworded .tooManyDigits)).table 0).get? (some "x") = none := rfl
  rw [← hline]
  exact ⟨_, hrun _ (missingKey_of_le _ (Nat.le_refl _)), hlog _, hunbound _⟩

end TriggerScript
