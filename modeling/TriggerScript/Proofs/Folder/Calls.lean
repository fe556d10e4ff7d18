import TriggerScript.Proofs.Evaluation.Seclusion
import TriggerScript.Proofs.Trigger.Making
import TriggerScript.Proofs.Trigger.Rounds

/-!
# Calls of services

Each call of a service runs in a context of its own, as a task. While it waits, other calls begin,
go on and end in any order. Its context and its tables stay as they are meanwhile
(`other_calls_leave_alone`), since each context has one owner at most.

There is one exception: functions are shared, so another call may have declared a name global or
nonlocal in the same function (`read_after_declaration`).
-/

namespace TriggerScript

open Activity

/-! ### Slices of a call -/

namespace Step

variable {α : Type} {E : Owned} {w₀ : World} {s : Step α}

def rest : Step α → Reply → World → Step α
  | .ended r _ => fun _ w ↦ .ended r w
  | .waiting _ _ resume => resume

theorem Minds.slice (h : s.Minds E w₀) : Evolves (E.beyond w₀) w₀ s.world := by
  cases s with
  | ended r w => exact h
  | waiting request w resume => exact h.1

theorem Minds.rest (h : s.Minds E w₀) (reply : Reply) {w : World} (hw : s.world.Widens w) :
    (s.rest reply w).Minds (E.between w₀ s.world) w := by
  cases s with
  | ended r w' => exact .refl w
  | waiting request w' resume => exact h.2.2 reply w hw

end Step

theorem minds_call {E : Owned} (f : Ref) {c : ContextId} (hc : E.contexts c) (args : List Value)
    (named : Value) : Activity.Minds E (work (.call f c args named)) :=
  (minding.obeyed_upTo Interp.depth E).callWith (b := false) f c args named hc

theorem Interp.secludes_serve (I : Interp) (data : Entries) (name : String) (f : Ref) (w : World)
    (c : ContextId) :
    ∃ named w', I.serve data (.function name f (w.context c).globals) w = .ended (.ok ()) w' ∧
      w'.started = w.started ++ [(w.tasks.size, .call f w.contexts.size [] named)] ∧
      w'.contexts.size = w.contexts.size + 1 ∧ Secludes (w.contexts.size ≤ ·) w w' := by
  obtain ⟨_, w₁, hfresh, htasks, hstarted, -⟩ := succeeds_freshContext name (w.context c).globals w
  obtain ⟨rfl, -, hcontexts, -⟩ := freshContext_ended hfresh
  have hevolves : Evolves ((⟨(w.contexts.size ≤ ·), fun _ ↦ True⟩ : Owned).beyond w) w w₁ := by
    have hminds :=
      RegimeFamily.furnishedBeside (H := minding) (E := ⟨(w.contexts.size ≤ ·), fun _ ↦ True⟩)
      (p := ⟨w.contexts.size, false⟩) c name _ pure (fun E e _ _ _ ↦ minds_read fun _ ↦ e)
      (Nat.le_refl _) w
    have hend : (furnished (newContextBeside c name) >>= pure) w =
        .ended (.ok w.contexts.size) w₁ :=
      bind_of_ended hfresh
    rw [hend] at hminds
    exact hminds
  have hsize : w₁.contexts.size = w.contexts.size + 1 := by rw [hcontexts, Array.size_push]
  refine ⟨.dict w₁.store.objects.size, _, bind_of_ended hfresh, ?_, hsize, ?_⟩
  · show w₁.started ++ [(w₁.tasks.size, _)] = _
    rw [hstarted, htasks]
  · exact (hevolves.secludes.mono fun _ h ↦ h.elim id id).trans (.of_eq (.of_eq rfl rfl) rfl rfl)

/-! ### Interleavings -/

/-- A call that waits, in its context. -/
structure ServiceCall where
  context : ContextId
  next : Reply → World → Step Value

def ServiceCall.begin (t : TaskId) (f : Ref) (c : ContextId) (args : List Value) (named : Value) :
    ServiceCall :=
  ⟨c, (Machine.threadOf work t (.call f c args named)).resume⟩

def ServiceCall.of? (t : TaskId) : Job → Option ServiceCall
  | .call f c args named => some (.begin t f c args named)
  | _ => none

/-- A world with the calls that wait in it. -/
structure ServiceCalls where
  world : World
  calls : List ServiceCall := []

namespace ServiceCalls

/-- A call begins or goes on, or something else happens. -/
inductive Move where
  | serve (data : Entries) (name : String) (f : Ref) (globals : TableId)
  | resume (i : Nat) (reply : Reply)
  | other (w : World)

def after (σ : ServiceCalls) : Move → ServiceCalls
  | .serve data name f globals =>
    let w := (Interp.full.serve data (.function name f globals) σ.world).world
    ⟨w, σ.calls ++ (w.started.drop σ.world.started.length).filterMap fun p ↦
      ServiceCall.of? p.1 p.2⟩
  | .resume i reply =>
    match σ.calls[i]? with
    | some call =>
      let s := call.next reply σ.world
      ⟨s.world, σ.calls.set i { call with next := s.rest }⟩
    | none => σ
  | .other w => { σ with world := w }

def Allows (σ : ServiceCalls) : Move → Prop
  | .serve _ _ _ globals => ∃ c, (σ.world.context c).globals = globals
  | .resume _ _ => True
  | .other w => Secludes (fun c ↦ ∀ call ∈ σ.calls, c ≠ call.context) σ.world w

/-- Moves that are allowed, one after another. -/
inductive Leads : ServiceCalls → List Move → ServiceCalls → Prop
  | nil (σ : ServiceCalls) : Leads σ [] σ
  | cons {σ τ : ServiceCalls} {m : Move} {moves : List Move} (hm : σ.Allows m)
    (h : Leads (σ.after m) moves τ) : Leads σ (m :: moves) τ

def owned (owner : ContextId → Option Nat) (i : Nat) : Owned :=
  ⟨fun c ↦ owner c = some i, fun _ ↦ True⟩

/-- Each context has one owner at most, and each call minds its own. -/
structure Apart (owner : ContextId → Option Nat) (σ : ServiceCalls) : Prop where
  formed : σ.world.Formed
  unowned : ∀ c, σ.world.contexts.size ≤ c → owner c = none
  owns : ∀ (i : Nat) (call : ServiceCall), σ.calls[i]? = some call → owner call.context = some i
  secluded : ∀ (i : Nat) (call : ServiceCall), σ.calls[i]? = some call →
    σ.world.Secluded call.context
  minds : ∀ (i : Nat) (call : ServiceCall), σ.calls[i]? = some call → ∀ reply w, σ.world.Widens w →
    (call.next reply w).Minds (owned owner i) w

variable {owner owner' : ContextId → Option Nat} {σ τ : ServiceCalls} {i j : Nat}
  {call : ServiceCall} {w : World}

theorem Apart.lt (h : Apart owner σ) {c : ContextId} (hc : owner c = some i) :
    c < σ.world.contexts.size := by
  refine Nat.not_le.1 fun hle ↦ ?_
  rw [h.unowned c hle] at hc
  cases hc

theorem Apart.later (h : Apart owner σ) {F : ContextId → Prop} (hw : Secludes F σ.world w)
    (howner : ∀ c < σ.world.contexts.size, owner' c = owner c)
    (hunowned : ∀ c, w.contexts.size ≤ c → owner' c = none) : Apart owner' ⟨w, σ.calls⟩ := by
  have howned (i : Nat) : owned owner i ≤ owned owner' i :=
    ⟨fun c hc ↦ (howner c (h.lt hc)).trans hc, fun _ h ↦ h⟩
  refine ⟨hw.formed h.formed, hunowned, fun i call hcall ↦ ?_, fun i call hcall ↦ ?_,
    fun i call hcall reply w' hw' ↦ ?_⟩
  · have howns := h.owns i call hcall
    exact (howner _ (h.lt howns)).trans howns
  · exact hw.secluded h.formed _ (h.secluded i call hcall)
  · exact (h.minds i call hcall reply w' (hw.widens.trans hw')).mono (howned i)

theorem Apart.replace {calls calls' : List ServiceCall} (h : Apart owner ⟨w, calls⟩)
    (new : ServiceCall)
    (hcalls : ∀ (i : Nat) (a : ServiceCall), calls'[i]? = some a → calls[i]? = some a ∨ i = j ∧
      a = new)
    (howns : owner new.context = some j) (hsecluded : w.Secluded new.context)
    (hminds : ∀ reply w', w.Widens w' → (new.next reply w').Minds (owned owner j) w') :
    Apart owner ⟨w, calls'⟩ := by
  refine ⟨h.formed, h.unowned, fun i a ha ↦ ?_, fun i a ha ↦ ?_, fun i a ha ↦ ?_⟩
  · rcases hcalls i a ha with hold | ⟨rfl, rfl⟩
    · exact h.owns i a hold
    · exact howns
  · rcases hcalls i a ha with hold | ⟨rfl, rfl⟩
    · exact h.secluded i a hold
    · exact hsecluded
  · rcases hcalls i a ha with hold | ⟨rfl, rfl⟩
    · exact h.minds i a hold
    · exact hminds

/-! ### New contexts come to belong to one call -/

def grant (owner : ContextId → Option Nat) (w w' : World) (i : Nat) (c : ContextId) : Option Nat :=
  if w.contexts.size ≤ c ∧ c < w'.contexts.size then some i else owner c

theorem owned_between_le (owner : ContextId → Option Nat) (w w' : World) (i : Nat) :
    (owned owner i).between w w' ≤ owned (grant owner w w' i) i := by
  refine ⟨fun c hc ↦ ?_, fun _ _ ↦ trivial⟩
  show (if w.contexts.size ≤ c ∧ c < w'.contexts.size then some i else owner c) = some i
  split
  · rfl
  · exact hc.resolve_right ‹_›

theorem Apart.granted (h : Apart owner σ) {F : ContextId → Prop} (hw : Secludes F σ.world w)
    (i : Nat) : Apart (grant owner σ.world w i) ⟨w, σ.calls⟩ := by
  refine h.later hw (fun c hc ↦ if_neg fun hnew ↦ ?_) fun c hc ↦ ?_
  · exact absurd hc (Nat.not_lt.2 hnew.1)
  · rw [grant, if_neg fun hnew ↦ absurd hnew.2 (Nat.not_lt.2 hc)]
    exact h.unowned c (Nat.le_trans hw.widens.contexts hc)

/-! ### One move -/

def Rests (i : Nat) (σ τ : ServiceCalls) : Prop :=
  ∀ call, σ.calls[i]? = some call →
    τ.calls[i]? = some call ∧ Secludes (· ≠ call.context) σ.world τ.world

theorem Rests.refl (i : Nat) (σ : ServiceCalls) : Rests i σ σ := fun _ hcall ↦ ⟨hcall, .refl _⟩

theorem Rests.trans {ρ : ServiceCalls} (h₁ : Rests i σ ρ) (h₂ : Rests i ρ τ) : Rests i σ τ := by
  intro call hcall
  obtain ⟨hcall₁, hsecludes₁⟩ := h₁ call hcall
  obtain ⟨hcall₂, hsecludes₂⟩ := h₂ call hcall₁
  exact ⟨hcall₂, hsecludes₁.trans hsecludes₂⟩

theorem after_serve (σ : ServiceCalls) (data : Entries) (name : String) (f : Ref) (c : ContextId) :
    ∃ named w, σ.after (.serve data name f (σ.world.context c).globals) =
        ⟨w, σ.calls ++ [.begin σ.world.tasks.size f σ.world.contexts.size [] named]⟩ ∧
      w.contexts.size = σ.world.contexts.size + 1 ∧
        Secludes (σ.world.contexts.size ≤ ·) σ.world w := by
  obtain ⟨named, w, hend, hstarted, hsize, hsecludes⟩ :=
    Interp.full.secludes_serve data name f σ.world c
  refine ⟨named, w, ?_, hsize, hsecludes⟩
  simp only [after, hend, Step.world, hstarted, List.drop_left]
  rfl

theorem Apart.serve (h : Apart owner σ) (data : Entries) (name : String) (f : Ref) (c : ContextId) :
    (∃ owner', Apart owner' (σ.after (.serve data name f (σ.world.context c).globals))) ∧
      ∀ i, Rests i σ (σ.after (.serve data name f (σ.world.context c).globals)) := by
  obtain ⟨named, w, hafter, hsize, hsecludes⟩ := after_serve σ data name f c
  rw [hafter]
  constructor
  · have hgranted := h.granted hsecludes σ.calls.length
    have hnew : grant owner σ.world w σ.calls.length σ.world.contexts.size = some σ.calls.length :=
      if_pos ⟨Nat.le_refl _, hsize ▸ Nat.lt_succ_self _⟩
    refine ⟨_, hgranted.replace (.begin σ.world.tasks.size f σ.world.contexts.size [] named)
      (fun i a ha ↦ ?_) hnew ?_ fun reply w' _ ↦ ?_⟩
    · show σ.calls[i]? = some a ∨ _
      grind
    · exact hsecludes.secluded h.formed _ (World.secluded_of_size_le (Nat.le_refl _))
    · cases reply with
      | cancelled => exact .refl w'
      | _ => exact minds_call f hnew [] named w'
  · intro i call hcall
    have hlt := h.lt (h.owns i call hcall)
    refine ⟨?_, hsecludes.mono fun e he ↦ ?_⟩
    · rw [List.getElem?_append_left (List.getElem?_eq_some_iff.1 hcall).1, hcall]
    · exact Nat.ne_of_gt (Nat.lt_of_lt_of_le hlt he)

theorem Apart.resume (h : Apart owner σ) (hcall : σ.calls[i]? = some call) (reply : Reply) :
    (∃ owner', Apart owner' (σ.after (.resume i reply))) ∧
      ∀ j ≠ i, Rests j σ (σ.after (.resume i reply)) := by
  have hminds := h.minds i call hcall reply σ.world (.refl _)
  have hsecludes := hminds.slice.secludes
  have hafter : σ.after (.resume i reply) =
      ⟨(call.next reply σ.world).world,
        σ.calls.set i { call with next := (call.next reply σ.world).rest }⟩ := by
    simp only [after, hcall]
  rw [hafter]
  constructor
  · have hgranted := h.granted hsecludes i
    refine ⟨_, hgranted.replace { call with next := (call.next reply σ.world).rest }
      (fun k a ha ↦ ?_)
      (hgranted.owns i call hcall) (hgranted.secluded i call hcall) fun reply' w' hw' ↦ ?_⟩
    · show σ.calls[k]? = some a ∨ _
      grind
    · exact (hminds.rest reply' hw').mono (owned_between_le ..)
  · intro j hj other hother
    have howns := h.owns j other hother
    refine ⟨?_, hsecludes.mono fun c hc ↦ ?_⟩
    · rw [List.getElem?_set_ne hj.symm, hother]
    · rintro rfl
      rcases hc with hc | hnew
      · exact hj (Option.some.inj (howns.symm.trans hc))
      · exact absurd (h.lt howns) (Nat.not_lt.2 hnew)

theorem Apart.after (h : Apart owner σ) {m : Move} (hm : σ.Allows m) :
    (∃ owner', Apart owner' (σ.after m)) ∧
      ∀ i, (∀ reply, m ≠ .resume i reply) → Rests i σ (σ.after m) := by
  cases m with
  | serve data name f globals =>
    obtain ⟨c, rfl⟩ := hm
    obtain ⟨hapart, hrests⟩ := h.serve data name f c
    exact ⟨hapart, fun i _ ↦ hrests i⟩
  | resume i reply =>
    cases hcall : σ.calls[i]? with
    | none =>
      have hafter : σ.after (.resume i reply) = σ := by simp only [ServiceCalls.after, hcall]
      rw [hafter]
      exact ⟨⟨owner, h⟩, fun j _ ↦ .refl j σ⟩
    | some call =>
      obtain ⟨hapart, hrests⟩ := h.resume hcall reply
      exact ⟨hapart, fun j hj ↦ hrests j fun heq ↦ hj reply (by rw [heq])⟩
  | other w =>
    refine ⟨⟨owner, h.later hm (fun _ _ ↦ rfl) fun c hc ↦ ?_⟩, fun i _ call hcall ↦ ⟨hcall, ?_⟩⟩
    · exact h.unowned c (Nat.le_trans hm.widens.contexts hc)
    · exact Secludes.mono hm fun c hc ↦ hc call (List.mem_of_getElem? hcall)

/-! ### Any number of moves -/

theorem Apart.leads {moves : List Move} (h : Apart owner σ) (hrun : Leads σ moves τ) :
    (∃ owner', Apart owner' τ) ∧ ∀ i, (∀ reply, .resume i reply ∉ moves) → Rests i σ τ := by
  induction hrun generalizing owner with
  | nil σ => exact ⟨⟨owner, h⟩, fun i _ ↦ .refl i σ⟩
  | cons hm _ ih =>
    obtain ⟨⟨_, hnext⟩, hrests⟩ := h.after hm
    obtain ⟨hlast, hrest⟩ := ih hnext
    refine ⟨hlast, fun i hi ↦ ?_⟩
    have hhead : Rests i _ _ := hrests i fun reply heq ↦ hi reply (heq ▸ List.mem_cons_self ..)
    exact hhead.trans (hrest i fun reply hmem ↦ hi reply (List.mem_cons_of_mem _ hmem))

theorem apart_nil {w₀ : World} (hw₀ : w₀.Formed) : Apart (fun _ ↦ none) ⟨w₀, []⟩ :=
  ⟨hw₀, fun _ _ ↦ rfl, nofun, nofun, nofun⟩

end ServiceCalls

theorem World.nameValue_of_current {w : World} {ctx : Context} {name : String} {v : Value}
    (hglobal : ¬ w.isGlobal ctx name) (hnonlocal : ¬ w.isNonlocal ctx name)
    (hv : (w.table ctx.current).get? (some name) = some v) : w.nameValue ctx name = .ok v := by
  simp only [World.nameValue, hglobal, hnonlocal, World.bound?, hv, Option.some_or]
  rfl

open ServiceCalls in
/-- **Calls of services leave one another alone**, whatever the order of their moves. While one of
the calls does not go on, and others do, or begin, or end, or are cancelled, its context is the
same; the tables that it holds besides the globals have the same bindings; and a name that is bound
in its current table, which is not that of the globals, yields the value bound there, unless the
function that the call executes has been declared the name global or nonlocal. -/
theorem other_calls_leave_alone {w₀ : World} {σ τ : ServiceCalls} {before moves : List Move}
    {i : Nat} {call : ServiceCall} (hw₀ : w₀.Formed) (hbefore : Leads ⟨w₀, []⟩ before σ)
    (hmoves : Leads σ moves τ)
    (hcall : σ.calls[i]? = some call) (hrests : ∀ reply, .resume i reply ∉ moves) :
    τ.calls[i]? = some call ∧ τ.world.context call.context = σ.world.context call.context ∧
      (∀ t ∈ (σ.world.context call.context).held, t ≠ (σ.world.context call.context).globals →
        τ.world.table t = σ.world.table t) ∧
      ∀ name v,
        (σ.world.context call.context).current ≠ (σ.world.context call.context).globals →
        (σ.world.table (σ.world.context call.context).current).get? (some name) = some v →
        ¬ τ.world.isGlobal (τ.world.context call.context) name →
        ¬ τ.world.isNonlocal (τ.world.context call.context) name →
        τ.world.nameValue (τ.world.context call.context) name = .ok v := by
  obtain ⟨⟨owner, hapart⟩, -⟩ := (apart_nil hw₀).leads hbefore
  obtain ⟨hcall', hsecludes⟩ := (hapart.leads hmoves).2 i hrests call hcall
  have hcontext : τ.world.context call.context = σ.world.context call.context :=
    hsecludes.context _ (hapart.lt (hapart.owns i call hcall)) fun hne ↦ hne rfl
  have htables (t : TableId) (ht : t ∈ (σ.world.context call.context).held)
      (hne : t ≠ (σ.world.context call.context).globals) : τ.world.table t = σ.world.table t :=
    hsecludes.table _ t (fun hne ↦ hne rfl) (hapart.secluded i call hcall t ht hne)
  refine ⟨hcall', hcontext, htables, fun name v hcurrent hv hglobal hnonlocal ↦ ?_⟩
  refine World.nameValue_of_current hglobal hnonlocal ?_
  rw [hcontext, htables _ (Context.current_mem_held _) hcurrent]
  exact hv

namespace ServiceCalls

def mayDeclare : World where
  start := default
  store.functions := #[
    { name := "g"
      params := .params [] [.param "value" none, .param "declare" none] none [] [] none []
      doc := none
      body := [
        .cond ⟨2, 4⟩ (.name ⟨2, 7⟩ "declare" .load) [.globalNames ⟨2, 16⟩ ["x"]] [],
        .assign ⟨3, 4⟩ [.name ⟨3, 4⟩ "x" .store] (.name ⟨3, 8⟩ "value" .load),
        .expr ⟨4, 4⟩
          (.call ⟨4, 4⟩ (.name ⟨4, 4⟩ "claim" .load) [.constant ⟨4, 10⟩ (.text "n") none] []),
        .ret ⟨5, 4⟩ (some (.name ⟨5, 11⟩ "x" .load))] }]
  tables := #[⟨[(some "claim", .host .unique)]⟩]
  contexts := #[{ name := "g", globals := 0, current := 0, locals := 0 }]
  claims := [(.text "n", 0)]

def begins (i : Nat) (value : Int) (declare : Bool) : List Move :=
  [.serve [(.text "value", .int value), (.text "declare", .bool declare)] "g" 0 0, .resume i .go]

def afterAll (σ : ServiceCalls) (moves : List Move) : ServiceCalls := moves.foldl after σ

def oneWaits : ServiceCalls := afterAll ⟨mayDeclare, []⟩ (begins 0 1 false)

def twoWait (declare : Bool) : ServiceCalls := oneWaits.afterAll (begins 1 2 declare)

theorem formed_mayDeclare : mayDeclare.Formed := by
  intro c
  cases c with
  | zero => exact ⟨by decide, by decide, by decide⟩
  | succ c => simp [World.context, Context.Within, Context.scope, Scope.stack, mayDeclare]

theorem leads_oneWaits : Leads ⟨mayDeclare, []⟩ (begins 0 1 false) oneWaits :=
  .cons ⟨0, rfl⟩ (.cons trivial (.nil _))

theorem globals_oneWaits : (oneWaits.world.context 0).globals = 0 := by decide +kernel

theorem leads_twoWait (declare : Bool) : Leads oneWaits (begins 1 2 declare) (twoWait declare) :=
  .cons ⟨0, globals_oneWaits⟩ (.cons trivial (.nil _))

theorem first_oneWaits : ∃ call, oneWaits.calls[0]? = some call ∧ call.context = 1 ∧
    (oneWaits.world.context 1).current = 3 ∧ (oneWaits.world.context 1).globals = 0 ∧
    (oneWaits.world.table 3).get? (some "x") = some (.int 1) :=
  ⟨_, rfl, rfl, rfl, rfl, rfl⟩

theorem undeclared_twoWait :
    (twoWait false).world.isGlobal ((twoWait false).world.context 1) "x" = false ∧
      (twoWait false).world.isNonlocal ((twoWait false).world.context 1) "x" = false := by
  decide +kernel

end ServiceCalls

open ServiceCalls

/-- Two calls of one function wait, and the first still reads its own `x`. -/
theorem other_calls_leave_alone_twoWait :
    (twoWait false).calls.length = 2 ∧
      (twoWait false).world.context 1 = oneWaits.world.context 1 ∧
      (twoWait false).world.nameValue ((twoWait false).world.context 1) "x" = .ok (.int 1) := by
  obtain ⟨call, hcall, hcontext, hcurrent, hglobals, hx⟩ := first_oneWaits
  have hrests (reply : Reply) : .resume 0 reply ∉ begins 1 2 false := by simp [begins]
  obtain ⟨-, hsame, -, hreads⟩ :=
    other_calls_leave_alone formed_mayDeclare leads_oneWaits (leads_twoWait false) hcall hrests
  rw [hcontext] at hsame hreads
  refine ⟨by decide +kernel, hsame, hreads "x" (.int 1) ?_ ?_ ?_ ?_⟩
  · rw [hcurrent, hglobals]
    decide
  · rw [hcurrent]
    exact hx
  · rw [undeclared_twoWait.1]
    exact Bool.false_ne_true
  · rw [undeclared_twoWait.2]
    exact Bool.false_ne_true

/-- **A call reads what another one bound**, if that one declared the name: `x` is bound to 1 in the
table of the first call, as before, and yields 2. -/
theorem read_after_declaration :
    mayDeclare.Formed ∧ Leads ⟨mayDeclare, []⟩ (begins 0 1 false) oneWaits ∧
      Leads oneWaits (begins 1 2 true) (twoWait true) ∧ oneWaits.calls[0]?.map (·.context) =
        some 1 ∧
      ((oneWaits.world.table 3).get? (some "x") = some (.int 1) ∧
        oneWaits.world.nameValue (oneWaits.world.context 1) "x" = .ok (.int 1)) ∧
      ((twoWait true).world.table 3).get? (some "x") = some (.int 1) ∧
      (twoWait true).world.nameValue ((twoWait true).world.context 1) "x" = .ok (.int 2) :=
  ⟨formed_mayDeclare, leads_oneWaits, leads_twoWait true, rfl, ⟨rfl, rfl⟩, rfl, rfl⟩

end TriggerScript
