import TriggerScript.Proofs.Evaluation.Binding
import TriggerScript.Proofs.Task.Rely
import TriggerScript.Proofs.Trigger.Making

/-!
# What a trigger remembers of earlier events

The condition of a trigger is evaluated in a context that lives as long as the trigger. **So a
condition may see data of earlier events.** A name that the last event does not carry, and that is
not among the globals, stands for what the latest event said that carried it. An event is answered
as by a new trigger if no such name is mentioned (`event_as_new`); otherwise it need not be
(`stale_name_starts`).
-/

namespace TriggerScript

open Syntax (Position Expr)

theorem Table.get?_putAll_congr {t t' : Table} {entries : List (Key × Value)} {k : Key}
    (h : k ∈ entries.map (·.1) ∨ t.get? k = t'.get? k) :
    (t.putAll entries).get? k = (t'.putAll entries).get? k := by
  induction entries generalizing t t' with
  | nil =>
    rcases h with h | h
    · cases h
    · exact h
  | cons e rest ih =>
    show ((t.put e.1 e.2).putAll rest).get? k = ((t'.put e.1 e.2).putAll rest).get? k
    apply ih
    by_cases hk : k = e.1
    · refine .inr ?_
      rw [hk, Table.get?_put_self, Table.get?_put_self]
    · rw [List.map_cons, List.mem_cons, or_iff_right hk] at h
      rw [Table.get?_put_of_ne t e.2 hk, Table.get?_put_of_ne t' e.2 hk]
      exact h

/-! ### Giving data to a condition -/

namespace World

variable {N : String → Prop} {name : String} {globals : TableId} {w w' u u' : World}
  {c c' : ContextId} {entries : List (Key × Value)}

def given (w : World) (c : Option ContextId) (entries : List (Key × Value)) : World :=
  c.elim w (w.give · entries)

theorem matches_give (w : World) (c : ContextId) (entries : List (Key × Value)) :
    w.Matches (w.give c entries) := rfl

@[simp] theorem contexts_given (w : World) (c : Option ContextId) (entries : List (Key × Value)) :
    (w.given c entries).contexts = w.contexts := by
  cases c with
  | none => rfl
  | some c => exact contexts_give w c entries

@[simp] theorem context_given (w : World) (c : Option ContextId) (entries : List (Key × Value))
    (d : ContextId) : (w.given c entries).context d = w.context d := by
  rw [context, contexts_given, context]

@[simp] theorem size_tables_given (w : World) (c : Option ContextId)
    (entries : List (Key × Value)) : (w.given c entries).tables.size = w.tables.size := by
  cases c with
  | none => rfl
  | some c =>
    show (w.give c entries).tables.size = _
    rcases w.give_cases c entries with h | ⟨-, h⟩ <;> rw [h]
    exact Array.size_modify

theorem give_of_lt (h : c < w.contexts.size) (entries : List (Key × Value)) :
    w.give c entries = w.updateTable (w.context c).locals (·.putAll entries) := by
  rw [give, if_pos h, updateTable]

theorem table_give_self (hc : c < w.contexts.size) (h : (w.context c).locals < w.tables.size) :
    (w.give c entries).table (w.context c).locals =
      (w.table (w.context c).locals).putAll entries := by
  rw [give_of_lt hc]
  exact table_updateTable_self h _

theorem table_given_of_ne {o : Option ContextId} {t : TableId}
    (h : ∀ c ∈ o, (w.context c).locals ≠ t) : (w.given o entries).table t = w.table t := by
  cases o with
  | none => rfl
  | some c =>
    show (w.give c entries).table t = _
    rcases w.give_cases c entries with heq | ⟨-, heq⟩ <;> rw [heq]
    exact table_updateTable_of_ne (h c rfl) _

theorem Condition.of_still (h : w.Condition name globals c) (hu : w.Still u) :
    u.Condition name globals c :=
  h.of_context (hu.contexts c) (Nat.le_of_eq hu.size.symm) (Nat.le_of_eq (by rw [hu.tables]))

theorem Condition.given (h : w.Condition name globals c) (o : Option ContextId) :
    (w.given o entries).Condition name globals c :=
  h.of_context ⟨_, _, context_given w o entries c⟩ (Nat.le_of_eq (by rw [contexts_given]))
    (Nat.le_of_eq (size_tables_given w o entries).symm)

theorem Condition.bound?_give (h : w.Condition name globals c) (key : Key) :
    (w.give c entries).bound? (w.context c) key =
      ((w.table globals).get? key).or
        (((w.table (w.context c).locals).putAll entries).get? key) := by
  have hglobals : (w.give c entries).table globals = w.table globals := by
    rw [give_of_lt h.lt_size]
    exact table_updateTable_of_ne h.locals_ne _
  rw [bound?, h.current_eq, h.globals_eq, hglobals, table_give_self h.lt_size h.locals_lt]
  cases (w.table globals).get? key with
  | none => simp
  | some v => rfl

theorem Still.given (h : w.Still u) (o : Option ContextId) (entries : List (Key × Value)) :
    (w.given o entries).Still (u.given o entries) := by
  cases o with
  | none => exact h
  | some c =>
    obtain ⟨error, errorLong, hc⟩ := h.contexts c
    refine ⟨?_, h.size, h.contexts⟩
    show (u.give c entries).tables = (w.give c entries).tables
    unfold give
    rw [h.size, hc, h.tables]

end World

/-! ### Two conditions of the same text -/

/-- Two conditions of the same text that are given the same. -/
inductive World.Twin (N : String → Prop) (globals : TableId) (entries : List (Key × Value))
    (w w' : World) : Option ContextId → Option ContextId → Prop
  | none : Twin N globals entries w w' none none
  | some {c c' : ContextId} {name : String} {tree : Syntax.Module} {pos : Position} {e : Expr}
      (hc : w.Condition name globals c) (hc' : w'.Condition name globals c')
      (htree : (w.context c).tree = some tree) (htree' : (w'.context c').tree = some tree)
      (hbody : tree.body = [.expr pos e]) (he : Reads N e)
      (hglobals : w'.table globals = w.table globals)
      (hnames : ∀ n, N n → some n ∈ entries.map (·.1) ∨ (w.table globals).contains (some n) ∨
        (w.table (w.context c).locals).get? (some n) =
          (w'.table (w'.context c').locals).get? (some n)) :
      Twin N globals entries w w' (some c) (some c')

namespace World

variable {N : String → Prop} {globals : TableId} {entries es : List (Key × Value)}
  {w w' u u' : World} {o o' a a' : Option ContextId}

theorem Twin.mono (h : Twin N globals [] w w' a a') : Twin N globals entries w w' a a' := by
  cases h with
  | none => exact .none
  | some hc hc' htree htree' hbody he hglobals hnames =>
    refine .some hc hc' htree htree' hbody he hglobals fun n hn ↦ ?_
    rcases hnames n hn with hnil | h
    · cases hnil
    · exact .inr h

theorem Twin.of_given (h : Twin N globals entries w w' a a') (hu : (w.given o es).Still u)
    (hu' : (w'.given o' es).Still u')
    (hother : ∀ c ∈ o, (w.context c).locals ≠ globals ∧
      ∀ d ∈ a, (w.context c).locals ≠ (w.context d).locals)
    (hother' : ∀ c ∈ o', (w'.context c).locals ≠ globals ∧
      ∀ d ∈ a', (w'.context c).locals ≠ (w'.context d).locals) :
    Twin N globals entries u u' a a' := by
  have htable (t : TableId) (ht : ∀ c ∈ o, (w.context c).locals ≠ t) : u.table t = w.table t :=
    (hu.table t).trans (table_given_of_ne ht)
  have htable' (t : TableId) (ht : ∀ c ∈ o', (w'.context c).locals ≠ t) : u'.table t = w'.table t :=
    (hu'.table t).trans (table_given_of_ne ht)
  cases h with
  | none => exact .none
  | @some c c' _ _ _ _ hc hc' htree htree' hbody he hglobals hnames =>
    obtain ⟨_, _, hctx⟩ := hu.contexts c
    obtain ⟨_, _, hctx'⟩ := hu'.contexts c'
    rw [context_given] at hctx hctx'
    have hg := htable globals fun d hd ↦ (hother d hd).1
    have hg' := htable' globals fun d hd ↦ (hother' d hd).1
    have hl := htable (w.context c).locals fun d hd ↦ (hother d hd).2 c rfl
    have hl' := htable' (w'.context c').locals fun d hd ↦ (hother' d hd).2 c' rfl
    refine .some ((hc.given o).of_still hu) ((hc'.given o').of_still hu') ?_ ?_ hbody he ?_ ?_
    · rw [hctx]
      exact htree
    · rw [hctx']
      exact htree'
    · rw [hg, hg', hglobals]
    · intro n hn
      rw [hg, hctx, hctx', hl, hl']
      exact hnames n hn

end World

namespace Interp

open Activity World

variable {N : String → Prop} {globals : TableId} {w w' : World} {r : Ref}

theorem holds_dict (I : Interp) {c : ContextId} {tree : Syntax.Module}
    (htree : (w.context c).tree = some tree) (r : Ref) :
    ∃ v, (w.give c (w.carried r)).Still v ∧ w.Matches v ∧
      I.holds (some c) (.dict r) w =
        (do return (← I.treeValue c tree).truth (← read (·.store))) v := by
  let clear (ctx : Context) : Context := { ctx with error := none, errorLong := none }
  have hclear : w.Still (w.updateContext c clear) := still_updateContext w c fun _ ↦ ⟨_, _, rfl⟩
  obtain ⟨error, errorLong, hc⟩ := hclear.contexts c
  -- emptying the record and giving the data do not meet
  have hswap : (w.updateContext c clear).give c (w.carried r) =
      (w.give c (w.carried r)).updateContext c clear := by
    unfold World.give
    rw [hclear.size, hc]
    split <;> rfl
  have hcleared : w.Matches (w.updateContext c clear) := rfl
  refine ⟨(w.updateContext c clear).give c (w.carried r), ?_,
    hcleared.trans (matches_give _ c _), ?_⟩
  · rw [hswap]
    exact still_updateContext _ c fun _ ↦ ⟨_, _, rfl⟩
  · have htree' : (((w.updateContext c clear).give c (w.carried r)).context c).tree =
        some tree := by
      rw [context_give, hc]
      exact htree
    show ((give c (.dict r) (w.updateContext c clear)).bind fun _ ↦ I.runTree c).bind _ = _
    rw [give_dict]
    show (I.runTree c ((w.updateContext c clear).give c (w.carried r))).bind _ = _
    rw [runTree_of_tree I htree']
    rfl

theorem holds_twin (n : Nat) {o o' : Option ContextId} (hrest : w.Matches w')
    (h : Twin N globals (w.carried r) w w' o o') :
    ∃ b u u', (upTo n).holds o (.dict r) w = .ended b u ∧
      (upTo n).holds o' (.dict r) w' = .ended b u' ∧ u.Matches u' ∧
      (w.given o (w.carried r)).Still u ∧ (w'.given o' (w.carried r)).Still u' := by
  cases h with
  | none => exact ⟨.ok true, w, w', rfl, rfl, hrest, .refl w, .refl w'⟩
  | @some c c' name tree pos e hc hc' htree htree' hbody he hglobals hnames =>
    have hcarried : w'.carried r = w.carried r := by
      rw [hrest]
      rfl
    obtain ⟨v, hv, hvrest, hholds⟩ := holds_dict (upTo n) htree r
    obtain ⟨v', hv', hvrest', hholds'⟩ := holds_dict (upTo n) htree' r
    rw [hcarried] at hv'
    have halike : Alike N c c' v v' := by
      have hcv := (hc.given (some c)).of_still hv
      have hcv' := (hc'.given (some c')).of_still hv'
      refine ⟨?_, hcv.function_eq, hcv'.function_eq, hcv'.name_eq.trans hcv.name_eq.symm,
        hcv'.file_eq.trans hcv.file_eq.symm, fun k hk ↦ ?_⟩
      · exact hvrest.symm.trans (hrest.trans hvrest')
      · rw [hv.bound?, hv'.bound?]
        show (w'.give c' _).bound? ((w'.give c' _).context c') _ =
          (w.give c _).bound? ((w.give c _).context c) _
        rw [context_give, context_give, hc.bound?_give, hc'.bound?_give, hglobals]
        rcases hnames k hk with hgiven | hglobal | hsame
        · rw [Table.get?_putAll_congr (.inl hgiven)]
        · obtain ⟨x, hx⟩ := Option.isSome_iff_exists.1 hglobal
          rw [hx]
          rfl
        · rw [Table.get?_putAll_congr (.inr hsame)]
    have hagree : Tandem (Alike N c c') Still ((upTo n).treeValue c tree)
        ((upTo n).treeValue c' tree) := by
      unfold treeValue
      rw [hbody]
      refine alike.bind (alike.guarded (agree_sequence n he _) _ _) fun flow ↦ ?_
      cases flow <;> exact alike.result _
    have htruth :=
      alike.bind hagree fun x ↦ alike.bind (alike.read (f := (·.store)) fun _ _ _ _ ↦ rfl) fun s ↦
      alike.result (x.truth s)
    obtain ⟨b, u, u', hend, hend', hstill, hstill', hafter⟩ := htruth v v' halike
    exact ⟨b, u, u', hholds.trans hend, hholds'.trans hend', hafter.rest, hv.trans hstill,
      hv'.trans hstill'⟩

theorem blind_activeNow (spec : Value) : Blind (activeNow spec) := by
  have hspecs : Blind (specsOf spec) := by
    refine (blind_read fun _ _ _ ↦ rfl).bind fun s ↦ ?_
    dsimp only
    split <;> exact blind_result _
  have hreading (x : Schedule.Reading Bool) : Blind (reading x) := by
    refine .bind (blind_each _ fun text ↦ ?_) fun _ ↦ blind_lift _
    exact fun w ↦ ⟨_, _, rfl, rfl, rfl, fun _ _ ↦ rfl⟩
  exact hspecs.bind fun specs ↦ blind_world_bind (fun w ↦ hreading _) fun _ _ _ ↦ rfl

theorem blind_launch (t : Trigger) (named : Value) : Blind (launch t named) := by
  unfold launch
  cases t.action with
  | none => exact blind_result ()
  | some f =>
    refine .bind (fun w ↦ ⟨_, _, rfl, rfl, rfl, fun _ _ ↦ rfl⟩) fun _ ↦ blind_result ()

def decided (t : Trigger) (named : Value) : Activity Unit := do
  let active ← (if t.timeActive.isNone then result true else activeNow t.timeActive)
  if active then launch t named

theorem blind_decided (t : Trigger) (named : Value) : Blind (decided t named) := by
  refine .bind ?_ fun b ↦ ?_
  · split
    · exact blind_result true
    · exact blind_activeNow _
  · split
    · exact blind_launch t named
    · exact blind_result ()

variable {b : Except Stop Bool} {I : Interp} {t t' : Trigger} {info : Value}

theorem decided_congr (haction : t'.action = t.action) (hcontext : t'.context = t.context)
    (htime : t'.timeActive = t.timeActive) (named : Value) :
    decided t' named = decided t named := by
  unfold decided launch
  rw [haction, hcontext, htime]

theorem onEvent_of_event {w u : World} (h : I.holds t.eventExpr info w = .ended b u)
    (hb : b ≠ .ok true) : I.onEvent t info w = .ended (b.map fun _ ↦ ()) u := by
  have hrun : I.onEvent t info w = ((I.holds t.eventExpr info w).bind _).bind _ := rfl
  rw [hrun, h]
  rcases b with e | _ | _
  · rfl
  · rfl
  · exact absurd rfl hb

theorem onEvent_of_active {w u v : World} (h : I.holds t.eventExpr info w = .ended (.ok true) u)
    (h' : I.holds t.activeExpr info u = .ended b v) (hb : b ≠ .ok true) :
    I.onEvent t info w = .ended (b.map fun _ ↦ ()) v := by
  have hrun : I.onEvent t info w = ((I.holds t.eventExpr info w).bind _).bind _ := rfl
  rw [hrun, h]
  show (((I.holds t.activeExpr info u).bind _).bind _) = _
  rw [h']
  rcases b with e | _ | _
  · rfl
  · rfl
  · exact absurd rfl hb

theorem onEvent_of_both {w u v : World} (h : I.holds t.eventExpr info w = .ended (.ok true) u)
    (h' : I.holds t.activeExpr info u = .ended (.ok true) v) :
    I.onEvent t info w = decided t info v := by
  have hrun : I.onEvent t info w = ((I.holds t.eventExpr info w).bind _).bind _ := rfl
  rw [hrun, h]
  show (((I.holds t.activeExpr info u).bind _).bind _) = _
  rw [h']
  rfl

theorem onEvent_twin (n : Nat) {M : String → Prop} (haction : t'.action = t.action)
    (hcontext : t'.context = t.context) (htime : t'.timeActive = t.timeActive)
    (hrest : w.Matches w')
    (hevent : Twin N globals (w.carried r) w w' t.eventExpr t'.eventExpr)
    (hactive : Twin M globals [] w w' t.activeExpr t'.activeExpr)
    (hapart : ∀ c ∈ t.eventExpr, (w.context c).locals ≠ globals ∧
      ∀ a ∈ t.activeExpr, (w.context c).locals ≠ (w.context a).locals)
    (hapart' : ∀ c ∈ t'.eventExpr, (w'.context c).locals ≠ globals ∧
      ∀ a ∈ t'.activeExpr, (w'.context c).locals ≠ (w'.context a).locals) :
    ∃ result u u', (upTo n).onEvent t (.dict r) w = .ended result u ∧
      (upTo n).onEvent t' (.dict r) w' = .ended result u' ∧ u.Matches u' ∧
      ∃ (a : Option ContextId) (es : List (Key × Value)), (∀ d ∈ a, d ∈ t.activeExpr) ∧
        ((w.given t.eventExpr (w.carried r)).given a es).Still u := by
  obtain ⟨b, u, u', hend, hend', hmatch, hstill, hstill'⟩ := holds_twin n hrest hevent
  by_cases hb : b = .ok true
  · subst hb
    have hactive' : Twin M globals (u.carried r) u u' t.activeExpr t'.activeExpr :=
      (hactive.of_given hstill hstill' hapart hapart').mono
    obtain ⟨b, v, v', hendv, hendv', hmatchv, hstillv, -⟩ := holds_twin n hmatch hactive'
    have hv := (hstill.given t.activeExpr (u.carried r)).trans hstillv
    by_cases hb : b = .ok true
    · subst hb
      obtain ⟨result, x, x', hx, hx', hstillx, -, hmatchx⟩ :=
        (blind_decided t (.dict r)).ended hmatchv
      rw [← decided_congr haction hcontext htime] at hx'
      exact ⟨result, x, x', (onEvent_of_both hend hendv).trans hx,
        (onEvent_of_both hend' hendv').trans hx', hmatchx, t.activeExpr, u.carried r, fun _ ↦ id,
        hv.trans hstillx⟩
    · exact ⟨_, v, v', onEvent_of_active hend hendv hb, onEvent_of_active hend' hendv' hb, hmatchv,
        t.activeExpr, u.carried r, fun _ ↦ id, hv⟩
  · exact ⟨_, u, u', onEvent_of_event hend hb, onEvent_of_event hend' hb, hmatch, none, [],
      (fun d hd ↦ by cases hd), hstill⟩

end Interp

/-! ### From event to event -/

def World.Legible (N : String → Prop) (w : World) (o : Option ContextId) : Prop :=
  ∀ c ∈ o, ∃ (tree : Syntax.Module) (pos : Position) (e : Expr),
    (w.context c).tree = some tree ∧ tree.body = [.expr pos e] ∧ Reads N e

namespace Trigger

open Interp World

variable {N M : String → Prop} {name : String} {cfg : TriggerConfig} {t : Trigger}
  {w₀ w₁ w u : World} {ds : List (List (Key × Value))} {entries : List (Key × Value)}

def Asks (t : Trigger) (c : ContextId) : Prop := c ∈ t.eventExpr ∨ c ∈ t.activeExpr

/-- The contexts of the trigger, and what they were given, are as they were. -/
structure Untouched (t : Trigger) (w u : World) : Prop where
  size_contexts : w.contexts.size ≤ u.contexts.size
  size_tables : w.tables.size ≤ u.tables.size
  context : ∀ c, t.Asks c → u.context c = w.context c
  table : ∀ c, t.Asks c → u.table (w.context c).locals = w.table (w.context c).locals

/-- The events that a trigger has heard since it was made, by what they carried. -/
inductive Heard (I : Interp) (t : Trigger) (w₁ : World) : List (List (Key × Value)) → World → Prop
  | made : Heard I t w₁ [] w₁
  | meanwhile {ds : List (List (Key × Value))} {w u : World} (h : Heard I t w₁ ds w)
      (hu : t.Untouched w u) : Heard I t w₁ ds u
  | event {ds : List (List (Key × Value))} {w u : World} {r : Ref} {result : Except Stop Unit}
      (h : Heard I t w₁ ds w) (hend : I.onEvent t (.dict r) w = .ended result u) :
      Heard I t w₁ (ds ++ [w.carried r]) u

/-- The condition on events has been given `entries` since the trigger was made. -/
structure Remembers (t : Trigger) (w₁ : World) (entries : List (Key × Value)) (w : World) :
    Prop where
  size_contexts : w₁.contexts.size ≤ w.contexts.size
  size_tables : w₁.tables.size ≤ w.tables.size
  context : ∀ c, t.Asks c → ∃ error errorLong, w.context c = { w₁.context c with error, errorLong }
  table : ∀ c ∈ t.eventExpr,
    w.table (w₁.context c).locals = (w₁.table (w₁.context c).locals).putAll entries

namespace Remembers

variable {c : ContextId}

theorem locals (h : t.Remembers w₁ entries w) (hc : t.Asks c) :
    (w.context c).locals = (w₁.context c).locals := by
  obtain ⟨_, _, hctx⟩ := h.context c hc
  rw [hctx]

theorem condition (h : t.Remembers w₁ entries w) (hc : t.Asks c) {globals : TableId}
    (hcondition : w₁.Condition name globals c) : w.Condition name globals c :=
  hcondition.of_context (h.context c hc) h.size_contexts h.size_tables

theorem tree (h : t.Remembers w₁ entries w) (hc : t.Asks c) :
    (w.context c).tree = (w₁.context c).tree := by
  obtain ⟨_, _, hctx⟩ := h.context c hc
  rw [hctx]

theorem refl (t : Trigger) (w₁ : World) : t.Remembers w₁ [] w₁ :=
  ⟨Nat.le_refl _, Nat.le_refl _, fun _ _ ↦ ⟨_, _, rfl⟩, fun _ _ ↦ rfl⟩

theorem of_untouched (h : t.Remembers w₁ entries w) (hu : t.Untouched w u) :
    t.Remembers w₁ entries u := by
  refine ⟨Nat.le_trans h.size_contexts hu.size_contexts, Nat.le_trans h.size_tables hu.size_tables,
    fun c hc ↦ ?_, fun c hc ↦ ?_⟩
  · rw [hu.context c hc]
    exact h.context c hc
  · rw [← h.table c hc, ← h.locals (.inl hc)]
    exact hu.table c (.inl hc)

end Remembers

theorem Made.condition (hmade : Made name cfg w₀ w₁ t) {c : ContextId} (hc : t.Asks c) :
    ∃ name, w₁.Condition name cfg.globals c := by
  rcases hc with hc | hc
  · exact ⟨_, (hmade.event c hc).condition⟩
  · exact ⟨_, (hmade.active c hc).condition⟩

theorem Untouched.of_extends (hmade : Made name cfg w₀ w₁ t) (h : t.Remembers w₁ entries w)
    (hext : w.Extends u) : t.Untouched w u := by
  refine ⟨hext.size_contexts, hext.size_tables, fun c hc ↦ ?_, fun c hc ↦ ?_⟩
  · obtain ⟨_, hcondition⟩ := hmade.condition hc
    exact hext.context c (h.condition hc hcondition).lt_size
  · obtain ⟨_, hcondition⟩ := hmade.condition hc
    exact hext.table _ (h.condition hc hcondition).locals_lt

theorem twin_self {globals : TableId} {o : Option ContextId} (ho : ∀ c ∈ o, t.Asks c)
    (h : t.Remembers w₁ entries w) (hlegible : w₁.Legible N o)
    (hcondition : ∀ c ∈ o, w₁.Condition name globals c) (es : List (Key × Value)) :
    Twin N globals es w w o o := by
  cases o with
  | none => exact .none
  | some c =>
    obtain ⟨tree, pos, e, htree, hbody, he⟩ := hlegible c rfl
    have hc := h.condition (ho c rfl) (hcondition c rfl)
    have htree' := (h.tree (ho c rfl)).trans htree
    exact .some hc hc htree' htree' hbody he rfl fun _ _ ↦ .inr (.inr rfl)

theorem apart_of_remembers (hmade : Made name cfg w₀ w₁ t) (h : t.Remembers w₁ entries w) :
    ∀ c ∈ t.eventExpr, (w.context c).locals ≠ cfg.globals ∧
      ∀ a ∈ t.activeExpr, (w.context c).locals ≠ (w.context a).locals := by
  intro c hc
  refine ⟨(h.condition (.inl hc) (hmade.event c hc).condition).locals_ne, fun a ha ↦ ?_⟩
  rw [h.locals (.inl hc), h.locals (.inr ha)]
  exact (hmade.apart c hc a ha).symm

variable {n : Nat}

theorem Remembers.event {r : Ref} {result : Except Stop Unit} (hmade : Made name cfg w₀ w₁ t)
    (hevent : w₁.Legible N t.eventExpr) (hactive : w₁.Legible M t.activeExpr)
    (h : t.Remembers w₁ entries w)
    (hend : (upTo n).onEvent t (.dict r) w = .ended result u) :
    t.Remembers w₁ (entries ++ w.carried r) u := by
  have hapart := apart_of_remembers hmade h
  obtain ⟨_, v, _, hv, -, -, a, es, ha, hstill⟩ := onEvent_twin n (r := r) rfl rfl rfl (.refl w)
    (twin_self (fun _ ↦ .inl) h hevent (fun c hc ↦ (hmade.event c hc).condition) _)
    (twin_self (fun _ ↦ .inr) h hactive (fun c hc ↦ (hmade.active c hc).condition) _) hapart hapart
  cases hend.symm.trans hv
  refine ⟨?_, ?_, fun c hc ↦ ?_, fun c hc ↦ ?_⟩
  · rw [hstill.size]
    simpa using h.size_contexts
  · rw [hstill.tables]
    simpa using h.size_tables
  · obtain ⟨error, errorLong, hctx⟩ := hstill.contexts c
    obtain ⟨_, _, hctx'⟩ := h.context c hc
    rw [context_given, context_given, hctx'] at hctx
    exact ⟨error, errorLong, hctx⟩
  · have hcondition := h.condition (.inl hc) (hmade.event c hc).condition
    have hother (d : ContextId) (hd : d ∈ a) :
        ((w.given t.eventExpr (w.carried r)).context d).locals ≠ (w.context c).locals := by
      rw [context_given]
      exact ((hapart c hc).2 d (ha d hd)).symm
    obtain ⟨d, hd⟩ : ∃ d, t.eventExpr = some d := ⟨c, hc⟩
    cases hd.symm.trans hc
    rw [← h.locals (.inl hc), hstill.table, table_given_of_ne hother, hd]
    show (w.give c _).table _ = _
    rw [table_give_self hcondition.lt_size hcondition.locals_lt, Table.putAll_append,
      h.locals (.inl hc), h.table c hc]

theorem Heard.remembers (hmade : Made name cfg w₀ w₁ t) (hevent : w₁.Legible N t.eventExpr)
    (hactive : w₁.Legible M t.activeExpr) (h : Heard (upTo n) t w₁ ds w) :
    t.Remembers w₁ ds.flatten w := by
  induction h with
  | made => exact .refl t w₁
  | meanwhile _ hu ih => exact ih.of_untouched hu
  | event _ hend ih =>
    rw [List.flatten_append, List.flatten_singleton]
    exact ih.event hmade hevent hactive hend

end Trigger

/-! ### The answer of a new trigger -/

/-- Two conditions of the same text. -/
inductive World.SameText (N : String → Prop) (w w' : World) :
    Option ContextId → Option ContextId → Prop
  | none : SameText N w w' none none
  | some {c c' : ContextId} {tree : Syntax.Module} {pos : Position} {e : Expr}
      (htree : (w.context c).tree = some tree) (htree' : (w'.context c').tree = some tree)
      (hbody : tree.body = [.expr pos e]) (he : Reads N e) : SameText N w w' (some c) (some c')

variable {o o' : Option ContextId} {N : String → Prop}

theorem World.SameText.legible {w w' : World} (h : SameText N w w' o o') : w.Legible N o := by
  intro c hc
  cases h with
  | none => cases hc
  | some htree _ hbody he =>
    cases hc
    exact ⟨_, _, _, htree, hbody, he⟩

theorem Trigger.Remembers.twin {name : String} {globals : TableId} {t : Trigger} {w₁ w w' : World}
    {heard entries : List (Key × Value)} (h : t.Remembers w₁ heard w') (ho : ∀ c ∈ o, t.Asks c)
    (hsame : World.SameText N w₁ w' o o') (hcondition : ∀ c ∈ o, w₁.Condition name globals c)
    (hfresh : ∀ c ∈ o', w.Fresh w' name globals c)
    (hplain : ∀ k, N k → k ∉ w.contextFunctions.map (·.1))
    (hnames : ∀ c ∈ o, ∀ k, N k → some k ∈ entries.map (·.1) ∨
      (w'.table globals).contains (some k) ∨
      (w'.table (w'.context c).locals).get? (some k) = none) :
        World.Twin N globals entries w' w' o o' := by
  cases hsame with
  | none => exact .none
  | @some c c' _ _ _ htree htree' hbody he =>
    have hc := h.condition (ho c rfl) (hcondition c rfl)
    refine .some hc (hfresh c' rfl).condition ((h.tree (ho c rfl)).trans htree) htree' hbody he rfl
      fun k hk ↦ ?_
    rw [(hfresh c' rfl).get?_locals k (hplain k hk)]
    exact hnames c rfl k hk

/-- **An event is answered as by a new trigger, if no condition mentions a name of an earlier event
that the event itself does not carry.** A trigger has heard events that carried the data `ds`. Now a
second trigger of the same configuration is made, whose conditions read the same and make no call,
and one more event comes. The table of what the first trigger's condition on the event was given has
all that was ever carried, later data over earlier. Still both triggers do the same if each name
that this condition mentions

* is carried by the last event, or
* is carried by no earlier event, or
* is among the globals,

and each name that the condition on states mentions is among the globals or has not been given to
it. Functions that exist once for each context are left out: they differ between any two
triggers. -/
theorem event_as_new {n : Nat} {N M : String → Prop} {name : String} {cfg : TriggerConfig}
    {w₀ w₁ w w' : World} {id id' : TriggerId} {t t' : Trigger} {ds : List (List (Key × Value))}
    {r : Ref}
    (hglobals : cfg.globals < w₀.tables.size)
    (hmade : Activity.newTrigger name cfg w₀ = .ended (.ok id) w₁) (ht : w₁.triggers[id]? = some t)
    (hheard : Trigger.Heard (Interp.upTo n) t w₁ ds w)
    (hnew : Activity.newTrigger name cfg w = .ended (.ok id') w')
    (ht' : w'.triggers[id']? = some t')
    (hevent : World.SameText N w₁ w' t.eventExpr t'.eventExpr)
    (hactive : World.SameText M w₁ w' t.activeExpr t'.activeExpr)
    (hplain : ∀ k, N k ∨ M k → k ∉ w₀.contextFunctions.map (·.1) ∧ k ∉ w.contextFunctions.map (·.1))
    (hcarried : ∀ k, N k → some k ∈ ds.flatten.map (·.1) →
      some k ∈ (w'.carried r).map (·.1) ∨ (w.table cfg.globals).contains (some k))
    (hgiven : ∀ k, M k → (w.table cfg.globals).contains (some k) ∨
      ∀ a ∈ t.activeExpr, (w.table (w.context a).locals).get? (some k) = none) :
    (∀ c ∈ t.eventExpr, w.table (w.context c).locals =
      (w₁.table (w₁.context c).locals).putAll ds.flatten) ∧
    ∃ result u u', (Interp.upTo n).onEvent t (.dict r) w' = .ended result u ∧
      (Interp.upTo n).onEvent t' (.dict r) w' = .ended result u' ∧
      u'.started = u.started ∧ u.Matches u' := by
  obtain ⟨_, h, hmade⟩ := Activity.newTrigger_ended hglobals hmade
  cases h.symm.trans ht
  have hremembers := hheard.remembers hmade hevent.legible hactive.legible
  have hglobals' : cfg.globals < w.tables.size := Nat.lt_of_lt_of_le hglobals
    (Nat.le_trans hmade.extends_.size_tables hremembers.size_tables)
  obtain ⟨_, h, hnew⟩ := Activity.newTrigger_ended hglobals' hnew
  cases h.symm.trans ht'
  have hext := hnew.extends_
  have huntouched := Trigger.Untouched.of_extends hmade hremembers hext
  have hremembers' := hremembers.of_untouched huntouched
  have hg : w'.table cfg.globals = w.table cfg.globals := hext.table _ hglobals'
  have heventTwin : World.Twin N cfg.globals (w'.carried r) w' w' t.eventExpr t'.eventExpr := by
    refine hremembers'.twin (fun _ ↦ .inl) hevent (fun c hc ↦ (hmade.event c hc).condition)
      hnew.event (fun k hk ↦ (hplain k (.inl hk)).2) fun c hc k hk ↦ ?_
    rw [hg]
    by_cases hearlier : some k ∈ ds.flatten.map (·.1)
    · exact (hcarried k hk hearlier).imp_right .inl
    · -- nothing has been said of the name since the trigger was made
      have hfresh := (hmade.event c hc).get?_locals k (hplain k (.inl hk)).1
      refine .inr (.inr ?_)
      rw [hremembers'.locals (.inl hc), hremembers'.table c hc,
        Table.get?_putAll_of_not_mem _ hearlier, hfresh]
  have hactiveTwin : World.Twin M cfg.globals [] w' w' t.activeExpr t'.activeExpr := by
    refine hremembers'.twin (fun _ ↦ .inr) hactive (fun c hc ↦ (hmade.active c hc).condition)
      hnew.active (fun k hk ↦ (hplain k (.inr hk)).2) fun a ha k hk ↦ ?_
    rw [hg]
    refine .inr ((hgiven k hk).imp_right fun hnone ↦ ?_)
    rw [huntouched.context a (.inr ha), huntouched.table a (.inr ha)]
    exact hnone a ha
  obtain ⟨result, u, u', hend, hend', hmatch, -⟩ := Interp.onEvent_twin n (r := r)
    (hnew.action.trans hmade.action.symm) (hnew.context.trans hmade.context.symm)
    (hnew.timeActive.trans hmade.timeActive.symm) (.refl w') heventTwin hactiveTwin
    (Trigger.apart_of_remembers hmade hremembers') (Trigger.apart_of_remembers hnew (.refl t' w'))
  refine ⟨fun c hc ↦ ?_, result, u, u', hend, hend', ?_, hmatch⟩
  · rw [hremembers.locals (.inl hc)]
    exact hremembers.table c hc
  · rw [hmatch]

/-! ### A trigger that heard a ring -/

namespace Activity

open Syntax (Module)

theorem newTrigger_text {name type source : String} {tree : Module} {action : Option Ref}
    {w u v : World} {c : ContextId} (hread : Module.read (.text source) = .ok tree)
    (hwatch : watchEvents (.text type) w.queues.size (w.addQueue ("trig " ++ name)).2 =
      .ended (.ok ()) u)
    (hfresh : freshContext ("trigger " ++ name ++ " " ++ "event_trigger") 0 u = .ended (.ok c) v) :
    newTrigger name { eventTrigger := .tuple [.text type, .text source], action } w =
      .ended (.ok v.triggers.size)
        { v.updateContext c fun ctx ↦ { ctx with file := noFile, tree := some tree } with
          triggers := v.triggers.push
            { name, queue := w.queues.size, eventExpr := some c, hasTrigger := true,
              eventTrigger := .tuple [.text type, .text source], action } } := by
  have hread' (d : ContextId) (x : World) : readScript d (.text source) noFile x = .ended (.ok true)
      (x.updateContext d fun ctx ↦ { ctx with file := noFile, tree := some tree }) := by
    unfold readScript
    rw [hread]
    rfl
  have hexpr : triggerExpression name "event_trigger" 0 (.text source) u = .ended (.ok (some c))
      (v.updateContext c fun ctx ↦ { ctx with file := noFile, tree := some tree }) :=
    bind_of_ended ((bind_of_ended hfresh).trans (bind_of_ended (hread' c v)))
  have htype (x : World) : op (Op.getItem (.tuple [.text type, .text source]) (.int 0)) x =
      .ended (.ok (.text type)) x := rfl
  have hsource (x : World) : op (Op.getItem (.tuple [.text type, .text source]) (.int 1)) x =
      .ended (.ok (.text source)) x := rfl
  have hevent (q : Notify.QueueId) (x : World) (hx : watchEvents (.text type) q x =
      .ended (.ok ()) u) :
      triggerEvent name 0 (.tuple [.text type, .text source]) q x = .ended (.ok (some c))
        (v.updateContext c fun ctx ↦ { ctx with file := noFile, tree := some tree }) :=
    calc triggerEvent name 0 (.tuple [.text type, .text source]) q x
      _ = (op (Op.getItem (.tuple [.text type, .text source]) (.int 0)) >>= fun kind ↦
          watchEvents kind q >>= fun _ ↦
            op (Op.getItem (.tuple [.text type, .text source]) (.int 1)) >>=
              triggerExpression name "event_trigger" 0) x := rfl
      _ = _ := (bind_of_ended (htype x)).trans ((bind_of_ended hx).trans
        ((bind_of_ended (hsource u)).trans hexpr))
  exact bind_of_ended (hevent _ _ hwatch)

end Activity

def Step.result? {α : Type} : Step α → Option α
  | .ended (.ok a) _ => some a
  | _ => none

theorem Step.eq_ended_of_result? {α : Type} {s : Step α} {a : α} (h : s.result? = some a) :
    s = .ended (.ok a) s.world := by
  cases s with
  | waiting _ _ _ => cases h
  | ended r w =>
    cases r with
    | error _ => cases h
    | ok b =>
      cases h
      rfl

namespace Ring

open Activity Interp

def tree : Syntax.Module := ⟨[.expr ⟨1, 0⟩ (.name ⟨1, 0⟩ "who" .load)]⟩

def isWho : Except Syntax.Refusal Syntax.Module → Bool
  | .ok ⟨[.expr ⟨1, 0⟩ (.name ⟨1, 0⟩ "who" .load)]⟩ => true
  | _ => false

theorem read_who : Syntax.Module.read (.text "who") = .ok tree := by
  have hwho : isWho (Syntax.Module.read (.text "who")) = true := by decide +kernel
  revert hwho
  unfold isWho
  split
  · rename_i h
    exact fun _ ↦ h
  · rintro ⟨⟩

def cfg : TriggerConfig := { eventTrigger := .tuple [.text "ring", .text "who"], action := some 0 }

/-- What triggers are told of a ring. -/
def ringing (data : Entries) : Object :=
  .dict ([(.text "trigger_type", .text "event"), (.text "event_type", .text "ring")] ++ data)

def start : World where
  start := default
  tables := #[{}]
  store :=
    { objects := #[ringing [(.text "who", .text "x")], ringing [(.text "who", .text "y")],
      ringing []] }

def watched (w : World) : Step Unit :=
  watchEvents (.text "ring") w.queues.size (w.addQueue ("trig " ++ "f")).2

def conditioned (w : World) : Step ContextId :=
  freshContext ("trigger " ++ "f" ++ " " ++ "event_trigger") 0 (watched w).world

def trigger (queue : Notify.QueueId) (c : ContextId) : Trigger :=
  { name := "f", queue, eventExpr := some c, hasTrigger := true, eventTrigger := cfg.eventTrigger,
    action := cfg.action }

def made (w : World) (c : ContextId) : World :=
  { (conditioned w).world.updateContext c fun ctx ↦
    { ctx with file := noFile, tree := some tree } with
    triggers := (conditioned w).world.triggers.push (trigger w.queues.size c) }

variable {c : ContextId} {w : World}

theorem newTrigger_made (hwatched : (watched w).result? = some ())
    (hconditioned : (conditioned w).result? = some c) :
    newTrigger "f" cfg w = .ended (.ok (conditioned w).world.triggers.size) (made w c) :=
  newTrigger_text read_who (Step.eq_ended_of_result? hwatched)
    (Step.eq_ended_of_result? hconditioned)

theorem tree_made (hc : c < (conditioned w).world.contexts.size) :
    ((made w c).context c).tree = some tree := by
  dsimp only [made, World.context, World.updateContext]
  rw [Array.getElem?_modify, if_pos rfl, Array.getElem?_eq_getElem hc]
  rfl

def first : World := made start 0

def heard : World := (full.onEvent (trigger 0 0) (.dict 0) first).world

def second : World := made heard 1

theorem evaluated :
    (watched start).result? = some () ∧ (conditioned start).result? = some 0 ∧
    (full.onEvent (trigger 0 0) (.dict 0) first).result? = some () ∧
    (watched heard).result? = some () ∧ (conditioned heard).result? = some 1 ∧
    0 < (conditioned start).world.contexts.size ∧ 1 < (conditioned heard).world.contexts.size := by
  decide

theorem heard_first : (trigger 0 0).Heard full first [first.carried 0] heard :=
  .event .made (Step.eq_ended_of_result? (a := ()) evaluated.2.2.1)

theorem newTrigger_first :
    newTrigger "f" cfg start = .ended (.ok (conditioned start).world.triggers.size) first :=
  newTrigger_made evaluated.1 evaluated.2.1

theorem newTrigger_second :
    newTrigger "f" cfg heard = .ended (.ok (conditioned heard).world.triggers.size) second :=
  newTrigger_made evaluated.2.2.2.1 evaluated.2.2.2.2.1

theorem sameText_second :
    World.SameText (· = "who") first second (trigger 0 0).eventExpr (trigger 1 1).eventExpr :=
  .some (tree_made evaluated.2.2.2.2.2.1) (tree_made evaluated.2.2.2.2.2.2) rfl (.name rfl)

end Ring

/-- A trigger that heard of `x` hears of `y`, and does what a new one does: it starts its
function. -/
theorem event_as_new_ring : ∃ result u u',
    Interp.full.onEvent (Ring.trigger 0 0) (.dict 1) Ring.second = .ended result u ∧
    Interp.full.onEvent (Ring.trigger 1 1) (.dict 1) Ring.second = .ended result u' ∧
    u'.started = u.started ∧ u.Matches u' :=
  (event_as_new (N := (· = "who")) (M := fun _ ↦ False) (by decide) Ring.newTrigger_first
    Array.getElem?_push_size Ring.heard_first Ring.newTrigger_second Array.getElem?_push_size
    Ring.sameText_second .none
    (by
      rintro k (rfl | h)
      · decide
      · exact h.elim)
    (by
      rintro k rfl _
      exact .inl (by decide))
    fun _ h ↦ h.elim).2

/-- **A condition sees data of an earlier event.** A trigger that heard of `x` starts its function
once more for a ring that says no more. A new trigger of the same configuration does not. -/
theorem stale_name_starts :
    Activity.newTrigger "f" Ring.cfg Ring.start =
      .ended (.ok (Ring.conditioned Ring.start).world.triggers.size) Ring.first ∧
    (Ring.trigger 0 0).Heard Interp.full Ring.first [Ring.first.carried 0] Ring.heard ∧
    Activity.newTrigger "f" Ring.cfg Ring.heard =
      .ended (.ok (Ring.conditioned Ring.heard).world.triggers.size) Ring.second ∧
    (Ring.second.carried 2).map (·.1) = [some "trigger_type", some "event_type"] ∧
    ∃ u u', Interp.full.onEvent (Ring.trigger 0 0) (.dict 2) Ring.second = .ended (.ok ()) u ∧
      Interp.full.onEvent (Ring.trigger 1 1) (.dict 2) Ring.second = .ended (.ok ()) u' ∧
      u.started.length = Ring.second.started.length + 1 ∧
      u'.started.length = Ring.second.started.length := by
  exact ⟨Ring.newTrigger_first, Ring.heard_first, Ring.newTrigger_second, by decide, _, _,
    Step.eq_ended_of_result? (by decide), Step.eq_ended_of_result? (by decide), by decide, by
      decide⟩

end TriggerScript
