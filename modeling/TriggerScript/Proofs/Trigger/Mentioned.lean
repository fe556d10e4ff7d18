import TriggerScript.Proofs.Notify.State
import TriggerScript.Proofs.Trigger.Memory

/-!
# What a condition on states is registered for

The queue of a condition is registered under the entities of the names that its script mentions.
This fails exactly if an attribute of something without a name is mentioned, as in `f(x).a`
(`Activity.newTrigger_states`). A name that is evaluated looks at the entity of its whole name, and
then at that of the name without its last part (`Activity.Ignores`, `Interp.ignores_reference`). So
an entity that no name belongs to makes no difference, with one exception: `a.b.c.d` may look at
`a.b`, and belongs to no entity itself (`registered_for_mentioned`).
-/

namespace TriggerScript

open Notify (QueueId entityOf? entities parts)
open Syntax (Expr Access)

/-! ### Entities of names -/

namespace Notify

theorem mem_entities {names : List (Option String)} (h : none ∉ names) {e : String} :
    e ∈ entities names ↔ ∃ n, some n ∈ names ∧ entityOf? n = some e := by
  induction names with
  | nil => simp
  | cons name names ih =>
    cases name with
    | none => exact absurd List.mem_cons_self h
    | some name =>
      have hrest : none ∉ names := fun hmem ↦ h (List.mem_cons_of_mem _ hmem)
      rw [entities_some, List.mem_append, ih hrest]
      simp [or_and_right, exists_or]

theorem splitAtChar_ne_nil (sep : Char) (cs : List Char) : Text.splitAtChar sep cs ≠ [] := by
  fun_cases Text.splitAtChar sep cs <;> simp

theorem splitAtChar_append (sep : Char) (cs ds : List Char) :
    Text.splitAtChar sep (cs ++ sep :: ds) = Text.splitAtChar sep cs ++
      Text.splitAtChar sep ds := by
  induction cs with
  | nil => simp [Text.splitAtChar]
  | cons c cs ih =>
    rw [List.cons_append, Text.splitAtChar, Text.splitAtChar, ih]
    split
    · rfl
    · obtain ⟨piece, pieces, hcs⟩ := List.exists_cons_of_ne_nil (splitAtChar_ne_nil sep cs)
      rw [hcs]
      rfl

theorem parts_ne_nil (name : String) : parts name ≠ [] := by
  simpa [parts] using splitAtChar_ne_nil '.' name.toList

theorem parts_dot (owner attr : String) :
    parts (owner ++ "." ++ attr) = parts owner ++ parts attr := by
  have hchars : (owner ++ "." ++ attr).toList = owner.toList ++ '.' :: attr.toList := by
    simp [String.toList_append]
  rw [parts, hchars, splitAtChar_append, List.map_append, parts, parts]

theorem entityOf?_eq_some {name e : String} (h : entityOf? name = some e) :
    ∃ domain entity rest, parts name = domain :: entity :: rest ∧ domain ++ "." ++ entity = e := by
  unfold entityOf? at h
  split at h
  · rename_i domain entity hparts
    exact ⟨domain, entity, [], hparts, by simpa using h⟩
  · grind
  · cases h

theorem entityOf?_dot {owner attr e e' : String} (howner : entityOf? owner = some e)
    (hname : entityOf? (owner ++ "." ++ attr) = some e') : e = e' := by
  obtain ⟨domain, entity, rest, hparts, rfl⟩ := entityOf?_eq_some howner
  obtain ⟨domain', entity', rest', hparts', rfl⟩ := entityOf?_eq_some hname
  rw [parts_dot, hparts] at hparts'
  cases hparts'
  rfl

end Notify

/-! ### Registration -/

/-- The queue is enlisted for the entities of `names`. -/
def World.Enlists (names : List (Option String)) (q : QueueId) (w w' : World) : Prop :=
  ∀ e, w'.stateTable.watchersOf e =
    if e ∈ entities names then TriggerScript.assign (w.stateTable.watchersOf e) q (.names names)
    else w.stateTable.watchersOf e

def World.SameStates (w w' : World) : Prop := w'.stateTable = w.stateTable

variable {x : Expr} {names : List (Option String)} {w w' w₁ : World}

theorem World.Enlists.of_same {q : QueueId} (h : w.Enlists names q w₁) (hsame : w₁.SameStates w') :
    w.Enlists names q w' := by
  intro e
  rw [hsame]
  exact h e

theorem World.SameStates.refl (w : World) : w.SameStates w := rfl

theorem World.SameStates.trans (h : w.SameStates w₁) (h' : w₁.SameStates w') : w.SameStates w' :=
  Eq.trans h' h

namespace Activity

open Notify.StateTable (noParts)

variable {q : QueueId} {w : World}

theorem watchStates_names (names : List (Option String)) (q : QueueId) (w : World) :
    ∃ w', watchStates (.names names) q w =
      .ended (if none ∈ names then .error (.raised noParts) else .ok ()) w' ∧
        w.Enlists names q w' := by
  refine ⟨{ w with stateTable := (w.stateTable.add (.names names) q).1 }, ?_, ?_⟩
  · have hfault : (w.stateTable.add (.names names) q).2 = if none ∈ names then some noParts
        else none :=
      w.stateTable.addNames_fault (.names names) q names
    rw [Notify.watchStates_eq, hfault]
    by_cases hnone : none ∈ names <;> simp [hnone]
  · exact fun e ↦ w.stateTable.watchersOf_addNames (.names names) q names e

theorem enlists_nil (q : QueueId) (w : World) : w.Enlists [] q w := fun e ↦ by simp

variable {c : ContextId} {m : Syntax.Module} (htree : (w.context c).tree = some m)

include htree

theorem mentioned_apply : mentioned c w = .ended (.ok m.names) w := by
  show Step.ended (.ok (((w.context c).tree.map (·.names)).getD [])) w = _
  rw [htree]
  rfl

theorem watchNames_apply (q : QueueId) :
    ∃ w', (do Interp.watchNames (← Interp.watchedNames (some c)) q : Activity Unit) w =
      .ended (if none ∈ m.names then .error (.raised noParts) else .ok ()) w' ∧
      w.Enlists m.names q w' := by
  have hbind : (do Interp.watchNames (← Interp.watchedNames (some c)) q : Activity Unit) w =
      Interp.watchNames m.names q w := bind_of_ended (mentioned_apply htree)
  rw [hbind, Interp.watchNames]
  cases hnames : m.names with
  | nil => exact ⟨w, rfl, enlists_nil q w⟩
  | cons n ns => exact watchStates_names (n :: ns) q w

theorem triggerStates_apply (q : QueueId) :
    ∃ w', triggerStates (some c) q w =
      .ended (if none ∈ m.names then .error (.raised noParts) else .ok (some m.names)) w' ∧
      w.Enlists m.names q w' := by
  cases hnames : m.names with
  | nil =>
    refine ⟨w, (bind_of_ended (mentioned_apply htree)).trans ?_, enlists_nil q w⟩
    rw [hnames]
    rfl
  | cons n ns =>
    obtain ⟨w', hend, henlists⟩ := watchStates_names (n :: ns) q w
    refine ⟨w', (bind_of_ended (mentioned_apply htree)).trans ?_, henlists⟩
    rw [hnames]
    show (watchStates (.names (n :: ns)) q w).bind _ = _
    rw [hend]
    split <;> rfl

omit htree

variable {source : String} {cfg : TriggerConfig}

theorem expressionContext_text {name : String} {globals : TableId}
    (hread : Syntax.Module.read (.text source) = .ok m) (w : World) :
    ∃ c w', expressionContext (newContext name globals) (.text source) w = .ended (.ok c) w' ∧
      (w'.context c).tree = some m ∧ w'.stateTable = w.stateTable := by
  obtain ⟨c, w₁, hfresh, -, -, hstates⟩ := succeeds_freshContext name globals w
  obtain ⟨rfl, -, hcontexts, -⟩ := freshContext_ended hfresh
  have hscript : readScript w.contexts.size (.text source) noFile w₁ =
      .ended (.ok true) (w₁.updateContext w.contexts.size
        fun ctx ↦ { ctx with file := noFile, tree := some m }) := by
    rw [readScript, hread]
    rfl
  refine ⟨w.contexts.size, _, (bind_of_ended hfresh).trans
    ((bind_of_ended (x := sourceOf (.text source)) rfl).trans (bind_of_ended hscript)), ?_, hstates⟩
  simp [World.context, World.updateContext, hcontexts, modify_push_size]

theorem immediate_triggerEvent (trigger : String) (globals : TableId) (event : Value)
    (q : QueueId) : (triggerEvent trigger globals event q).Immediate World.SameStates := by
  have hop {α : Type} (x : Op α) : (op x).Immediate World.SameStates :=
    immediate_op (fun _ _ ↦ rfl) x
  have hread {α : Type} (f : World → α) : (read f).Immediate World.SameStates :=
    immediate_read .refl f
  have hwatch (type : Value) : (watchEvents type q).Immediate World.SameStates := by
    refine .bind ?_ (fun _ _ _ ↦ .trans) fun type ↦ fun w ↦ ⟨_, _, rfl, rfl⟩
    exact (immediate_lift .refl _).bind (fun _ _ _ ↦ .trans) fun _ ↦ hop _
  have hsize : (sizeOf event).Immediate World.SameStates := by
    refine .bind (hread _) (fun _ _ _ ↦ .trans) fun s ↦ ?_
    cases event.size? s with
    | none => exact immediate_raise .refl _
    | some n => exact hread _
  have hexpression (source : Value) :
      (triggerExpression trigger "event_trigger" globals source).Immediate World.SameStates := by
    intro w
    obtain ⟨c, w', hend, -, -, hstates⟩ :=
      succeeds_triggerExpression trigger "event_trigger" globals source w
    exact ⟨_, w', hend, hstates⟩
  unfold triggerEvent
  split
  · exact hread _
  · refine (hop _).bind (fun _ _ _ ↦ .trans) fun type ↦
      (hwatch type).bind (fun _ _ _ ↦ .trans) fun _ ↦
      hsize.bind (fun _ _ _ ↦ .trans) fun size ↦ ?_
    split
    · exact (hop _).bind (fun _ _ _ ↦ .trans) hexpression
    · exact hread _

theorem newTrigger_cases (hcfg : cfg.stateTrigger = .text source)
    (hread : Syntax.Module.read (.text source) = .ok m) (name : String) (w : World) :
    ∃ w₁, w.Enlists m.names w.queues.size w₁ ∧
      (none ∈ m.names → newTrigger name cfg w = .ended (.error (.raised noParts)) w₁) ∧
      (none ∉ m.names → ∃ k : Option ContextId → World → Step TriggerId,
        newTrigger name cfg w =
          (triggerEvent name cfg.globals cfg.eventTrigger w.queues.size w₁).bind k ∧
        ∀ eventExpr w, ∃ t w', k eventExpr w = .ended (.ok t) w' ∧ w.SameStates w') := by
  have hqueue : modifyGet (·.addQueue ("trig " ++ name)) w =
      .ended (.ok w.queues.size) (w.addQueue ("trig " ++ name)).2 := rfl
  obtain ⟨activeExpr, w₂, hactive, -, -, hstates₂⟩ := succeeds_triggerExpression name "state_active"
    cfg.globals cfg.stateActive (w.addQueue ("trig " ++ name)).2
  obtain ⟨c, w₃, hctx, htree, hstates₃⟩ := expressionContext_text hread w₂
  have hstate : triggerExpression name "state_trigger" cfg.globals cfg.stateTrigger w₂ =
      .ended (.ok (some c)) w₃ := by
    rw [hcfg]
    exact bind_of_ended hctx
  obtain ⟨w₄, hregister, henlists⟩ := triggerStates_apply htree w.queues.size
  have henlists : w.Enlists m.names w.queues.size w₄ := by
    have hstates : w₃.stateTable = w.stateTable := hstates₃.trans hstates₂
    rwa [World.Enlists, hstates] at henlists
  have hhead : newTrigger name cfg w = (triggerStates (some c) w.queues.size w₃).bind _ :=
    (bind_of_ended hqueue).trans ((bind_of_ended hactive).trans (bind_of_ended hstate))
  rw [hregister] at hhead
  refine ⟨w₄, henlists, fun hnone ↦ ?_, fun hnone ↦ ?_⟩
  · rw [if_pos hnone] at hhead
    exact hhead
  · rw [if_neg hnone] at hhead
    exact ⟨_, hhead, fun eventExpr w ↦ ⟨_, _, rfl, rfl⟩⟩

theorem newTrigger_states (hcfg : cfg.stateTrigger = .text source)
    (hread : Syntax.Module.read (.text source) = .ok m) (name : String) (w : World) :
    ∃ r w', newTrigger name cfg w = .ended r w' ∧ w.Enlists m.names w.queues.size w' ∧
      (none ∈ m.names → r = .error (.raised noParts)) ∧
      (none ∉ m.names → cfg.eventTrigger = .none → ∃ t, r = .ok t) := by
  obtain ⟨w₁, henlists, hmissing, hwhole⟩ := newTrigger_cases hcfg hread name w
  by_cases hnone : none ∈ m.names
  · exact ⟨_, w₁, hmissing hnone, henlists, fun _ ↦ rfl, fun h ↦ absurd hnone h⟩
  · obtain ⟨k, heq, hk⟩ := hwhole hnone
    obtain ⟨r, w₂, hevent, hstates₂⟩ :=
      immediate_triggerEvent name cfg.globals cfg.eventTrigger w.queues.size w₁
    rw [hevent] at heq
    cases r with
    | error e =>
      refine ⟨.error e, w₂, heq, henlists.of_same hstates₂, fun h ↦ absurd h hnone, fun _ hcfg ↦ ?_⟩
      rw [hcfg] at hevent
      cases hevent
    | ok eventExpr =>
      obtain ⟨t, w₃, hend, hstates₃⟩ := hk eventExpr w₂
      exact ⟨.ok t, w₃, heq.trans hend, (henlists.of_same hstates₂).of_same hstates₃,
        fun h ↦ absurd h hnone, fun _ _ ↦ ⟨t, rfl⟩⟩

end Activity

/-! ### Reading -/

namespace World

variable {w : World} {e n : String} {states : List (String × EntityState)}

def withStates (w : World) (states : List (String × EntityState)) : World :=
  { w with host := { w.host with states } }

theorem variableValue?_withStates (hstates : ∀ k, k ≠ e → states.lookup k = w.host.states.lookup k)
    (hn : ∀ entity, entityOf? n = some entity → foldName entity ≠ e) :
    (w.withStates states).variableValue? n = w.variableValue? n := by
  have hstate {entity : String} (hentity : entityOf? n = some entity) :
      (w.withStates states).host.state? entity = w.host.state? entity :=
    hstates _ (hn entity hentity)
  unfold variableValue?
  split
  · rename_i domain entity hparts
    rw [hstate (by rw [entityOf?, hparts])]
  · rename_i domain entity attr hparts
    rw [hstate (by rw [entityOf?, hparts])]
    rfl
  · rfl

theorem nameValue_withStates (hstates : ∀ k, k ≠ e → states.lookup k = w.host.states.lookup k)
    (hn : ∀ entity, entityOf? n = some entity → foldName entity ≠ e) (ctx : Context) :
    (w.withStates states).nameValue ctx n = w.nameValue ctx n := by
  have hvalue := variableValue?_withStates hstates hn
  have houter : (w.withStates states).outer n = w.outer n := by
    unfold outer variableExists
    rw [hvalue]
    rfl
  unfold nameValue
  rw [houter]
  rfl

end World

namespace Activity

variable {α β : Type} {e : String}

/-- `x` does the same whatever the state of `e` is. -/
def Ignores (e : String) (x : Activity α) : Prop :=
  ∀ (w : World) (states : List (String × EntityState)),
    (∀ k, k ≠ e → states.lookup k = w.host.states.lookup k) →
      ∃ r w', x w = .ended r w' ∧ w'.host.states = w.host.states ∧
        x (w.withStates states) = .ended r (w'.withStates states)

theorem Ignores.bind {x : Activity α} {f : α → Activity β} (hx : x.Ignores e)
    (hf : ∀ a, (f a).Ignores e) : (x >>= f).Ignores e := by
  intro w states hstates
  obtain ⟨r, w₁, hend, hsame, hend'⟩ := hx w states hstates
  cases r with
  | error s =>
    refine ⟨.error s, w₁, ?_, hsame, ?_⟩
    · show (x w).bind f = _
      rw [hend]
      rfl
    · show (x (w.withStates states)).bind f = _
      rw [hend']
      rfl
  | ok a =>
    obtain ⟨r, w', hsecond, hsame', hsecond'⟩ := hf a w₁ states (hsame ▸ hstates)
    exact ⟨r, w', (bind_of_ended hend).trans hsecond, hsame'.trans hsame,
      (bind_of_ended hend').trans hsecond'⟩

theorem ignores_pure (a : α) : (pure a : Activity α).Ignores e :=
  fun w _ _ ↦ ⟨.ok a, w, rfl, rfl, rfl⟩

theorem ignores_op (x : Op α) : (op x).Ignores e := by
  intro w states _
  unfold op World.withStates
  dsimp only
  generalize x.run.run w.store = p
  obtain ⟨r, s⟩ := p
  cases r <;> exact ⟨_, _, rfl, rfl, rfl⟩

theorem ignores_memberOf (v : Value) (attr : String) (f : Value → Op α) :
    (Interp.memberOf v attr f).Ignores e := by
  intro w states hstates
  have hmember (u : World) : Interp.memberOf v attr f u =
      (if leadsInside u.store v attr then outOfFuel else op (f v)) u := rfl
  have hstore : (w.withStates states).store = w.store := rfl
  rw [hmember, hmember, hstore]
  split
  · exact ⟨_, w, rfl, rfl, rfl⟩
  · exact ignores_op (f v) w states hstates

theorem ignores_keyValue {n : String}
    (hn : ∀ entity, entityOf? n = some entity → foldName entity ≠ e) (c : ContextId) :
    (Interp.keyValue c (some n)).Ignores e := by
  intro w states hstates
  have hkey (u : World) : Interp.keyValue c (some n) u = lift (u.nameValue (u.context c) n) u := rfl
  have hname : (w.withStates states).nameValue ((w.withStates states).context c) n =
      w.nameValue (w.context c) n := World.nameValue_withStates hstates hn _
  rw [hkey, hkey, hname]
  cases w.nameValue (w.context c) n <;> exact ⟨_, w, rfl, rfl, rfl⟩

end Activity

def Syntax.Expr.owner? : Expr → Option String
  | member _ value _ _ => value.dottedName?
  | _ => none

theorem Syntax.Expr.eq_of_owner? {n owner : String} (hx : x.dottedName? = some n)
    (howner : x.owner? = some owner) : ∃ attr, n = owner ++ "." ++ attr := by
  cases x with
  | member pos value attr access =>
    have hvalue : value.dottedName? = some owner := howner
    exact ⟨attr, by simpa [dottedName?, hvalue, eq_comm] using hx⟩
  | _ => cases howner

theorem Syntax.Expr.entityOf?_owner {n e e' : String} (hx : x.dottedName? = some n)
    (howner : x.owner?.bind entityOf? = some e) (hn : entityOf? n = some e') : e = e' := by
  obtain ⟨owner, howner, he⟩ := Option.bind_eq_some_iff.1 howner
  obtain ⟨attr, rfl⟩ := eq_of_owner? hx howner
  exact Notify.entityOf?_dot he hn

theorem Syntax.Expr.entityOf?_isSome_of_owner {n : String} (hx : x.dottedName? = some n)
    (hparts : (Notify.parts n).length ≤ 3) (howner : (x.owner?.bind entityOf?).isSome) :
    (entityOf? n).isSome := by
  obtain ⟨e, howner⟩ := Option.isSome_iff_exists.1 howner
  obtain ⟨owner, howner, he⟩ := Option.bind_eq_some_iff.1 howner
  obtain ⟨attr, rfl⟩ := eq_of_owner? hx howner
  obtain ⟨domain, entity, rest, howner, -⟩ := Notify.entityOf?_eq_some he
  obtain ⟨part, more, hattr⟩ := List.exists_cons_of_ne_nil (Notify.parts_ne_nil attr)
  have hall : Notify.parts (owner ++ "." ++ attr) = domain :: entity :: rest ++ part :: more := by
    rw [Notify.parts_dot, howner, hattr]
  rw [hall] at hparts
  obtain ⟨rfl, rfl⟩ : rest = [] ∧ more = [] := by
    simp only [← List.length_eq_zero_iff]
    grind
  simp [entityOf?, hall]

namespace Interp

open Activity

variable {e n : String}

theorem ignores_nameNode (hn : ∀ entity, entityOf? n = some entity → foldName entity ≠ e)
    (c : ContextId) (access : Access) : (nameNode c n access).Ignores e := by
  cases access with
  | load => exact ignores_keyValue hn c
  | store | delete => exact ignores_pure _

theorem ignores_reference (I : Interp) (c : ContextId) {x : Expr} (hx : x.dottedName? = some n)
    (hn : ∀ entity, entityOf? n = some entity → foldName entity ≠ e)
    (howner : ∀ entity, x.owner?.bind entityOf? = some entity → foldName entity ≠ e) :
    (I.expression c x).Ignores e := by
  cases x with
  | name pos id access =>
    obtain rfl : id = n := by simpa [Expr.dottedName?] using hx
    exact ignores_nameNode hn c access
  | member pos value attr access =>
    cases hvalue : value.dottedName? with
    | none => simp [Expr.dottedName?, hvalue] at hx
    | some owner =>
      have howner : ∀ entity, entityOf? owner = some entity → foldName entity ≠ e := by
        simpa [Syntax.Expr.owner?, hvalue] using howner
      show (I.memberNode c (.member pos value attr access) value attr access).Ignores e
      unfold memberNode
      rw [hx, hvalue]
      refine (ignores_nameNode hn c access).bind fun v ↦ ?_
      split
      · exact (ignores_nameNode howner c access).bind fun v ↦ ignores_memberOf _ _ _
      · exact ignores_pure _
  | _ => cases hx

end Interp

/-- **What a condition on states is registered for, and what it looks at.** A new trigger and a task
that waits are registered under the entities of the names that are mentioned, and fail if an
attribute of something without a name is. Otherwise an entity that no name belongs to, in whatever
case, makes no difference to what is mentioned, be it evaluated or changed in place, unless it is an
attribute whose owner belongs to an entity and that belongs to none. -/
theorem registered_for_mentioned {source : String} {m : Syntax.Module}
    (hread : Syntax.Module.read (.text source) = .ok m) :
    (∀ (name : String) (cfg : TriggerConfig) (w : World), cfg.stateTrigger = .text source →
      ∃ r w', Activity.newTrigger name cfg w = .ended r w' ∧ w.Enlists m.names w.queues.size w' ∧
        ((∃ x, m.Mentions x ∧ x.dottedName? = none) →
          r = .error (.raised Notify.StateTable.noParts)) ∧
        ((∀ x, m.Mentions x → x.dottedName? ≠ none) → cfg.eventTrigger = .none → ∃ t, r = .ok t)) ∧
    (∀ (c : ContextId) (q : QueueId) (w : World), (w.context c).tree = some m →
      ∃ r w', (do Interp.watchNames (← Interp.watchedNames (some c)) q : Activity Unit) w =
        .ended r w' ∧ w.Enlists m.names q w' ∧
        ((∃ x, m.Mentions x ∧ x.dottedName? = none) →
          r = .error (.raised Notify.StateTable.noParts)) ∧
        ((∀ x, m.Mentions x → x.dottedName? ≠ none) → r = .ok ())) ∧
    ((∀ x, m.Mentions x → x.dottedName? ≠ none) →
      (∀ e, e ∈ entities m.names ↔
        ∃ x n, m.Mentions x ∧ x.dottedName? = some n ∧ entityOf? n = some e) ∧
      ∀ x n, m.Mentions x → x.dottedName? = some n →
        ((x.owner?.bind entityOf?).isSome → (entityOf? n).isSome) →
        ∀ e, (∀ entity ∈ entities m.names, foldName entity ≠ e) →
          ∀ c, (Interp.full.node c x).Ignores e ∧ (Interp.keyValue c (some n)).Ignores e) := by
  have hmissing : (∃ x, m.Mentions x ∧ x.dottedName? = none) ↔ none ∈ m.names :=
    Syntax.Module.mem_names_iff.symm
  have hwhole : (∀ x, m.Mentions x → x.dottedName? ≠ none) ↔ none ∉ m.names := by
    rw [← hmissing]
    simp
  simp only [hmissing, hwhole]
  refine ⟨fun name cfg w hcfg ↦ Activity.newTrigger_states hcfg hread name w, fun c q w htree ↦ ?_,
    fun hnone ↦ ?_⟩
  · obtain ⟨w', hend, henlists⟩ := Activity.watchNames_apply htree q
    exact ⟨_, w', hend, henlists, fun h ↦ if_pos h, fun h ↦ if_neg h⟩
  · have hentities (e : String) : e ∈ entities m.names ↔
        ∃ x n, m.Mentions x ∧ x.dottedName? = some n ∧ entityOf? n = some e := by
      rw [Notify.mem_entities hnone]
      simp only [Syntax.Module.mem_names_iff]
      constructor
      · rintro ⟨n, ⟨x, hx, hname⟩, he⟩
        exact ⟨x, n, hx, hname, he⟩
      · rintro ⟨x, n, hx, hname, he⟩
        exact ⟨n, ⟨x, hx, hname⟩, he⟩
    refine ⟨hentities, fun x n hx hname hown e he c ↦ ?_⟩
    have hn : ∀ entity, entityOf? n = some entity → foldName entity ≠ e := fun entity hentity ↦
      he entity ((hentities entity).2 ⟨x, n, hx, hname, hentity⟩)
    refine ⟨Interp.ignores_reference (Interp.upTo (Interp.depth - 1)) c hname hn
      fun entity hentity ↦ ?_, Activity.ignores_keyValue hn c⟩
    obtain ⟨entity', hentity'⟩ := Option.isSome_iff_exists.1 (hown (by rw [hentity]; rfl))
    obtain rfl := Syntax.Expr.entityOf?_owner hname hentity hentity'
    exact hn entity hentity'

theorem Syntax.Module.exists_of_names {source : Syntax.Source.Given}
    (h : (Syntax.Module.read source).toOption.map (·.names) = some names) :
    ∃ m, Syntax.Module.read source = .ok m ∧ m.names = names := by
  cases hread : Syntax.Module.read source with
  | error => simp [hread, Except.toOption] at h
  | ok m => exact ⟨m, rfl, by simpa [hread, Except.toOption] using h⟩

theorem registered_for_mentioned_lights :
    ∃ m, Syntax.Module.read (.text "light.a == 'on' and int(sensor.b.level) > 3") = .ok m ∧
      (∀ (name : String) (w : World), ∃ t w', Activity.newTrigger name
          { stateTrigger := .text "light.a == 'on' and int(sensor.b.level) > 3" } w =
            .ended (.ok t) w' ∧
        w.Enlists [some "light.a", some "int", some "sensor.b.level"] w.queues.size w') ∧
      ∀ e ∉ ["light.a", "sensor.b"], ∀ x, m.Mentions x → ∀ c, (Interp.full.node c x).Ignores e := by
  obtain ⟨m, hread, hnames⟩ : ∃ m,
      Syntax.Module.read (.text "light.a == 'on' and int(sensor.b.level) > 3") = .ok m ∧
        m.names = [some "light.a", some "int", some "sensor.b.level"] :=
    Syntax.Module.exists_of_names (by decide +kernel)
  have hdotted {x : Expr} (hx : m.Mentions x) : x.dottedName? ∈ m.names :=
    Syntax.Module.mem_names_iff.2 ⟨x, hx, rfl⟩
  rw [hnames] at hdotted
  have hwhole (x : Expr) (hx : m.Mentions x) : x.dottedName? ≠ none := by
    intro hnone
    have := hdotted hx
    simp [hnone] at this
  obtain ⟨hmade, -, hseen⟩ := registered_for_mentioned hread
  refine ⟨m, hread, fun name w ↦ ?_, fun e he x hx c ↦ ?_⟩
  · obtain ⟨r, w', hend, henlists, -, hok⟩ := hmade name { stateTrigger := _ } w rfl
    obtain ⟨t, rfl⟩ := hok hwhole rfl
    exact ⟨t, w', hend, hnames ▸ henlists⟩
  · obtain ⟨n, hn⟩ := Option.ne_none_iff_exists'.1 (hwhole x hx)
    have hmem := hdotted hx
    rw [hn] at hmem
    have hparts : (parts n).length ≤ 3 := by
      have hall : ∀ name ∈ [some "light.a", some "int", some "sensor.b.level"],
          ∀ n ∈ name, (parts n).length ≤ 3 := by decide
      exact hall _ hmem n rfl
    refine ((hseen hwhole).2 x n hx hn (Syntax.Expr.entityOf?_isSome_of_owner hn hparts) e ?_ c).1
    have hentities : (entities m.names).map foldName = ["light.a", "sensor.b"] := by
      rw [hnames]
      decide
    intro entity hentity hfold
    exact he (hentities ▸ hfold ▸ List.mem_map_of_mem hentity)

namespace Unheard

def lit (mode : String) : World where
  start := default
  tables := #[{}]
  host := { states := [("light.a", { text := "on", attributes := [(.text "mode", .text mode)] })] }

def isMet (source : String) : Activity Bool := do
  let expr ← Activity.triggerExpression "f" "state_trigger" 0 (.text source)
  Interp.full.holds expr .none

def names? (source : String) : Option (List (Option String)) :=
  (Syntax.Module.read (.text source)).toOption.map (·.names)

variable {names : List (Option String)} {source : String}

theorem newTrigger_of_missing (hsource : names? source = some names) (hmissing : none ∈ names)
    (w : World) : ∃ w', Activity.newTrigger "f" { stateTrigger := .text source } w =
      .ended (.error (.raised Notify.StateTable.noParts)) w' := by
  obtain ⟨m, hread, rfl⟩ := Syntax.Module.exists_of_names hsource
  obtain ⟨r, w', hend, -, hfault, -⟩ :=
    @Activity.newTrigger_states m source { stateTrigger := .text source } rfl hread "f" w
  exact ⟨w', hfault hmissing ▸ hend⟩

theorem newTrigger_of_other (hsource : names? source = some names) (hnone : none ∉ names)
    {e : String} (he : e ∉ entities names) (w : World) :
    ∃ t w', Activity.newTrigger "f" { stateTrigger := .text source } w = .ended (.ok t) w' ∧
      w'.stateTable.watchersOf e = w.stateTable.watchersOf e := by
  obtain ⟨m, hread, rfl⟩ := Syntax.Module.exists_of_names hsource
  obtain ⟨r, w', hend, henlists, -, hok⟩ :=
    @Activity.newTrigger_states m source { stateTrigger := .text source } rfl hread "f" w
  obtain ⟨t, rfl⟩ := hok hnone rfl
  exact ⟨t, w', hend, (henlists e).trans (if_neg he)⟩

theorem evaluated :
    names? "str(light.a).upper() == 'ON'" = some [none] ∧
      (isMet "str(light.a).upper() == 'ON'" (lit "dim")).result? = some true ∧
      names? "light.a.mode.upper() == 'DIM'" = some [some "light.a.mode.upper"] ∧
      (isMet "light.a.mode.upper() == 'DIM'" (lit "dim")).result? = some true ∧
      (isMet "light.a.mode.upper() == 'DIM'" (lit "full")).result? = some false ∧
      names? "Light.A == 'on'" = some [some "Light.A"] ∧
      (isMet "Light.A == 'on'" (lit "dim")).result? = some true := by
  decide +kernel

end Unheard

open Unheard in
/-- A method of the result of a call makes no trigger. A method of an attribute is a name of four
parts, and is registered for nothing. A name in upper case is registered for another entity. -/
theorem unheard_conditions :
    ((isMet "str(light.a).upper() == 'ON'" (lit "dim")).result? = some true ∧
      ∃ w, Activity.newTrigger "f" { stateTrigger := .text "str(light.a).upper() == 'ON'" }
        (lit "dim") = .ended (.error (.raised Notify.StateTable.noParts)) w) ∧
    ((isMet "light.a.mode.upper() == 'DIM'" (lit "dim")).result? = some true ∧
      (isMet "light.a.mode.upper() == 'DIM'" (lit "full")).result? = some false ∧
      ∃ t w, Activity.newTrigger "f" { stateTrigger := .text "light.a.mode.upper() == 'DIM'" }
        (lit "dim") = .ended (.ok t) w ∧ w.stateTable.watchersOf "light.a" = []) ∧
    ((isMet "Light.A == 'on'" (lit "dim")).result? = some true ∧
      ∃ t w, Activity.newTrigger "f" { stateTrigger := .text "Light.A == 'on'" } (lit "dim") =
        .ended (.ok t) w ∧ w.stateTable.watchersOf "light.a" = []) := by
  obtain ⟨hcall, hcalled, hmethod, hdim, hfull, hupper, hsame⟩ := evaluated
  exact ⟨⟨hcalled, newTrigger_of_missing hcall List.mem_cons_self _⟩,
    ⟨hdim, hfull, newTrigger_of_other hmethod (by decide) (by decide) _⟩,
    hsame, newTrigger_of_other hupper (by decide) (by decide) _⟩

end TriggerScript
