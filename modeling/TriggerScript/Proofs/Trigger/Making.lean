import TriggerScript.Proofs.Evaluation.Reading
import TriggerScript.Proofs.Task.Finish
import TriggerScript.Trigger.Basic

/-!
# What a new trigger looks names up in

Making a trigger adds to the world. Each of its conditions gets a context of its own, in which a
name is looked up among the globals and then in a table of what the condition is given. That table
is new and has the functions that exist once for each context, and nothing else.
-/

namespace TriggerScript

/-! ### Worlds with more contexts and tables -/

namespace World

variable {w u v : World} {name : String} {globals : TableId} {c : ContextId}

/-- Contexts and tables that are there stay as they are. -/
structure Extends (w u : World) : Prop where
  size_contexts : w.contexts.size ≤ u.contexts.size
  context : ∀ c < w.contexts.size, u.context c = w.context c
  size_tables : w.tables.size ≤ u.tables.size
  table : ∀ t < w.tables.size, u.table t = w.table t
  functions : u.contextFunctions = w.contextFunctions

namespace Extends

theorem of_eq (hcontexts : u.contexts = w.contexts) (htables : u.tables = w.tables)
    (hfunctions : u.contextFunctions = w.contextFunctions) : Extends w u := by
  refine ⟨?_, fun c _ ↦ ?_, ?_, fun t _ ↦ ?_, hfunctions⟩
  · exact Nat.le_of_eq (by rw [hcontexts])
  · rw [World.context, hcontexts, ← World.context]
  · exact Nat.le_of_eq (by rw [htables])
  · rw [World.table, htables, ← World.table]

theorem refl (w : World) : Extends w w := of_eq rfl rfl rfl

theorem trans (h : Extends w u) (h' : Extends u v) : Extends w v := by
  refine ⟨Nat.le_trans h.size_contexts h'.size_contexts, fun c hc ↦ ?_,
    Nat.le_trans h.size_tables h'.size_tables, fun t ht ↦ ?_, h'.functions.trans h.functions⟩
  · rw [h'.context c (Nat.lt_of_lt_of_le hc h.size_contexts), h.context c hc]
  · rw [h'.table t (Nat.lt_of_lt_of_le ht h.size_tables), h.table t ht]

theorem of_push {ctx : Context} {T T' : Table} (hcontexts : u.contexts = w.contexts.push ctx)
    (htables : u.tables = (w.tables.push T).push T')
    (hfunctions : u.contextFunctions = w.contextFunctions) : Extends w u := by
  refine ⟨?_, fun c hc ↦ ?_, ?_, fun t ht ↦ ?_, hfunctions⟩
  · simp [hcontexts]
  · have hne : c ≠ w.contexts.size := Nat.ne_of_lt hc
    simp [World.context, hcontexts, Array.getElem?_push, hne]
  · rw [htables, Array.size_push, Array.size_push]
    exact Nat.le_add_right _ 2
  · have hne : t ≠ w.tables.size := Nat.ne_of_lt ht
    have hne' : t ≠ w.tables.size + 1 := Nat.ne_of_lt (Nat.lt_succ_of_lt ht)
    simp [World.table, htables, Array.getElem?_push, hne, hne']

end Extends

/-- The context of a condition. -/
structure Condition (w : World) (name : String) (globals : TableId) (c : ContextId) : Prop where
  lt_size : c < w.contexts.size
  name_eq : (w.context c).name = name
  file_eq : (w.context c).file = Activity.noFile
  function_eq : (w.context c).function = none
  globals_eq : (w.context c).globals = globals
  current_eq : (w.context c).current = globals
  locals_ne : (w.context c).locals ≠ globals
  locals_lt : (w.context c).locals < w.tables.size

theorem Condition.of_context (h : w.Condition name globals c)
    (hctx : ∃ error errorLong, u.context c = { w.context c with error, errorLong })
    (hcontexts : w.contexts.size ≤ u.contexts.size) (htables : w.tables.size ≤ u.tables.size) :
    u.Condition name globals c := by
  obtain ⟨error, errorLong, hctx⟩ := hctx
  refine ⟨Nat.lt_of_lt_of_le h.lt_size hcontexts, ?_, ?_, ?_, ?_, ?_, ?_, ?_⟩ <;> rw [hctx]
  · exact h.name_eq
  · exact h.file_eq
  · exact h.function_eq
  · exact h.globals_eq
  · exact h.current_eq
  · exact h.locals_ne
  · exact Nat.lt_of_lt_of_le h.locals_lt htables

theorem Condition.of_extends (h : w.Condition name globals c) (hext : w.Extends u) :
    u.Condition name globals c :=
  h.of_context ⟨_, _, hext.context c h.lt_size⟩ hext.size_contexts hext.size_tables

/-- A condition whose own table was made since `w`. -/
structure Fresh (w u : World) (name : String) (globals : TableId) (c : ContextId) : Prop where
  condition : u.Condition name globals c
  le_locals : w.tables.size ≤ (u.context c).locals
  get?_locals : ∀ n, n ∉ w.contextFunctions.map (·.1) →
    (u.table (u.context c).locals).get? (some n) = none

theorem Fresh.of_extends (h : w.Fresh u name globals c) (hext : u.Extends v) :
    w.Fresh v name globals c := by
  have hc := hext.context c h.condition.lt_size
  refine ⟨h.condition.of_extends hext, ?_, fun n hn ↦ ?_⟩
  · rw [hc]
    exact h.le_locals
  · rw [hc, hext.table _ h.condition.locals_lt]
    exact h.get?_locals n hn

theorem Fresh.after (h : u.Fresh v name globals c) (hext : w.Extends u) :
    w.Fresh v name globals c := by
  refine ⟨h.condition, Nat.le_trans hext.size_tables h.le_locals, fun n hn ↦ h.get?_locals n ?_⟩
  rw [hext.functions]
  exact hn

end World

/-! ### A context with its functions -/

theorem Table.get?_putAll_of_not_mem (t : Table) {entries : List (Key × Value)} {k : Key}
    (h : k ∉ entries.map (·.1)) : (t.putAll entries).get? k = t.get? k := by
  induction entries generalizing t with
  | nil => rfl
  | cons e rest ih =>
    rw [List.map_cons, List.mem_cons, not_or] at h
    show ((t.put e.1 e.2).putAll rest).get? k = _
    rw [ih _ h.2, Table.get?_put_of_ne t e.2 h.1]

namespace Activity

open World

variable {w u : World}

variable {c : ContextId} {name : String} {globals : TableId}

theorem contextValue_ended {f : ContextFunction} {v : Value}
    (h : contextValue c name f w = .ended (.ok v) u) :
    u.contexts = w.contexts ∧ u.tables = w.tables ∧ u.contextFunctions = w.contextFunctions := by
  cases f with
  | log level =>
    obtain ⟨_, w₁, hloggers, h⟩ := bind_eq_ended_ok h
    cases h
    cases hloggers
    dsimp only
    split <;> exact ⟨rfl, rfl, rfl⟩
  | waitUntil =>
    cases h
    exact ⟨rfl, rfl, rfl⟩
  | answer value =>
    obtain ⟨r, s, hend⟩ := op_apply (Op.newList [.text name, value]) w
    have hend' := hend.symm.trans h
    cases hend'
    exact ⟨rfl, rfl, rfl⟩

theorem collect_contextValue {functions : List (String × ContextFunction)}
    {entries : List (Key × Value)} (h : collect (fun (e : String × ContextFunction) ↦ do
      return (some e.1, ← contextValue c name e.2)) functions w = .ended (.ok entries) u) :
    entries.map (·.1) = functions.map (some ·.1) ∧
      u.contexts = w.contexts ∧ u.tables = w.tables ∧ u.contextFunctions = w.contextFunctions := by
  induction functions generalizing w entries with
  | nil =>
    cases h
    exact ⟨rfl, rfl, rfl, rfl⟩
  | cons f rest ih =>
    obtain ⟨entry, w₁, hentry, h⟩ := bind_eq_ended_ok h
    obtain ⟨others, w₂, hrest, h⟩ := bind_eq_ended_ok h
    obtain ⟨v, w₃, hvalue, hentry⟩ := bind_eq_ended_ok hentry
    cases h
    cases hentry
    obtain ⟨hkeys, hcontexts, htables, hfunctions⟩ := ih hrest
    obtain ⟨hcontexts', htables', hfunctions'⟩ := contextValue_ended hvalue
    refine ⟨?_, hcontexts.trans hcontexts', htables.trans htables', hfunctions.trans hfunctions'⟩
    rw [List.map_cons, List.map_cons, hkeys]

theorem modify_push_size {α : Type} (xs : Array α) (x : α) (f : α → α) :
    (xs.push x).modify xs.size f = xs.push (f x) := by
  apply Array.ext
  · simp
  · intro i hi hi'
    rw [Array.getElem_modify]
    grind

theorem freshContext_ended (h : freshContext name globals w = .ended (.ok c) u) :
    c = w.contexts.size ∧ u.contextFunctions = w.contextFunctions ∧
      u.contexts =
        w.contexts.push { name, globals, current := globals, locals := w.tables.size + 1 } ∧
      ∃ entries : List (Key × Value), entries.map (·.1) = w.contextFunctions.map (some ·.1) ∧
        u.tables = (w.tables.push {}).push (Table.putAll {} entries) := by
  obtain ⟨_, w₁, hnew, h⟩ := bind_eq_ended_ok h
  obtain ⟨_, w₂, hinstall, h⟩ := bind_eq_ended_ok h
  cases h
  cases hnew
  obtain ⟨entries, w₃, hentries, h⟩ := bind_eq_ended_ok
    (x := collect _ (w.addContext name globals).2.contextFunctions) hinstall
  obtain ⟨hkeys, hcontexts, htables, hfunctions⟩ := collect_contextValue hentries
  cases h
  refine ⟨rfl, hfunctions, ?_, entries, hkeys, ?_⟩
  · dsimp only [World.addTable, World.updateContext]
    rw [hcontexts, htables]
    dsimp only [World.addContext, World.addTable]
    rw [modify_push_size, Array.size_push]
  · dsimp only [World.addTable, World.updateContext]
    rw [htables]
    rfl

theorem readScript_ended {source : Syntax.Source.Given} {file : String} {b : Bool}
    (h : readScript c source file w = .ended (.ok b) u) : u.tables = w.tables ∧
      u.contextFunctions = w.contextFunctions ∧ ∃ f : Context → Context,
      u.contexts = w.contexts.modify c f ∧
        ∀ ctx, ∃ tree error errorLong, f ctx = { ctx with file, tree, error, errorLong } := by
  unfold readScript at h
  cases hread : Syntax.Module.read source with
  | ok tree =>
    rw [hread] at h
    cases h
    exact ⟨rfl, rfl, _, rfl, fun ctx ↦ ⟨_, _, _, rfl⟩⟩
  | error refusal =>
    rw [hread] at h
    cases h
    exact ⟨rfl, rfl, _, rfl, fun ctx ↦ ⟨_, _, _, rfl⟩⟩

theorem expressionContext_ended {source : Value}
    (h : expressionContext (newContext name globals) source w = .ended (.ok c) u) :
    c = w.contexts.size ∧ u.contextFunctions = w.contextFunctions ∧
      (∃ tree error errorLong, u.contexts = w.contexts.push
        { name, globals, current := globals, locals := w.tables.size + 1, file := noFile, tree,
          error, errorLong }) ∧
      ∃ entries : List (Key × Value), entries.map (·.1) = w.contextFunctions.map (some ·.1) ∧
        u.tables = (w.tables.push {}).push (Table.putAll {} entries) := by
  obtain ⟨_, w₁, hfresh, h⟩ := bind_eq_ended_ok h
  obtain ⟨given, w₂, hsource, h⟩ := bind_eq_ended_ok h
  obtain ⟨_, w₃, hread, h⟩ := bind_eq_ended_ok h
  cases h
  obtain rfl : w₂ = w₁ := by
    unfold sourceOf at hsource
    obtain ⟨_, _, hstore, hsource⟩ := bind_eq_ended_ok hsource
    cases hstore
    split at hsource <;> cases hsource <;> rfl
  obtain ⟨rfl, hfunctions, hcontexts, entries, hkeys, htables⟩ := freshContext_ended hfresh
  obtain ⟨htables', hfunctions', f, hcontexts', hf⟩ := readScript_ended hread
  refine ⟨rfl, hfunctions'.trans hfunctions, ?_, entries, hkeys, htables'.trans htables⟩
  obtain ⟨tree, error, errorLong, hctx⟩ := hf
    { name, globals, current := globals, locals := w.tables.size + 1 }
  refine ⟨tree, error, errorLong, ?_⟩
  rw [hcontexts', hcontexts, modify_push_size, hctx]

end Activity

/-! ### The contexts of a new trigger -/

/-- A trigger that was made between `w` and `u`. -/
structure Trigger.Made (name : String) (cfg : TriggerConfig) (w u : World) (t : Trigger) :
    Prop where
  extends_ : w.Extends u
  event : ∀ c ∈ t.eventExpr, w.Fresh u ("trigger " ++ name ++ " " ++ "event_trigger") cfg.globals c
  active : ∀ c ∈ t.activeExpr, w.Fresh u ("trigger " ++ name ++ " " ++ "state_active") cfg.globals c
  apart : ∀ c ∈ t.eventExpr, ∀ a ∈ t.activeExpr, (u.context a).locals ≠ (u.context c).locals
  action : t.action = cfg.action
  context : t.context = cfg.context
  timeActive : t.timeActive = cfg.timeActive

namespace Activity

open World

variable {w u : World}

variable {c : Option ContextId} {globals : TableId}

theorem triggerExpression_ended {trigger role : String} {source : Value}
    (hglobals : globals < w.tables.size)
    (h : triggerExpression trigger role globals source w = .ended (.ok c) u) :
    w.Extends u ∧ ∀ a ∈ c, w.Fresh u ("trigger " ++ trigger ++ " " ++ role) globals a := by
  unfold triggerExpression at h
  split at h
  · cases h
    exact ⟨.refl _, fun a ha ↦ by cases ha⟩
  · obtain ⟨a, w₁, hctx, h⟩ := bind_eq_ended_ok h
    cases h
    obtain ⟨rfl, hfunctions, ⟨tree, error, errorLong, hcontexts⟩, entries, hkeys, htables⟩ :=
      expressionContext_ended hctx
    have hsize : u.tables.size = w.tables.size + 2 := by simp [htables]
    have hctx : u.context w.contexts.size =
        { name := "trigger " ++ trigger ++ " " ++ role, globals, current := globals,
          locals := w.tables.size + 1, file := noFile, tree, error, errorLong } := by
      simp [World.context, hcontexts]
    refine ⟨.of_push hcontexts htables hfunctions, fun a ha ↦ ?_⟩
    cases ha
    refine ⟨⟨?_, ?_, ?_, ?_, ?_, ?_, ?_, ?_⟩, ?_, fun n hn ↦ ?_⟩
    · simp [hcontexts]
    all_goals rw [hctx]
    · exact Nat.ne_of_gt (Nat.lt_succ_of_lt hglobals)
    · simp [hsize]
    · exact Nat.le_succ _
    · have hplain : some n ∉ entries.map (·.1) := by
        rw [hkeys]
        simpa using hn
      have htable : u.table (w.tables.size + 1) = Table.putAll {} entries := by
        rw [World.table, htables, Array.getElem?_push, Array.size_push, if_pos rfl]
        rfl
      rw [htable, Table.get?_putAll_of_not_mem _ hplain]
      rfl

theorem immediate_watchStates (names : Notify.Watched) (q : Notify.QueueId) :
    (watchStates names q).Immediate World.Extends := by
  refine .bind (fun w ↦ ⟨_, _, rfl, .of_eq rfl rfl rfl⟩) (fun _ _ _ ↦ .trans) fun fault ↦ ?_
  cases fault with
  | none => exact immediate_read .refl fun _ ↦ ()
  | some f => exact immediate_raise .refl f

theorem extends_store (w : World) (s : Store) : w.Extends { w with store := s } :=
  .of_eq rfl rfl rfl

theorem immediate_watchEvents (type : Value) (q : Notify.QueueId) :
    (watchEvents type q).Immediate World.Extends := by
  refine .bind ?_ (fun _ _ _ ↦ .trans) fun type ↦ fun w ↦ ⟨_, _, rfl, .of_eq rfl rfl rfl⟩
  exact (immediate_lift .refl _).bind (fun _ _ _ ↦ .trans) fun _ ↦ immediate_op extends_store _

theorem immediate_sizeOf (v : Value) : (sizeOf v).Immediate World.Extends := by
  refine .bind (immediate_read .refl _) (fun _ _ _ ↦ .trans) fun s ↦ ?_
  cases v.size? s with
  | none => exact immediate_raise .refl _
  | some n => exact immediate_read .refl _

theorem immediate_triggerStates (expr : Option ContextId) (q : Notify.QueueId) :
    (triggerStates expr q).Immediate World.Extends := by
  cases expr with
  | none => exact immediate_read .refl fun _ ↦ none
  | some c =>
    refine .bind ?_ (fun _ _ _ ↦ .trans) fun names ↦ ?_
    · exact (immediate_read .refl _).bind (fun _ _ _ ↦ .trans) fun _ ↦ immediate_read .refl _
    · split
      · exact immediate_read .refl _
      · exact (immediate_watchStates _ q).bind (fun _ _ _ ↦ .trans) fun _ ↦ immediate_read .refl _

theorem Immediate.extends_of_ended {α : Type} {x : Activity α} (hx : x.Immediate World.Extends)
    {a : α} (h : x w = .ended (.ok a) u) : w.Extends u := by
  obtain ⟨r, v, hend, hext⟩ := hx w
  cases hend.symm.trans h
  exact hext

theorem triggerEvent_ended {trigger : String} {event : Value} {q : Notify.QueueId}
    (hglobals : globals < w.tables.size)
    (h : triggerEvent trigger globals event q w = .ended (.ok c) u) :
    w.Extends u ∧ ∀ a ∈ c,
      w.Fresh u ("trigger " ++ trigger ++ " " ++ "event_trigger") globals a := by
  unfold triggerEvent at h
  split at h
  · cases h
    exact ⟨.refl _, fun a ha ↦ by cases ha⟩
  · obtain ⟨type, w₁, htype, h⟩ := bind_eq_ended_ok h
    obtain ⟨_, w₂, hwatch, h⟩ := bind_eq_ended_ok h
    obtain ⟨size, w₃, hsize, h⟩ := bind_eq_ended_ok h
    have hext₁ := (immediate_op extends_store _).extends_of_ended htype
    have hext₂ := hext₁.trans ((immediate_watchEvents _ _).extends_of_ended hwatch)
    have hext₃ := hext₂.trans ((immediate_sizeOf _).extends_of_ended hsize)
    split at h
    · obtain ⟨source, w₄, hsource, h⟩ := bind_eq_ended_ok h
      have hext := hext₃.trans ((immediate_op extends_store _).extends_of_ended hsource)
      obtain ⟨hext', hfresh⟩ :=
        triggerExpression_ended (Nat.lt_of_lt_of_le hglobals hext.size_tables) h
      exact ⟨hext.trans hext', fun a ha ↦ (hfresh a ha).after hext⟩
    · cases h
      exact ⟨hext₃, fun a ha ↦ by cases ha⟩

theorem newTrigger_ended {name : String} {cfg : TriggerConfig} {id : TriggerId}
    (hglobals : cfg.globals < w.tables.size)
    (h : newTrigger name cfg w = .ended (.ok id) u) :
    ∃ t, u.triggers[id]? = some t ∧ Trigger.Made name cfg w u t := by
  obtain ⟨queue, w₁, hqueue, h⟩ := bind_eq_ended_ok h
  obtain ⟨activeExpr, w₂, hactive, h⟩ := bind_eq_ended_ok h
  obtain ⟨stateExpr, w₃, hstate, h⟩ := bind_eq_ended_ok h
  obtain ⟨watched, w₄, hstates, h⟩ := bind_eq_ended_ok h
  obtain ⟨eventExpr, w₅, hevent, h⟩ := bind_eq_ended_ok h
  have hext₁ : w.Extends w₁ := by
    cases hqueue
    exact .of_eq rfl rfl rfl
  obtain ⟨hext₂, hactive⟩ := triggerExpression_ended
    (Nat.lt_of_lt_of_le hglobals hext₁.size_tables) hactive
  have hext₂' := hext₁.trans hext₂
  obtain ⟨hext₃, -⟩ := triggerExpression_ended
    (Nat.lt_of_lt_of_le hglobals hext₂'.size_tables) hstate
  have hext₄ := hext₃.trans ((immediate_triggerStates _ _).extends_of_ended hstates)
  have hext₄' := hext₂'.trans hext₄
  obtain ⟨hext₅, hevent⟩ := triggerEvent_ended
    (Nat.lt_of_lt_of_le hglobals hext₄'.size_tables) hevent
  have hlast : w₅.Extends u := by
    cases h
    exact .of_eq rfl rfl rfl
  have hext := hext₄.trans (hext₅.trans hlast)
  cases h
  refine ⟨_, Array.getElem?_push_size, hext₂'.trans hext, fun c hc ↦ ?_, fun c hc ↦ ?_,
    fun c hc a ha ↦ ?_, rfl, rfl, rfl⟩
  · exact ((hevent c hc).after hext₄').of_extends hlast
  · exact ((hactive c hc).after hext₁).of_extends hext
  · -- the table of the condition on states is there when that of the condition on the event is made
    have ha' := hactive a ha
    rw [hext.context a ha'.condition.lt_size, hlast.context c (hevent c hc).condition.lt_size]
    have hle := Nat.le_trans hext₄.size_tables (hevent c hc).le_locals
    exact Nat.ne_of_lt (Nat.lt_of_lt_of_le ha'.condition.locals_lt hle)

end Activity

/-! ### Contexts are made at once -/

def Activity.Succeeds {α : Type} (x : Activity α) : Prop :=
  ∀ w, ∃ a w', x w = .ended (.ok a) w' ∧
    w'.tasks = w.tasks ∧ w'.started = w.started ∧ w'.stateTable = w.stateTable

namespace Activity

variable {α β : Type}

theorem Succeeds.bind {x : Activity α} {f : α → Activity β} (hx : x.Succeeds)
    (hf : ∀ a, (f a).Succeeds) : (x >>= f).Succeeds := by
  intro w
  obtain ⟨a, w₁, hfirst, htasks, hstarted, hstates⟩ := hx w
  obtain ⟨b, w', hsecond, htasks', hstarted', hstates'⟩ := hf a w₁
  exact ⟨b, w', (bind_of_ended hfirst).trans hsecond, htasks'.trans htasks,
    hstarted'.trans hstarted, hstates'.trans hstates⟩

theorem succeeds_read (f : World → α) : (read f).Succeeds := fun w ↦ ⟨f w, w, rfl, rfl, rfl, rfl⟩

theorem succeeds_pure (a : α) : (pure a : Activity α).Succeeds := succeeds_read fun _ ↦ a

theorem succeeds_collect {f : α → Activity β} (hf : ∀ a, (f a).Succeeds) (xs : List α) :
    (collect f xs).Succeeds := by
  induction xs with
  | nil => exact succeeds_pure _
  | cons x rest ih => exact (hf x).bind fun y ↦ ih.bind fun ys ↦ succeeds_pure _

theorem succeeds_contextValue (c : ContextId) (name : String) (f : ContextFunction) :
    (contextValue c name f).Succeeds := by
  cases f with
  | log level =>
    refine .bind (fun w ↦ ⟨(), _, rfl, ?_⟩) fun _ ↦ succeeds_pure _
    dsimp only
    split <;> exact ⟨rfl, rfl, rfl⟩
  | waitUntil => exact succeeds_pure _
  | answer v => exact fun w ↦ ⟨_, _, rfl, rfl, rfl, rfl⟩

theorem succeeds_freshContext (name : String) (globals : TableId) :
    (freshContext name globals).Succeeds := by
  refine .bind (fun w ↦ ⟨_, _, rfl, rfl, rfl, rfl⟩) fun c ↦ .bind ?_ fun _ ↦ succeeds_pure c
  refine .bind (succeeds_read _) fun ctx ↦ .bind (succeeds_read _) fun functions ↦
    .bind ?_ fun entries w ↦ ⟨(), _, rfl, rfl, rfl, rfl⟩
  exact succeeds_collect (fun e ↦ (succeeds_contextValue c ctx.name e.2).bind fun v ↦
    succeeds_pure _) functions

theorem succeeds_sourceOf (v : Value) : (sourceOf v).Succeeds := by
  refine .bind (succeeds_read _) fun s ↦ ?_
  split <;> exact succeeds_pure _

theorem succeeds_readScript (c : ContextId) (source : Syntax.Source.Given) (file : String) :
    (readScript c source file).Succeeds := by
  unfold readScript
  split
  · exact .bind (fun w ↦ ⟨(), _, rfl, rfl, rfl, rfl⟩) fun _ ↦ succeeds_pure true
  · exact .bind (fun w ↦ ⟨(), _, rfl, rfl, rfl, rfl⟩) fun _ ↦
      .bind (fun w ↦ ⟨(), _, rfl, rfl, rfl, rfl⟩) fun _ ↦ succeeds_pure false

theorem succeeds_triggerExpression (trigger role : String) (globals : TableId) (source : Value) :
    (triggerExpression trigger role globals source).Succeeds := by
  unfold triggerExpression
  split
  · exact succeeds_pure none
  · refine .bind ?_ fun c ↦ succeeds_pure (some c)
    exact (succeeds_freshContext _ globals).bind fun c ↦ (succeeds_sourceOf source).bind fun given ↦
      (succeeds_readScript c given noFile).bind fun _ ↦ succeeds_pure c

end Activity

end TriggerScript
