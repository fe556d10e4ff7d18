import TriggerScript.Proofs.Evaluation.Locals

/-!
# Expressions that only read names

An expression without a call ends at once, changes no table, and looks at its context only to find
out what the names stand for that it mentions. So all it does is the same in two contexts, of worlds
that differ in tables and contexts alone, if those names stand for the same in both.
`Activity.Tandem` compares two activities in related worlds; this is proved along the layers of an
expression (`Interp.agree_upTo`).
-/

namespace TriggerScript

open Syntax (Position Expr Stmt Operator Comparison DictItem Access)

/-! ### Expressions without a call -/

def isForeign : Expr → Bool
  | .namedExpr .. | .lambda .. | .listComp .. | .setComp .. | .dictComp .. | .generatorExp ..
  | .await .. | .yield .. | .yieldFrom .. => true
  | _ => false

/-- The expression mentions names of `N` only, and calls nothing. -/
inductive Reads (N : String → Prop) : Expr → Prop
  | name {pos : Position} {id : String} (h : N id) : Reads N (.name pos id .load)
  | member {pos : Position} {value : Expr} {attr full owner : String}
    (hfull : (Expr.member pos value attr .load).dottedName? = some full)
    (howner : value.dottedName? = some owner) (h : N full) (h' : N owner) :
    Reads N (.member pos value attr .load)
  | constant {pos : Position} {value : Syntax.Literal} {kind : Option String} :
    Reads N (.constant pos value kind)
  | boolOp {pos : Position} {op : Syntax.BoolOperator} {values : List Expr}
    (h : ∀ e ∈ values, Reads N e) : Reads N (.boolOp pos op values)
  | binOp {pos : Position} {left right : Expr} {op : Operator} (hleft : Reads N left)
    (hright : Reads N right) : Reads N (.binOp pos left op right)
  | unaryOp {pos : Position} {op : Syntax.UnaryOperator} {operand : Expr} (h : Reads N operand) :
    Reads N (.unaryOp pos op operand)
  | ifExp {pos : Position} {test body orelse : Expr} (htest : Reads N test) (hbody : Reads N body)
    (horelse : Reads N orelse) : Reads N (.ifExp pos test body orelse)
  | compare {pos : Position} {left : Expr} {ops : List Comparison} {comparators : List Expr}
    (hleft : Reads N left) (h : ∀ e ∈ comparators, Reads N e) :
    Reads N (.compare pos left ops comparators)
  | formattedValue {pos : Position} {value : Expr} {conversion : Int} {spec : Option Expr}
    (hvalue : Reads N value) (hspec : ∀ e, spec = some e → Reads N e) :
    Reads N (.formattedValue pos value conversion spec)
  | joinedStr {pos : Position} {values : List Expr} (h : ∀ e ∈ values, Reads N e) :
    Reads N (.joinedStr pos values)
  | subscript {pos : Position} {value index : Expr} (hvalue : Reads N value)
    (hindex : Reads N index) : Reads N (.subscript pos value index .load)
  | slice {pos : Position} {lower upper step : Option Expr}
    (hlower : ∀ e, lower = some e → Reads N e)
    (hupper : ∀ e, upper = some e → Reads N e) (hstep : ∀ e, step = some e → Reads N e) :
    Reads N (.slice pos lower upper step)
  | list {pos : Position} {elts : List Expr} (h : ∀ e ∈ elts, Reads N e) :
      Reads N (.list pos elts .load)
  | tuple {pos : Position} {elts : List Expr} (h : ∀ e ∈ elts, Reads N e) :
    Reads N (.tuple pos elts .load)
  | set {pos : Position} {elts : List Expr} (h : ∀ e ∈ elts, Reads N e) : Reads N (.set pos elts)
  | starred {pos : Position} {value : Expr} {access : Access} (h : Reads N value) :
    Reads N (.starred pos value access)
  | dict {pos : Position} {items : List DictItem} (hkey : ∀ k v, .pair k v ∈ items → Reads N k)
    (hvalue : ∀ k v, .pair k v ∈ items → Reads N v) (hspread : ∀ e, .spread e ∈ items → Reads N e) :
    Reads N (.dict pos items)
  | foreign {e : Expr} (h : isForeign e = true) : Reads N e

namespace Reads

variable {N : String → Prop} {e d : Expr}

theorem bare (h : Reads N e) : Reads N e.bare := by
  cases e with
  | starred pos e access =>
    cases h with
    | starred h => exact h
    | foreign h => cases h
  | _ => exact h

theorem index (h : Reads N e) (hd : d ∈ e.indices) : Reads N d := by
  cases e with
  | slice pos lower upper step =>
    cases h with
    | slice hlower hupper hstep =>
      simp only [Syntax.Expr.indices, List.mem_append, Option.mem_toList] at hd
      rcases hd with (hd | hd) | hd
      · exact hlower d hd
      · exact hupper d hd
      · exact hstep d hd
    | foreign h => cases h
  | _ => exact List.mem_singleton.1 hd ▸ h

theorem operand (h : Reads N e) (hlooked : ¬ Walk.Looked e) (hd : d ∈ e.operands false) :
    Reads N d := by
  have hbare {es : List Expr} (hes : ∀ e ∈ es, Reads N e) (hd : d ∈ es.map Expr.bare) :
      Reads N d := by
    obtain ⟨e, he, rfl⟩ := List.mem_map.1 hd
    exact (hes e he).bare
  cases h with
  | name | member => exact absurd trivial hlooked
  | boolOp h | joinedStr h => exact h d hd
  | set h | list h | tuple h => exact hbare h hd
  | compare hleft h =>
    rcases List.mem_cons.1 (Syntax.Expr.links_subset _ _ hd) with rfl | hd
    · exact hleft
    · exact h d hd
  | dict hkey hvalue hspread =>
    obtain ⟨item, hitem, hd⟩ := List.mem_flatMap.1 hd
    cases item with
    | pair k v =>
      rcases List.mem_cons.1 hd with rfl | hd
      · exact hvalue _ _ hitem
      · exact List.mem_singleton.1 hd ▸ hkey _ _ hitem
    | spread e => exact List.mem_singleton.1 hd ▸ hspread _ hitem
  | formattedValue hvalue hspec =>
    rcases List.mem_cons.1 hd with rfl | hd
    · exact hvalue
    · exact hspec d (Option.mem_toList.1 hd)
  | subscript hvalue hindex =>
    rcases List.mem_cons.1 hd with rfl | hd
    · exact hvalue
    · exact hindex.index hd
  | foreign h => cases e <;> first | exact absurd hd List.not_mem_nil | cases h
  | binOp hleft hright =>
    rcases List.mem_cons.1 hd with rfl | hd
    · exact hleft
    · exact List.mem_singleton.1 hd ▸ hright
  | unaryOp h => exact List.mem_singleton.1 hd ▸ h
  | ifExp htest hbody horelse =>
    rcases List.mem_cons.1 hd with rfl | hd
    · exact htest
    · rcases List.mem_cons.1 hd with rfl | hd
      · exact hbody
      · exact List.mem_singleton.1 hd ▸ horelse
  | _ => exact absurd hd List.not_mem_nil

end Reads

/-! ### Worlds in which names stand for the same -/

namespace World

variable {N : String → Prop} {c c' : ContextId} {w w' u u' v : World}

/-- Tables are as they were, and contexts too but for their records of errors. -/
structure Still (w u : World) : Prop where
  tables : u.tables = w.tables
  size : u.contexts.size = w.contexts.size
  contexts : ∀ d, ∃ error errorLong, u.context d = { w.context d with error, errorLong }

namespace Still

theorem of_contexts (htables : u.tables = w.tables) (hcontexts : u.contexts = w.contexts) :
    Still w u := by
  refine ⟨htables, by rw [hcontexts], fun d ↦ ⟨(w.context d).error, (w.context d).errorLong, ?_⟩⟩
  rw [context, hcontexts, ← context]

theorem refl (w : World) : Still w w := of_contexts rfl rfl

theorem symm (h : Still w u) : Still u w := by
  refine ⟨h.tables.symm, h.size.symm, fun d ↦ ?_⟩
  obtain ⟨_, _, hu⟩ := h.contexts d
  exact ⟨(w.context d).error, (w.context d).errorLong, by rw [hu]⟩

theorem trans (h : Still w u) (h' : Still u v) : Still w v := by
  refine ⟨h'.tables.trans h.tables, h'.size.trans h.size, fun d ↦ ?_⟩
  obtain ⟨_, _, hu⟩ := h.contexts d
  obtain ⟨error, errorLong, hv⟩ := h'.contexts d
  exact ⟨error, errorLong, by rw [hv, hu]⟩

theorem table (h : Still w u) (t : TableId) : u.table t = w.table t := by
  rw [World.table, h.tables, ← World.table]

theorem bound? (h : Still w u) (d : ContextId) (key : Key) :
    u.bound? (u.context d) key = w.bound? (w.context d) key := by
  obtain ⟨error, errorLong, hd⟩ := h.contexts d
  rw [hd]
  simp only [World.bound?, h.table]

end Still

theorem still_updateContext (w : World) (c : ContextId) {f : Context → Context}
    (hf : ∀ ctx, ∃ error errorLong, f ctx = { ctx with error, errorLong }) :
    w.Still (w.updateContext c f) := by
  refine ⟨rfl, Array.size_modify, fun d ↦ ?_⟩
  rcases w.context_updateContext c f d with hd | ⟨rfl, hd⟩
  · exact ⟨_, _, hd⟩
  · simp_all

theorem still_record (w : World) (c : ContextId) (error errorLong : Option String)
    (log : Array LogLine) :
    w.Still { w.updateContext c fun ctx ↦ { ctx with error, errorLong } with log } :=
  (w.still_updateContext c fun _ ↦ ⟨_, _, rfl⟩).trans (.of_contexts rfl rfl)

/-- The worlds differ only in tables and contexts. -/
def Matches (w w' : World) : Prop := w' = { w with tables := w'.tables, contexts := w'.contexts }

theorem Matches.refl (w : World) : w.Matches w := rfl

theorem Matches.symm (h : w.Matches w') : w'.Matches w := by
  rw [h]
  rfl

theorem Matches.trans (h : w.Matches w') (h' : w'.Matches v) : w.Matches v := by
  rw [h', h]
  rfl

/-- The names of `N` stand for the same in `c` and in `c'`. -/
structure Alike (N : String → Prop) (c c' : ContextId) (w w' : World) : Prop where
  rest : w.Matches w'
  function : (w.context c).function = none
  function' : (w'.context c').function = none
  name : (w'.context c').name = (w.context c).name
  file : (w'.context c').file = (w.context c).file
  names : ∀ n, N n → w'.bound? (w'.context c') (some n) = w.bound? (w.context c) (some n)

namespace Alike

theorem of_still (h : Alike N c c' w w') (hu : Still w u) (hu' : Still w' u')
    (hrest : u.Matches u') : Alike N c c' u u' := by
  obtain ⟨_, _, hc⟩ := hu.contexts c
  obtain ⟨_, _, hc'⟩ := hu'.contexts c'
  refine ⟨hrest, ?_, ?_, ?_, ?_, fun n hn ↦ ?_⟩
  · rw [hc]
    exact h.function
  · rw [hc']
    exact h.function'
  · rw [hc, hc']
    exact h.name
  · rw [hc, hc']
    exact h.file
  · rw [hu.bound?, hu'.bound?, h.names n hn]

theorem nameValue_of_function {ctx : Context} (h : ctx.function = none) (n : String) :
    w.nameValue ctx n = (w.bound? ctx (some n)).elim (.ok (w.outer n)) .ok := by
  have hglobal : w.isGlobal ctx n = false := by simp [isGlobal, functionOf?, h]
  have hnonlocal : w.isNonlocal ctx n = false := by simp [isNonlocal, functionOf?, h]
  unfold World.nameValue
  rw [hglobal, hnonlocal]
  cases w.bound? ctx (some n) <;> rfl

theorem nameValue (h : Alike N c c' w w') {n : String} (hn : N n) :
    w'.nameValue (w'.context c') n = w.nameValue (w.context c) n := by
  have houter : w'.outer n = w.outer n := by
    rw [h.rest]
    rfl
  rw [nameValue_of_function h.function, nameValue_of_function h.function', h.names n hn, houter]

end Alike

end World

/-! ### Activities that look at no table and no context -/

namespace Activity

variable {α β : Type}

def Blind (x : Activity α) : Prop :=
  ∀ w, ∃ r u, x w = .ended r u ∧ u.tables = w.tables ∧ u.contexts = w.contexts ∧
    ∀ tables contexts, x { w with tables, contexts } = .ended r { u with tables, contexts }

theorem blind_read {f : World → α} (h : ∀ (w : World) tables contexts,
    f { w with tables, contexts } = f w) : Blind (read f) := by
  refine fun w ↦ ⟨_, w, rfl, rfl, rfl, fun tables contexts ↦ ?_⟩
  show Step.ended (.ok (f { w with tables, contexts })) _ = _
  rw [h]

theorem blind_result (a : α) : Blind (result a) := blind_read fun _ _ _ ↦ rfl

theorem blind_raise (f : Fault) : Blind (raise f : Activity α) :=
  fun w ↦ ⟨_, w, rfl, rfl, rfl, fun _ _ ↦ rfl⟩

theorem blind_lift (x : Except Fault α) : Blind (lift x) := by
  cases x with
  | ok a => exact blind_result a
  | error f => exact blind_raise f

theorem blind_op (x : Op α) : Blind (op x) := by
  intro w
  unfold op
  dsimp only
  generalize x.run.run w.store = p
  obtain ⟨r, s⟩ := p
  cases r <;> exact ⟨_, _, rfl, rfl, rfl, fun _ _ ↦ rfl⟩

variable {x : Activity α}

theorem Blind.bind {f : α → Activity β} (hx : Blind x) (hf : ∀ a, Blind (f a)) :
    Blind (x >>= f) := by
  intro w
  obtain ⟨r, u, hend, htables, hcontexts, hother⟩ := hx w
  cases r with
  | error e =>
    refine ⟨.error e, u, ?_, htables, hcontexts, fun tables contexts ↦ ?_⟩
    · show (x w).bind f = _
      rw [hend]
      rfl
    · show (x { w with tables, contexts }).bind f = _
      rw [hother]
      rfl
  | ok a =>
    obtain ⟨r, v, hend', htables', hcontexts', hother'⟩ := hf a u
    refine ⟨r, v, ?_, htables'.trans htables, hcontexts'.trans hcontexts, fun tables contexts ↦ ?_⟩
    · show (x w).bind f = _
      rw [hend]
      exact hend'
    · show (x { w with tables, contexts }).bind f = _
      rw [hother]
      exact hother' tables contexts

theorem Blind.attempt (hx : Blind x) : Blind x.attempt := by
  intro w
  obtain ⟨r, u, hend, htables, hcontexts, hother⟩ := hx w
  have hattempt (w : World) : x.attempt w = (x w).attempt := rfl
  simp only [hattempt, hend, hother]
  rcases r with (f | _ | _) | a <;> exact ⟨_, u, rfl, htables, hcontexts, fun _ _ ↦ rfl⟩

theorem blind_modify {f : World → World}
    (h : ∀ (w : World) tables contexts, f { w with tables, contexts } =
      { f w with tables, contexts }) :
    Blind (modify f) := by
  intro w
  have hw : f w = { f w with tables := w.tables, contexts := w.contexts } := h w w.tables w.contexts
  refine ⟨_, f w, rfl, by rw [hw], by rw [hw], fun tables contexts ↦ ?_⟩
  show Step.ended _ (f { w with tables, contexts }) = _
  rw [h]

theorem blind_deliver (e : Event) : Blind (deliver e) := by
  refine blind_modify fun w tables contexts ↦ ?_
  show (w.host.listenersOf e.type).foldl _ _ = _
  induction w.host.listenersOf e.type generalizing w with
  | nil => rfl
  | cons l rest ih => exact ih (w.startTask .noted (.deliver l e)).2

theorem blind_world_bind {f : World → Activity α} (hf : ∀ w, Blind (f w))
    (hsame : ∀ (w : World) tables contexts, f { w with tables, contexts } = f w) :
    Blind (world >>= f) := by
  intro w
  obtain ⟨r, u, hend, htables, hcontexts, hother⟩ := hf w w
  refine ⟨r, u, hend, htables, hcontexts, fun tables contexts ↦ ?_⟩
  show f { w with tables, contexts } { w with tables, contexts } = _
  rw [hsame]
  exact hother tables contexts

theorem blind : Manner @Blind where
  read h := blind_read fun w tables contexts ↦ h w tables contexts w.log
  raise := blind_raise
  outOfFuel := fun w ↦ ⟨_, w, rfl, rfl, rfl, fun _ _ ↦ rfl⟩
  op := blind_op
  attempt_op x := (blind_op x).attempt
  bind := Blind.bind
  say _ _ _ := blind_modify fun _ _ _ ↦ rfl
  note _ := blind_modify fun _ _ _ ↦ rfl
  putState _ _ := blind_modify fun _ _ _ ↦ rfl
  declare _ _ _ _ := blind_modify fun _ _ _ ↦ rfl
  deliver := blind_deliver

theorem blind_each (xs : List α) {f : α → Activity Unit} (hf : ∀ x, Blind (f x)) :
    Blind (each xs f) := by
  induction xs with
  | nil => exact blind_result ()
  | cons x rest ih => exact (hf x).bind fun _ ↦ ih

theorem Blind.ended (hx : Blind x) {w w' : World} (h : w.Matches w') :
    ∃ r u u', x w = .ended r u ∧ x w' = .ended r u' ∧ w.Still u ∧ w'.Still u' ∧ u.Matches u' := by
  obtain ⟨r, u, hend, htables, hcontexts, hother⟩ := hx w
  have hend' := hother w'.tables w'.contexts
  rw [← h] at hend'
  exact ⟨r, u, _, hend, hend', .of_contexts htables hcontexts, .of_contexts rfl rfl, rfl⟩

end Activity

/-! ### Activities side by side -/

namespace Activity

variable {R G : World → World → Prop} {c c' : ContextId} {α β : Type}

def Tandem (R G : World → World → Prop) (x y : Activity α) : Prop :=
  ∀ w w', R w w' → ∃ r u u', x w = .ended r u ∧ y w' = .ended r u' ∧ G w u ∧ G w' u' ∧ R u u'

theorem Tandem.attempt {x y : Activity α} (hx : Tandem R G x y) :
    Tandem R G x.attempt y.attempt := by
  intro w w' h
  obtain ⟨r, u, u', hend, hend', hboth⟩ := hx w w' h
  show ∃ r v v', (x w).attempt = .ended r v ∧ (y w').attempt = .ended r v' ∧ _
  rw [hend, hend']
  rcases r with (f | _ | _) | a <;> exact ⟨_, u, u', rfl, rfl, hboth⟩

/-- What the relation `R` has to keep, and how far (`G`) either world may move. -/
structure TandemRel (R G : World → World → Prop) (c c' : ContextId) : Prop where
  refl : ∀ w, G w w
  trans : ∀ {u v w : World}, G u v → G v w → G u w
  look : ∀ {α : Type} {f : World → α},
    (∀ (w : World) tables contexts log, f { w with tables, contexts, log } = f w) → ∀ {w w'},
      R w w' → f w' = f w
  name : ∀ {w w'}, R w w' → (w'.context c').name = (w.context c).name
  op : ∀ {α : Type} (x : Op α), Tandem R G (op x) (op x)
  recordError : ∀ pos f, Tandem R G (recordError c pos f) (recordError c' pos f)

namespace TandemRel

variable (T : TandemRel R G c c') {x y : Activity α}

include T

theorem read {f : World → α}
    (h : ∀ (w : World) tables contexts log, f { w with tables, contexts, log } = f w) :
    Tandem R G (read f) (read f) := by
  intro w w' hw
  refine ⟨_, w, w', rfl, ?_, T.refl w, T.refl w', hw⟩
  rw [← T.look h hw]
  rfl

theorem result (a : α) : Tandem R G (result a) (result a) := T.read fun _ _ _ _ ↦ rfl

theorem raise (f : Fault) : Tandem R G (raise f : Activity α) (Activity.raise f) :=
  fun w w' hw ↦ ⟨_, w, w', rfl, rfl, T.refl w, T.refl w', hw⟩

theorem outOfFuel : Tandem R G (outOfFuel : Activity α) Activity.outOfFuel :=
  fun w w' hw ↦ ⟨_, w, w', rfl, rfl, T.refl w, T.refl w', hw⟩

theorem lift (r : Except Fault α) : Tandem R G (lift r) (lift r) := by
  cases r with
  | ok a => exact T.result a
  | error f => exact T.raise f

theorem unsupported (node : String) :
    Tandem R G (Interp.unsupported c node : Activity α) (Interp.unsupported c' node) := by
  intro w w' hw
  refine ⟨_, w, w', rfl, ?_, T.refl w, T.refl w', hw⟩
  show Step.ended (.error (.raised (.unsupportedNode (w'.context c').name _))) w' = _
  rw [T.name hw]

theorem bind {f g : α → Activity β} (hx : Tandem R G x y) (hf : ∀ a, Tandem R G (f a) (g a)) :
    Tandem R G (x >>= f) (y >>= g) := by
  intro w w' hw
  obtain ⟨r, u, u', hend, hend', hG, hG', hu⟩ := hx w w' hw
  show ∃ r v v', (x w).bind f = .ended r v ∧ (y w').bind g = .ended r v' ∧ _
  rw [hend, hend']
  cases r with
  | error e => exact ⟨.error e, u, u', rfl, rfl, hG, hG', hu⟩
  | ok a =>
    obtain ⟨r, v, v', hv, hv', hnext, hnext', hrest⟩ := hf a u u' hu
    exact ⟨r, v, v', hv, hv', T.trans hG hnext, T.trans hG' hnext', hrest⟩

theorem guarded (hx : Tandem R G x y) (pos : Option Position) (fallback : α) :
    Tandem R G (guarded c pos fallback x) (Activity.guarded c' pos fallback y) := by
  refine T.bind hx.attempt fun r ↦ ?_
  unfold standIn
  split
  · exact T.result _
  · exact T.raise _
  · exact T.bind (T.recordError pos _) fun _ ↦ T.result fallback

theorem defined (v : Value) : Tandem R G (defined v) (Activity.defined v) := by
  unfold Activity.defined
  split
  · exact T.raise _
  · exact T.result _

theorem memberOf (v : Value) (attr : String) (f : Value → Op α) :
    Tandem R G (Interp.memberOf v attr f) (Interp.memberOf v attr f) := by
  refine T.bind (T.read fun _ _ _ _ ↦ rfl) fun s ↦ ?_
  split
  · exact T.outOfFuel
  · exact T.op _

theorem nameNode {name : String}
    (h : ∀ {w w'}, R w w' → w'.nameValue (w'.context c') name = w.nameValue (w.context c) name)
    (access : Access) :
    Tandem R G (Interp.nameNode c name access) (Interp.nameNode c' name access) := by
  cases access with
  | load =>
    intro w w' hw
    have hload (d : ContextId) (u : World) :
        Interp.nameNode d name .load u = Activity.lift (u.nameValue (u.context d) name) u := rfl
    simp only [hload, h hw]
    exact T.lift _ w w' hw
  | _ => exact T.result _

def walk {I : Interp} {P : Expr → Prop} (calls : Prop)
    (hcalling : ∀ {α : Type} {x : Op α}, calls ∨ Looks x → Tandem R G (calling x) (calling x))
    (hI : ∀ e, P e → Tandem R G (I.node c e) (I.node c' e)) : Walk where
  Holds ds _ x := (∀ d ∈ ds, P d) → Tandem R G (x I c) (x I c')
  Calls := calls
  mono hx hds h := hx fun d hd ↦ h d (hds.subset hd)
  read hf _ := T.read hf
  raise f _ := T.raise f
  op x _ := T.op x
  calling h _ := hcalling h
  unsupported node _ := T.unsupported node
  bind hx hf h := T.bind (hx fun d hd ↦ h d (List.mem_append_left _ hd)) fun a ↦
    hf a fun d hd ↦ h d (List.mem_append_right _ hd)
  guarded pos hx h := T.guarded (hx h) pos _
  node e h := hI e (h e (List.mem_singleton_self e))

end TandemRel

end Activity

/-! ### The layers of an expression -/

namespace Interp

open Activity

variable {N : String → Prop} {I : Interp} {c c' : ContextId} {α : Type}

theorem Blind.tandem {x : Activity α} (hx : Blind x) :
    Tandem (World.Alike N c c') World.Still x x := by
  intro w w' halike
  obtain ⟨r, u, u', hend, hend', hu, hu', hrest⟩ := hx.ended halike.rest
  exact ⟨r, u, u', hend, hend', hu, hu', halike.of_still hu hu' hrest⟩

theorem alike : TandemRel (World.Alike N c c') World.Still c c' where
  refl := .refl
  trans := .trans
  look {_ f} h w w' halike := by
    rw [halike.rest]
    exact h w w'.tables w'.contexts w.log
  name halike := halike.name
  op x := Blind.tandem (blind_op x)
  recordError pos f := by
    intro w w' halike
    have hplace : errorPlace ((w'.functionOf? (w'.context c')).map (·.name)) (w'.context c').file
        pos = errorPlace ((w.functionOf? (w.context c)).map (·.name)) (w.context c).file pos := by
      rw [World.functionOf?, World.functionOf?, halike.function, halike.function', halike.file]
      rfl
    refine ⟨.ok (), _, _, rfl, rfl, w.still_record .., w'.still_record ..,
      halike.of_still (w.still_record ..) (w'.still_record ..) ?_⟩
    have hlog : w'.log = w.log := by rw [halike.rest]
    dsimp only [World.Matches, World.say, World.updateContext]
    rw [hplace, hlog, halike.rest]

def AgreesOn (N : String → Prop) (c c' : ContextId) (I : Interp) : Prop :=
  ∀ e, Reads N e → Tandem (World.Alike N c c') World.Still (I.node c e) (I.node c' e)

variable {e : Expr}

def AgreesOn.walk (hI : I.AgreesOn N c c') : Walk :=
  alike.walk True (fun _ ↦ Blind.tandem (blind.calling _)) hI

theorem agree_expression (hI : I.AgreesOn N c c') (he : Reads N e) :
    Tandem (World.Alike N c c') World.Still (I.expression c e) (I.expression c' e) := by
  have hname {name : String} (h : N name) : Tandem (World.Alike N c c') World.Still
      (nameNode c name .load)
      (nameNode c' name .load) := alike.nameNode (fun halike ↦ halike.nameValue h) .load
  by_cases hlooked : Walk.Looked e
  · cases he with
    | name h => exact hname h
    | @member pos value attr full owner hfull howner h h' =>
      show Tandem _ _ (I.memberNode c _ value attr .load) (I.memberNode c' _ value attr .load)
      unfold memberNode
      rw [hfull, howner]
      refine alike.bind (hname h) fun v ↦ ?_
      split
      · exact alike.bind (hname h') fun v ↦ alike.memberOf _ _ _
      · exact alike.result _
    | foreign h => cases e <;> first | exact hlooked.elim | cases h
    | _ => cases hlooked
  · exact hI.walk.expression (fun _ ↦ trivial) (fun h ↦ absurd h hlooked) fun d hd ↦
      he.operand hlooked hd

theorem agree_upTo (N : String → Prop) (c c' : ContextId) (n : Nat) : (upTo n).AgreesOn N c c' := by
  induction n with
  | zero => exact fun _ _ ↦ alike.outOfFuel
  | succ n ih => exact fun _ he ↦ agree_expression ih he

theorem agree_sequence (n : Nat) {pos : Position} (he : Reads N e) (last : Flow) :
    Tandem (World.Alike N c c') World.Still ((upTo n).sequence c last [.expr pos e])
      ((upTo n).sequence c' last [.expr pos e]) := by
  have hstatement : Tandem (World.Alike N c c') World.Still ((upTo n).statement c (.expr pos e))
      ((upTo n).statement c' (.expr pos e)) := by
    cases n with
    | zero => exact alike.outOfFuel
    | succ n =>
      have hvalue := (agree_upTo N c c' n).walk.evaluate e (by simpa using he)
      exact alike.bind hvalue fun _ ↦ alike.result _
  refine alike.bind (alike.guarded hstatement _ _) fun flow ↦ ?_
  split <;> exact alike.result _

end Interp

end TriggerScript
