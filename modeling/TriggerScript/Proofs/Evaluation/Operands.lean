import TriggerScript.Proofs.Evaluation.Discipline
import TriggerScript.Proofs.Syntax.Mention

/-!
# Operands

What evaluation does with an expression is a family of activities, given how parts are evaluated and
in which context. A walk holds of one layer of every expression (`Walk.expression`), where names and
calls are left to those who use it.
-/

namespace TriggerScript

open Syntax (Position Expr Keyword DictItem Comparison Operator Access Literal)

open Activity

namespace Syntax

def Expr.bare : Expr → Expr
  | .starred _ e _ => e
  | e => e

def Expr.links : Expr → List Expr → List Expr
  | _, [] => []
  | left, right :: rest => left :: right :: right.links rest

theorem Expr.links_subset (left : Expr) (rights : List Expr) :
    left.links rights ⊆ left :: rights := by
  induction rights generalizing left with
  | nil => exact List.nil_subset _
  | cons right rest ih =>
    exact List.cons_subset_cons _ (List.cons_subset.2 ⟨List.mem_cons_self, ih right⟩)

def Expr.indices : Expr → List Expr
  | .slice _ lower upper step => lower.toList ++ upper.toList ++ step.toList
  | e => [e]

def DictItem.operands (written : Bool) : DictItem → List Expr
  | .pair k v => if written then [k, v] else [v, k]
  | .spread e => [e]

def Expr.operands (written : Bool) : Expr → List Expr
  | .boolOp _ _ values => values
  | .binOp _ left _ right => [left, right]
  | .unaryOp _ _ operand => [operand]
  | .ifExp _ test body orelse => if written then [body, test, orelse] else [test, body, orelse]
  | .dict _ items => items.flatMap (·.operands written)
  | .set _ elts => elts.map Expr.bare
  | .list _ elts _ => elts.map Expr.bare
  | .tuple _ elts _ => elts.map Expr.bare
  | .compare _ left _ rights => if written then left :: rights else left.links rights
  | .call _ func args keywords =>
    func :: if written then args.map Expr.bare ++ keywords.map Keyword.value
      else keywords.map Keyword.value ++ args.map Expr.bare
  | .formattedValue _ value _ spec => value :: spec.toList
  | .joinedStr _ values => values
  | .member _ value _ _ => [value]
  | .subscript _ value index _ => value :: index.indices
  | _ => []

def Expr.isStarred : Expr → Bool
  | .starred .. => true
  | _ => false

def DictItem.isSpread : DictItem → Bool
  | .spread _ => true
  | .pair .. => false

def Comparison.isMembership : Comparison → Bool
  | .isIn | .notIn => true
  | _ => false

/-- The expression may run through what an operand gives: a star, a spread, a membership test, or an
operator that sets and the views of dictionaries have. -/
def Expr.iterates : Expr → Bool
  | .set _ elts | .list _ elts _ | .tuple _ elts _ => elts.any (·.isStarred)
  | .dict _ items => items.any (·.isSpread)
  | .compare _ _ ops _ => ops.any (·.isMembership)
  | .binOp _ _ op _ => op.ofSets
  | _ => false

end Syntax

/-! ### Computations that look at the store -/

namespace Activity

variable {α : Type}

def Looks {α : Type} (x : Op α) : Prop := ∀ s, (x.run.run s).2 = s

theorem looks_pure (a : α) : Looks (pure a : Op α) := fun _ ↦ rfl

theorem looks_throw (f : Fault) : Looks (throw f : Op α) := fun _ ↦ rfl

theorem looks_get {k : Store → Op α} (hk : ∀ s, Looks (k s)) : Looks ((get : Op Store) >>= k) :=
  fun s ↦ hk s s

theorem run_look (f : Store → Except Fault α) (s : Store) : (Op.look f).run.run s = (f s, s) := by
  refine (run_get_bind _ s).trans ?_
  cases f s <;> rfl

theorem looks_look (f : Store → Except Fault α) : Looks (Op.look f) := by
  intro s
  rw [run_look]

theorem Looks.bind {β : Type} {x : Op α} {f : α → Op β} (hx : Looks x) (hf : ∀ a, Looks (f a)) :
    Looks (x >>= f) := by
  intro s
  have hs := hx s
  show ((ExceptT.bindCont f (x.run.run s).1).run (x.run.run s).2).2 = s
  rw [hs]
  cases (x.run.run s).1 with
  | ok a => exact hf a s
  | error e => rfl

theorem looks_compare {op : Comparison} (h : op.isMembership = false) (a b : Value) :
    Looks (Op.compare caller op a b) := by
  cases op with
  | isIn | notIn => cases h
  | notEq => exact (looks_look _).bind fun _ ↦ looks_pure _
  | is | isNot => exact looks_pure _
  | _ => exact looks_look _

end Activity

/-! ### Walks -/

/-- A property of families of activities that the vocabulary has and that sequencing keeps. It is
told whose values are asked for, in the order of evaluation (`Expr.operands false`). -/
structure Walk where
  Holds : List Expr → {α : Type} → (Interp → ContextId → Activity α) → Prop
  /-- Functions of the host may be applied to elements. -/
  Calls : Prop
  mono : ∀ {ds ds' : List Expr} {α : Type} {x : Interp → ContextId → Activity α},
    Holds ds x → ds.Sublist ds' → Holds ds' x
  read : ∀ {α : Type} {f : World → α},
    (∀ (w : World) tables contexts log, f { w with tables, contexts, log } = f w) →
      Holds [] fun _ _ ↦ read f
  raise : ∀ {α : Type} (f : Fault), Holds [] fun _ _ ↦ (raise f : Activity α)
  op : ∀ {α : Type} (x : Op α), Holds [] fun _ _ ↦ op x
  calling : ∀ {α : Type} {x : Op α}, Calls ∨ Looks x → Holds [] fun _ _ ↦ calling x
  unsupported : ∀ {α : Type} (node : String), Holds [] fun _ c ↦
    (Interp.unsupported c node : Activity α)
  bind : ∀ {ds ds' : List Expr} {α β : Type} {x : Interp → ContextId → Activity α}
    {f : Interp → ContextId → α → Activity β}, Holds ds x → (∀ a, Holds ds' fun I c ↦ f I c a) →
    Holds (ds ++ ds') fun I c ↦ x I c >>= f I c
  guarded : ∀ {ds : List Expr} {x : Interp → ContextId → Activity Value} (pos : Option Position),
    Holds ds x → Holds ds fun I c ↦ guarded c pos .none (x I c)
  node : ∀ e, Holds [e] fun I c ↦ I.node c e

namespace Walk

variable (W : Walk) {α β : Type} {ds : List Expr} {x : Interp → ContextId → Activity α}
  {f : Interp → ContextId → α → Activity β} {es : List Expr}

theorem result (a : α) : W.Holds [] fun _ _ ↦ result a := W.read fun _ _ _ _ ↦ rfl

theorem nothing (a : α) : W.Holds ds fun _ _ ↦ Activity.result a :=
  W.mono (W.result a) (List.nil_sublist _)

theorem andThen (hx : W.Holds ds x) (hf : ∀ a, W.Holds [] fun I c ↦ f I c a) :
    W.Holds ds fun I c ↦ x I c >>= f I c := by
  have h := W.bind hx hf
  rwa [List.append_nil] at h

theorem after (hx : W.Holds [] x) (hf : ∀ a, W.Holds ds fun I c ↦ f I c a) :
    W.Holds ds fun I c ↦ x I c >>= f I c :=
  W.bind hx hf

theorem defined (v : Value) : W.Holds [] fun _ _ ↦ defined v := by
  unfold Activity.defined
  split
  · exact W.raise _
  · exact W.result _

theorem evaluate (e : Expr) : W.Holds [e] fun I c ↦ I.evaluate c e :=
  W.guarded _ (W.andThen (W.node e) fun v ↦ W.defined v)

theorem elements (h : es.any (·.isStarred) = true → W.Calls) :
    W.Holds (es.map Expr.bare) fun I c ↦ I.elements c es := by
  induction es with
  | nil => exact W.result _
  | cons e rest ih =>
    have ih := ih fun hrest ↦ h (by rw [List.any_cons, hrest, Bool.or_true])
    cases e with
    | starred pos e access =>
      exact W.bind (W.evaluate e) fun _ ↦ W.after (W.calling (.inl (h rfl))) fun _ ↦
        W.andThen ih fun _ ↦ W.result _
    | _ => exact W.bind (W.evaluate _) fun _ ↦ W.andThen ih fun _ ↦ W.result _

theorem conjunction (last : Value) (es : List Expr) :
    W.Holds es fun I c ↦ I.conjunction c last es := by
  induction es generalizing last with
  | nil => exact W.result _
  | cons e rest ih =>
    refine W.bind (W.evaluate e) fun v ↦ W.after (W.read fun _ _ _ _ ↦ rfl) fun s ↦ ?_
    split
    · exact W.nothing _
    · exact ih v

theorem disjunction (es : List Expr) : W.Holds es fun I c ↦ I.disjunction c es := by
  induction es with
  | nil => exact W.result _
  | cons e rest ih =>
    refine W.bind (W.evaluate e) fun v ↦ W.after (W.read fun _ _ _ _ ↦ rfl) fun s ↦ ?_
    split
    · exact ih
    · exact W.nothing _

theorem comparison {op : Comparison} (h : op.isMembership = true → W.Calls) (apart : Bool)
    (a b : Value) : W.Holds [] fun _ _ ↦ Interp.comparison op apart a b := by
  unfold Interp.comparison
  split
  · exact W.result _
  · exact W.result _
  · refine W.calling ?_
    cases hop : Comparison.isMembership _ with
    | true => exact .inl (h hop)
    | false => exact .inr (looks_compare hop a b)

theorem chain (left : Expr) {ops : List Comparison} (h : ops.any (·.isMembership) = true → W.Calls)
    (rights : List Expr) : W.Holds (left.links rights) fun I c ↦ I.chain c left ops rights := by
  induction rights generalizing left ops with
  | nil => cases ops <;> exact W.result _
  | cons right rest ih =>
    cases ops with
    | nil => exact W.nothing _
    | cons op ops =>
      have hop (hin : op.isMembership = true) : W.Calls :=
        h (by rw [List.any_cons, hin, Bool.true_or])
      have hops (hin : ops.any (·.isMembership) = true) : W.Calls :=
        h (by rw [List.any_cons, hin, Bool.or_true])
      refine W.bind (W.evaluate left) fun a ↦ W.bind (W.evaluate right) fun b ↦
        W.after (W.comparison hop _ a b) fun holds ↦ ?_
      split
      · exact ih right hops
      · exact W.nothing _

theorem binary (leftName : String) (ds : List Expr) (left : Interp → ContextId → Activity Value)
    (hleft : W.Holds ds left) {op : Operator} (hop : op.ofSets = true → W.Calls) (right : Expr) :
    W.Holds (ds ++ [right]) fun I c ↦ I.binary c leftName (left I c) op right := by
  unfold Interp.binary
  split
  · exact W.mono (W.unsupported _) (List.nil_sublist _)
  · refine W.bind hleft fun _ ↦ W.andThen (W.evaluate right) fun _ ↦ ?_
    unfold Interp.operate
    split
    · exact W.calling (.inl (hop ‹_›))
    · exact W.op _

theorem entries {items : List DictItem} (h : items.any (·.isSpread) = true → W.Calls)
    (es : Entries) : W.Holds (items.flatMap (·.operands false)) fun I c ↦ I.entries c items es := by
  induction items generalizing es with
  | nil => exact W.result _
  | cons item rest ih =>
    have ih := ih fun hrest ↦ h (by rw [List.any_cons, hrest, Bool.or_true])
    cases item with
    | spread e =>
      exact W.bind (W.evaluate e) fun _ ↦ W.after (W.calling (.inl (h rfl))) fun es ↦ ih es
    | pair k e =>
      show W.Holds ([e] ++ ([k] ++ rest.flatMap (·.operands false))) _
      exact W.bind (W.evaluate e) fun _ ↦ W.bind (W.evaluate k) fun _ ↦ W.after (W.op _) fun es ↦
        ih es

theorem namedArguments (h : W.Calls) (keywords : List Keyword) (es : Entries) :
    W.Holds (keywords.map Keyword.value) fun I c ↦ I.namedArguments c keywords es := by
  induction keywords generalizing es with
  | nil => exact W.result _
  | cons keyword rest ih =>
    obtain ⟨name, e⟩ := keyword
    cases name with
    | none => exact W.bind (W.evaluate e) fun _ ↦ W.after (W.calling (.inl h)) fun es ↦ ih es
    | some name => exact W.bind (W.evaluate e) fun _ ↦ W.after (W.op _) fun es ↦ ih es

theorem bound (e : Option Expr) : W.Holds e.toList fun I c ↦ I.bound c e := by
  cases e with
  | none => exact W.result _
  | some e => exact W.evaluate e

theorem sliceValue (lower upper step : Option Expr) :
    W.Holds (lower.toList ++ upper.toList ++ step.toList) fun I c ↦
      I.sliceValue c lower upper step := by
  rw [List.append_assoc]
  exact W.bind (W.bound lower) fun _ ↦ W.bind (W.bound upper) fun _ ↦
    W.andThen (W.bound step) fun _ ↦ W.result _

theorem itemOf (v : Value) (index : Expr) : W.Holds index.indices fun I c ↦ I.itemOf c v index := by
  refine W.after (W.read fun _ _ _ _ ↦ rfl) fun shape ↦ ?_
  cases index with
  | slice pos lower upper step => exact W.andThen (W.sliceValue lower upper step) fun _ ↦ W.op _
  | _ =>
    dsimp only
    split
    · exact W.andThen (W.guarded _ (W.evaluate _)) fun _ ↦ W.op _
    · exact W.nothing _

theorem callNode (h : W.Calls) (func : Expr) (args : List Expr) (keywords : List Keyword)
    (happly : ∀ f vs named, W.Holds [] fun I c ↦ I.apply c func f vs named) :
    W.Holds (func :: (keywords.map Keyword.value ++ args.map Expr.bare)) fun I c ↦
      I.callNode c func args keywords := by
  have hshown (vs : List Value) :
      W.Holds [] fun _ _ ↦ each vs fun v ↦ (do let _ ← Activity.op (Op.look v.plain)) := by
    induction vs with
    | nil => exact W.result ()
    | cons v rest ih => exact W.after (W.andThen (W.op _) fun _ ↦ W.result _) fun _ ↦ ih
  refine W.bind (W.evaluate func) fun f ↦ W.bind (W.namedArguments h keywords []) fun named ↦ ?_
  exact W.andThen (W.elements fun _ ↦ h) fun vs ↦ W.after (hshown vs) fun _ ↦ happly f vs named

theorem joinedText (es : List Expr) (t : String) : W.Holds es fun I c ↦ I.joinedText c es t := by
  induction es generalizing t with
  | nil => exact W.result _
  | cons e rest ih => exact W.bind (W.evaluate e) fun _ ↦ W.after (W.op _) fun _ ↦ ih _

theorem formattedText (value : Expr) (spec : Option Expr) :
    W.Holds (value :: spec.toList) fun I c ↦ I.formattedText c value spec := by
  refine W.bind (W.evaluate value) fun v ↦ ?_
  cases spec with
  | none => exact W.after (W.op _) fun _ ↦ W.result _
  | some e =>
    exact W.andThen (W.evaluate e) fun _ ↦ W.after (W.op _) fun _ ↦ W.after (W.op _) fun _ ↦
      W.result _

theorem literalNode (value : Literal) : W.Holds [] fun _ c ↦ Interp.literalNode c value := by
  refine W.after (W.read fun _ _ _ _ ↦ rfl) fun shape ↦ ?_
  split
  · exact W.unsupported _
  · exact W.unsupported _
  · exact W.result _

def Looked : Expr → Prop
  | .name .. | .member .. | .call .. => True
  | _ => False

theorem expression {e : Expr} (h : e.iterates = true → W.Calls) (hlooked : Looked e →
      W.Holds (e.operands false) fun I c ↦ I.expression c e) :
    W.Holds (e.operands false) fun I c ↦ I.expression c e := by
  cases e with
  | boolOp pos op values =>
    cases op with
    | and => exact W.conjunction _ values
    | or => exact W.disjunction values
  | binOp pos left op right =>
    exact W.after (W.read fun _ _ _ _ ↦ rfl) fun shape ↦ W.binary _ _ _ (W.evaluate left) h right
  | unaryOp pos op operand => exact W.andThen (W.evaluate operand) fun _ ↦ W.op _
  | ifExp pos test body orelse =>
    refine W.bind (W.evaluate test) fun v ↦ W.after (W.read fun _ _ _ _ ↦ rfl) fun s ↦ ?_
    split
    · exact W.mono (W.evaluate body) ((List.nil_sublist _).cons_cons _)
    · exact W.mono (W.evaluate orelse) ((List.Sublist.refl _).cons _)
  | dict pos items => exact W.andThen (W.entries h []) fun _ ↦ W.op _
  | set pos elts => exact W.andThen (W.elements h) fun _ ↦ W.op _
  | compare pos left ops rights => exact W.chain left h rights
  | formattedValue pos value conversion spec => exact W.formattedText value spec
  | joinedStr pos values => exact W.joinedText values ""
  | constant pos value kind => exact W.literalNode value
  | subscript pos value index access =>
    refine W.bind (W.evaluate value) fun v ↦ ?_
    cases access with
    | load => exact W.itemOf v index
    | _ => exact W.nothing _
  | list pos elts access =>
    cases access with
    | load => exact W.andThen (W.elements h) fun _ ↦ W.op _
    | _ => exact W.nothing _
  | tuple pos elts access =>
    cases access with
    | load => exact W.andThen (W.elements h) fun _ ↦ W.result _
    | _ => exact W.nothing _
  | name | member | call => exact hlooked trivial
  | _ => exact W.after (W.read fun _ _ _ _ ↦ rfl) fun _ ↦ W.unsupported _

end Walk

end TriggerScript
