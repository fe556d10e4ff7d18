import Mathlib.Data.List.Flatten
import Mathlib.Data.List.Perm.Subperm
import TriggerScript.Proofs.Evaluation.Account

/-!
# The order of evaluation

The evaluator takes how parts are evaluated as a parameter, so what it does with an expression is a
family of activities. `Ordered` says that every run has visits, and that these are among the listed
operands in the order of evaluation, `Expr.operands false`. It is proved of one layer at a time, and
of all expressions by induction on the depth.

An expression is written in the order of `Expr.operands true`. The two orders differ in four places:
the value of a dictionary's entry comes before its key, arguments by name come before the others, a
condition comes before the value in front of it, and an operand between two comparison signs is
evaluated for either of them. `evaluate_visits` states what is left of the written order.
-/

namespace TriggerScript

open Syntax (Position Expr Keyword DictItem Comparison Operator Access)

open Activity

/-! ### Operands -/

namespace Syntax

/-- The parts of an expression down to a depth, operands first. -/
def Expr.listing (written : Bool) : Nat → Expr → List Expr
  | 0, e => [e]
  | n + 1, e => (e.operands written).flatMap (listing written n) ++ [e]

/-- A comparison with several operators. -/
def Expr.isChain : Expr → Bool
  | .compare _ _ _ (_ :: _ :: _) => true
  | _ => false

def Expr.isCall : Expr → Bool
  | .call .. => true
  | _ => false

/-- `p` holds of the expression and of all its parts. -/
def Expr.Throughout (e : Expr) (p : Expr → Prop) : Prop := ∀ n, ∀ d ∈ e.listing true n, p d

def Expr.CallFree (e : Expr) : Prop := e.Throughout (·.isCall = false)

def DictItem.Apart : DictItem → Prop
  | .pair k v => k.CallFree ∨ v.CallFree
  | .spread _ => True

/-- Parts that are evaluated twice, or in another order, do not call. -/
def Expr.Apart : Expr → Prop
  | .ifExp _ test body _ => test.CallFree ∨ body.CallFree
  | .dict _ items => ∀ item ∈ items, item.Apart
  | .compare _ _ _ rights => ∀ d ∈ rights.dropLast, d.CallFree
  | .call _ _ args keywords =>
    (∀ d ∈ args.map Expr.bare, d.CallFree) ∨ ∀ d ∈ keywords.map Keyword.value, d.CallFree
  | _ => True

section

variable {p : Expr → Prop} {e d : Expr}

theorem Expr.Throughout.self (h : e.Throughout p) : p e := h 0 e (List.mem_singleton_self e)

theorem Expr.Throughout.operand (h : e.Throughout p) (hd : d ∈ e.operands true) :
    d.Throughout p := by
  intro n d' hd'
  exact h (n + 1) d' (List.mem_append_left _ (List.mem_flatMap.2 ⟨d, hd, hd'⟩))

theorem Expr.CallFree.filter_listing (h : e.CallFree) (n : Nat) :
    (e.listing true n).filter Expr.isCall = [] :=
  List.filter_eq_nil_iff.2 fun d hd ↦ by simp [h n d hd]

end

section

variable {α : Type} {ds : List α} {f g : α → List Expr}

theorem flatMap_subperm_left (h : ∀ d ∈ ds, (f d).Subperm (g d)) :
    (ds.flatMap f).Subperm (ds.flatMap g) := by
  induction ds with
  | nil => exact List.Subperm.refl _
  | cons d rest ih =>
    exact (h d List.mem_cons_self).append (ih fun d hd ↦ h d (List.mem_cons_of_mem _ hd))

theorem flatMap_swap (ds ds' rest : List α) (h : (∀ d ∈ ds, f d = []) ∨ ∀ d ∈ ds', f d = []) :
    ((ds ++ (ds' ++ rest)).flatMap f).Sublist ((ds' ++ (ds ++ rest)).flatMap f) := by
  rcases h with h | h <;> simp [List.flatMap_append, List.flatMap_eq_nil_iff.2 h]

end

/-! ### Each operand once -/

theorem DictItem.operands_perm (items : List DictItem) :
    (items.flatMap (·.operands false)).Perm (items.flatMap (·.operands true)) := by
  refine List.Perm.flatMap_left _ fun item _ ↦ ?_
  cases item with
  | pair k v => exact List.Perm.swap k v []
  | spread e => exact List.Perm.refl _

theorem Expr.operands_subperm {e : Expr} (h : e.isChain = false) :
    (e.operands false).Subperm (e.operands true) := by
  cases e with
  | ifExp pos test body orelse => exact (List.Perm.swap _ _ _).subperm
  | dict pos items => exact (DictItem.operands_perm items).subperm
  | compare pos left ops rights =>
    rcases rights with _ | ⟨right, _ | ⟨next, rest⟩⟩
    · exact List.nil_subperm
    · exact List.Subperm.refl _
    · cases h
  | call pos func args keywords => exact (List.perm_append_comm.cons func).subperm
  | _ => exact List.Subperm.refl _

theorem Expr.listing_subperm {e : Expr} (h : e.Throughout (·.isChain = false)) (n : Nat) :
    (e.listing false n).Subperm (e.listing true n) := by
  induction n generalizing e with
  | zero => exact List.Subperm.refl _
  | succ n ih =>
    obtain ⟨ds, hperm, hsub⟩ := operands_subperm h.self
    refine List.Subperm.append ?_ (List.Subperm.refl [e])
    have hfirst := (hperm.flatMap_right (listing false n)).symm.subperm
    have hsecond := flatMap_subperm_left fun d hd ↦ ih (h.operand (hsub.subset hd))
    exact hfirst.trans (hsecond.trans (hsub.flatMap _).subperm)

/-! ### Calls as they are written -/

theorem Expr.operands_subset (e : Expr) : e.operands false ⊆ e.operands true := by
  cases hchain : e.isChain with
  | false => exact (operands_subperm hchain).subset
  | true =>
    cases e with
    | compare pos left ops rights => exact links_subset left rights
    | _ => cases hchain

theorem Expr.links_sublist {f : Expr → List Expr} {left : Expr} {rights : List Expr}
    (h : ∀ d ∈ rights.dropLast, f d = []) :
    ((left.links rights).flatMap f).Sublist ((left :: rights).flatMap f) := by
  induction rights generalizing left with
  | nil => exact List.nil_sublist _
  | cons right rest ih =>
    rw [Expr.links, List.flatMap_cons, List.flatMap_cons, List.flatMap_cons]
    refine (List.Sublist.refl _).append ?_
    cases rest with
    | nil => exact List.Sublist.refl _
    | cons next rest =>
      -- `right` stands between two signs: its first evaluation adds nothing
      rw [h right List.mem_cons_self]
      exact ih fun d hd ↦ h d (List.mem_cons_of_mem _ hd)

section

variable {f : Expr → List Expr} (hf : ∀ d : Expr, d.CallFree → f d = [])

include hf

theorem DictItem.operands_sublist {item : DictItem} (h : item.Apart) :
    ((item.operands false).flatMap f).Sublist ((item.operands true).flatMap f) := by
  cases item with
  | pair k v =>
    exact flatMap_swap [v] [k] [] (h.symm.imp (by simpa using hf v) (by simpa using hf k))
  | spread e => exact List.Sublist.refl _

theorem Expr.operands_sublist {e : Expr} (h : e.Apart) :
    ((e.operands false).flatMap f).Sublist ((e.operands true).flatMap f) := by
  cases e with
  | ifExp pos test body orelse =>
    exact flatMap_swap [test] [body] [orelse]
      (h.imp (by simpa using hf test) (by simpa using hf body))
  | dict pos items =>
    rw [Expr.operands, Expr.operands, List.flatMap_assoc, List.flatMap_assoc]
    exact .flatMap_right _ fun item hitem ↦ DictItem.operands_sublist hf (h item hitem)
  | compare pos left ops rights => exact links_sublist fun d hd ↦ hf d (h d hd)
  | call pos func args keywords =>
    have hswap := flatMap_swap (keywords.map Keyword.value) (args.map Expr.bare) []
      (h.symm.imp (fun h d hd ↦ hf d (h d hd)) fun h d hd ↦ hf d (h d hd))
    rw [List.append_nil, List.append_nil] at hswap
    exact (List.Sublist.refl (f func)).append hswap
  | _ => exact List.Sublist.refl _

end

theorem Expr.listing_calls {e : Expr} (h : e.Throughout Expr.Apart) (n : Nat) :
    ((e.listing false n).filter Expr.isCall).Sublist ((e.listing true n).filter Expr.isCall) := by
  induction n generalizing e with
  | zero => exact List.Sublist.refl _
  | succ n ih =>
    simp only [listing, List.filter_append, List.filter_flatMap]
    refine List.Sublist.append ?_ (List.Sublist.refl _)
    refine (List.Sublist.flatMap_right _ fun d hd ↦ ih (h.operand (e.operands_subset hd))).trans ?_
    exact operands_sublist (fun d hd ↦ hd.filter_listing n) h.self

end Syntax

/-! ### Visits -/

/-- A run of a family of activities, with the expressions whose values it asked for. -/
inductive Visits (E : Environment) (c : ContextId) :
    Nat → {α : Type} → (Interp → Activity α) → World → List Expr → Except Stop α → World → Prop
  | beside {n : Nat} {α : Type} {x : Activity α} {w w' : World} {r : Except Stop α}
      (h : (x w).Finishes E r w') : Visits E c n (fun _ ↦ x) w [] r w'
  | perform {n : Nat} {func : Expr} {f : Value} {args : List Value} {named : Entries} {w w' : World}
      {r : Except Stop Value} (h : ((Interp.upTo n).apply c func f args named w).Finishes E r w') :
      Visits E c n (fun I ↦ I.apply c func f args named) w [] r w'
  | bind {n : Nat} {α β : Type} {x : Interp → Activity α} {f : Interp → α → Activity β}
      {w w₁ w' : World}
      {a : α} {tr tr' : List Expr} {r : Except Stop β} (hx : Visits E c n x w tr (.ok a) w₁)
      (hf : Visits E c n (fun I ↦ f I a) w₁ tr' r w') : Visits E c n (fun I ↦ x I >>= f I) w
        (tr ++ tr') r w'
  | failed {n : Nat} {α β : Type} {x : Interp → Activity α} {f : Interp → α → Activity β}
      {w w' : World} {e : Stop} {tr : List Expr} (hx : Visits E c n x w tr (.error e) w') :
      Visits E c n (fun I ↦ x I >>= f I) w tr (.error e) w'
  | guarded {n : Nat} {α : Type} {x : Interp → Activity α} {w w₁ w' : World} {tr : List Expr}
      {pos : Option Position} {fallback : α} {r₁ r : Except Stop α} {V : List Incident}
      (hx : Visits E c n x w tr r₁ w₁) (hdeals : Deals c pos fallback r₁ w₁ V r w') :
      Visits E c n (fun I ↦ guarded c pos fallback (x I)) w tr r w'
  | node {n : Nat} {e : Expr} {w w' : World} {tr : List Expr} {r : Except Stop Value}
      (h : Visits E c n (fun I ↦ I.expression c e) w tr r w') :
      Visits E c (n + 1) (fun I ↦ I.node c e) w (tr ++ [e]) r w'
  | tooDeep {e : Expr} {w : World} :
      Visits E c 0 (fun I ↦ I.node c e) w [e] (.error .outOfFuel) w

theorem Visits.finishes {E : Environment} {c : ContextId} {n : Nat} {α : Type}
    {x : Interp → Activity α} {w w' : World} {tr : List Expr} {r : Except Stop α}
    (h : Visits E c n x w tr r w') :
    (x (Interp.upTo n) w).Finishes E r w' := by
  induction h with
  | beside h => exact h
  | perform h => exact h
  | bind _ _ ihx ihf => exact ihx.bind ihf
  | failed _ ih => exact ih.failed
  | guarded _ hdeals ih => exact finishes_of_deals hdeals ih
  | node _ ih => exact ih
  | tooDeep => exact .ended _ _

def Ordered (c : ContextId) (n : Nat) (ds : List Expr) {α : Type} (x : Interp → Activity α) :
    Prop :=
  ∀ E w r w', (x (Interp.upTo n) w).Finishes E r w' →
    ∃ tr, Visits E c n x w tr r w' ∧ tr.Sublist (ds.flatMap (Expr.listing false n))

namespace Ordered

variable {c : ContextId} {n : Nat} {α β : Type} {ds ds' : List Expr} {x : Interp → Activity α}

theorem mono (h : Ordered c n ds x) (hds : ds.Sublist ds') : Ordered c n ds' x := by
  intro E w r w' hrun
  obtain ⟨tr, hvisits, hsub⟩ := h E w r w' hrun
  exact ⟨tr, hvisits, hsub.trans (hds.flatMap _)⟩

theorem beside (x : Activity α) : Ordered c n ds fun _ ↦ x := by
  intro E w r w' hrun
  exact ⟨[], .beside hrun, List.nil_sublist _⟩

theorem perform (func : Expr) (f : Value) (args : List Value) (named : Entries) :
    Ordered c n ds fun I ↦ I.apply c func f args named := by
  intro E w r w' hrun
  exact ⟨[], .perform hrun, List.nil_sublist _⟩

theorem bind {f : Interp → α → Activity β} (hx : Ordered c n ds x)
    (hf : ∀ a, Ordered c n ds' fun I ↦ f I a) : Ordered c n (ds ++ ds') fun I ↦ x I >>= f I := by
  intro E w r w' hrun
  rw [List.flatMap_append]
  rcases hrun.of_bind with ⟨a, w₁, hfirst, hsecond⟩ | ⟨e, hfirst, rfl⟩
  · obtain ⟨tr, hvisits, hsub⟩ := hx E w _ w₁ hfirst
    obtain ⟨tr', hvisits', hsub'⟩ := hf a E w₁ r w' hsecond
    exact ⟨tr ++ tr', .bind hvisits hvisits', hsub.append hsub'⟩
  · obtain ⟨tr, hvisits, hsub⟩ := hx E w _ w' hfirst
    exact ⟨tr, .failed hvisits, hsub.trans (List.sublist_append_left _ _)⟩

theorem guarded (hx : Ordered c n ds x) (pos : Option Position) (fallback : α) :
    Ordered c n ds fun I ↦ Activity.guarded c pos fallback (x I) := by
  intro E w r w' hrun
  obtain ⟨r₁, w₁, V, hinner, hdeals⟩ := deals_of_finishes hrun
  obtain ⟨tr, hvisits, hsub⟩ := hx E w r₁ w₁ hinner
  exact ⟨tr, .guarded hvisits hdeals, hsub⟩

/-! ### One layer -/

section

variable (hnode : ∀ e, Ordered c n [e] fun I ↦ I.node c e)

def walk : Walk where
  Holds ds _ x := Ordered c n ds fun I ↦ x I c
  Calls := True
  mono := mono
  read _ := beside _
  raise _ := beside _
  op _ := beside _
  calling _ := beside _
  unsupported _ := beside _
  bind := bind
  guarded pos hx := hx.guarded pos _
  node := hnode

include hnode

theorem memberNode (e value : Expr) (attr : String) (access : Access) :
    Ordered c n [value] fun I ↦ I.memberNode c e value attr access := by
  unfold Interp.memberNode
  split
  · exact beside _
  · show Ordered c n ([value] ++ []) _
    exact ((hnode value).guarded _ _).bind fun _ ↦ beside _

theorem expression (e : Expr) : Ordered c n (e.operands false) fun I ↦ I.expression c e := by
  refine (walk hnode).expression (e := e) (fun _ ↦ trivial) fun hlooked ↦ ?_
  cases e with
  | name => exact beside _
  | member pos value attr access => exact memberNode hnode _ value attr access
  | call pos func args keywords =>
    exact (walk hnode).callNode trivial func args keywords fun f vs named ↦ perform func f vs named
  | _ => cases hlooked

end

theorem node (n : Nat) (e : Expr) : Ordered c n [e] fun I ↦ I.node c e := by
  induction n generalizing e with
  | zero =>
    intro E w r w' hrun
    cases hrun
    exact ⟨[e], .tooDeep, List.Sublist.refl _⟩
  | succ n ih =>
    intro E w r w' hrun
    obtain ⟨tr, hvisits, hsub⟩ := expression ih e E w r w' hrun
    refine ⟨tr ++ [e], .node hvisits, ?_⟩
    rw [List.flatMap_singleton]
    exact hsub.append (List.Sublist.refl _)

end Ordered

/-- **The order of evaluation.** The runs of an expression are those with visits to its operands in
the order of evaluation. Without a chain of comparisons each written operand is visited once at
most, and where no calls are exchanged or repeated they are visited as they are written. -/
theorem evaluate_visits (E : Environment) (c : ContextId) (n : Nat) (e : Expr) (w w' : World)
    (r : Except Stop Value) :
    ((Interp.upTo n).evaluate c e w).Finishes E r w' ↔
      ∃ tr, Visits E c n (fun I ↦ I.evaluate c e) w tr r w' ∧ tr.Sublist (e.listing false n) ∧
        (e.Throughout (·.isChain = false) → tr.Subperm (e.listing true n)) ∧
        (e.Throughout Expr.Apart →
          (tr.filter Expr.isCall).Sublist ((e.listing true n).filter Expr.isCall)) := by
  constructor
  · intro hrun
    obtain ⟨tr, hvisits, hsub⟩ := (Ordered.walk (Ordered.node n)).evaluate e E w r w' hrun
    rw [List.flatMap_singleton] at hsub
    refine ⟨tr, hvisits, hsub, fun hchains ↦ ?_, fun hapart ↦ ?_⟩
    · exact hsub.subperm.trans (Syntax.Expr.listing_subperm hchains n)
    · exact (hsub.filter _).trans (Syntax.Expr.listing_calls hapart n)
  · rintro ⟨tr, hvisits, -⟩
    exact hvisits.finishes

def speaking : World :=
  { knowing [] 0 with tables := #[⟨[(some "say", .host (.log .info "test"))]⟩] }

def saying (e : Expr) (keywords : List Keyword) : Expr :=
  .call ⟨1, 0⟩ (.name ⟨1, 0⟩ "say" .load) [e] keywords

def sayingText (t : String) : Expr := saying (.constant ⟨1, 4⟩ (.text t) none) []

def spoken (e : Expr) : Option (List String) :=
  (((Interp.upTo 4).evaluate 0 e speaking).replay 0 []).bind fun p ↦
    p.1.toOption.map fun _ ↦ p.2.log.toList.map (·.text)

/-- In `1 != say("a") != 2` the call is performed twice, in `{say("a"): say("b")}` the calls are
performed from right to left, and so they are in `say(say("a"), extra=say("b"))`. -/
theorem calls_twice_and_from_the_right :
    spoken (.compare ⟨1, 0⟩ (.constant ⟨1, 0⟩ (.int 1) none) [.notEq, .notEq]
      [sayingText "a", .constant ⟨1, 17⟩ (.int 2) none]) = some ["a", "a"] ∧
    spoken (.dict ⟨1, 0⟩ [.pair (sayingText "a") (sayingText "b")]) = some ["b", "a"] ∧
    spoken (saying (sayingText "a") [.keyword (some "extra") (sayingText "b")]) =
      some ["b", "a", "None"] := by
  decide +kernel

end TriggerScript
