import Mathlib.Data.List.DropRight
import TriggerScript.Proofs.Schedule.Earliest
import TriggerScript.Proofs.Schedule.TimeOfDay
import TriggerScript.Schedule.Active

/-!
# Several windows

What an entry adds to the flags of an active specification depends on whether it starts with `not`
(`Spec.Negated`) and whether the window in the rest of it contains the moment (`Spec.Matches`). The
flags only rise (`Tally.outcome_addAll`), so order and repetition do not matter
(`active_iff_matches`).
-/

namespace TriggerScript.Schedule

open Calendar Text Reading

/-! ### The ends of a text -/

theorem rdropWhile_cons (p : Char → Bool) (c : Char) (cs : List Char) :
    (c :: cs).rdropWhile p = if cs.rdropWhile p = [] ∧ p c = true then []
      else c :: cs.rdropWhile p := by
  simp only [List.rdropWhile, List.reverse_cons, List.dropWhile_append, List.reverse_eq_nil_iff]
  by_cases hnil : cs.reverse.dropWhile p = [] <;> by_cases hc : p c <;> simp [hnil, hc]

theorem strip_rdropWhile (cs : List Char) : strip (cs.rdropWhile isBlank) = strip cs := by
  show ((cs.rdropWhile isBlank).dropWhile isBlank).rdropWhile isBlank =
    (cs.dropWhile isBlank).rdropWhile isBlank
  induction cs with
  | nil => rfl
  | cons c cs ih =>
    rw [rdropWhile_cons]
    by_cases hblank : isBlank c = true
    · by_cases hnil : cs.rdropWhile isBlank = []
      · rw [if_pos ⟨hnil, hblank⟩, List.dropWhile_cons_of_pos hblank, ← ih, hnil]
      · rw [if_neg fun h ↦ hnil h.1, List.dropWhile_cons_of_pos hblank,
          List.dropWhile_cons_of_pos hblank, ih]
    · rw [if_neg fun h ↦ hblank h.2, List.dropWhile_cons_of_neg hblank,
        List.dropWhile_cons_of_neg hblank,
        rdropWhile_cons, rdropWhile_cons, List.rdropWhile_idempotent, if_neg fun h ↦ hblank h.2]

/-! ### What an entry says by itself -/

def Spec.Negated : Spec → Prop
  | .text s => "not".toList <+: strip s.toList
  | .other _ => False

instance : DecidablePred Spec.Negated
  | .text _ => inferInstanceAs (Decidable (_ <+: _))
  | .other _ => inferInstanceAs (Decidable False)

def tested (text : String) : List Char :=
  if (Spec.text text).Negated then strip ((strip text.toList).drop 3) else strip text.toList

def Spec.hit (sun : Sun) (now : Moment) : Spec → Except Fault Bool
  | .text s => ((Window.ofText (tested s)).contains sun now).outcome
  | .other type => .error (.noAttribute type "strip")

def Spec.Matches (sun : Sun) (now : Moment) (s : Spec) : Prop := s.hit sun now = .ok true

theorem readWindow_eq (text : String) :
    readWindow text = (decide (Spec.text text).Negated, Window.ofText (tested text)) := by
  have hlength : "not".toList.length = 3 := by decide
  unfold readWindow tested
  dsimp only
  cases hnot : after? "not".toList (strip text.toList) with
  | none =>
    have hpositive : ¬ (Spec.text text).Negated := by
      rintro ⟨rest, hrest⟩
      rw [after?_eq_some_iff.2 hrest.symm] at hnot
      cases hnot
    simp [hpositive]
  | some rest =>
    have hcut := after?_eq_some_iff.1 hnot
    have hnegated : (Spec.text text).Negated := ⟨rest, hcut.symm⟩
    rw [if_pos hnegated, decide_eq_true hnegated, hcut, ← hlength, List.drop_left]

theorem Cron.steady_active (c : Cron) (now : Moment) : Steady (c.active now) := by
  suffices h : ∀ fields, Steady (Cron.active.go fields) from h _
  intro fields
  induction fields with
  | nil => exact steady_pure true
  | cons field rest ih =>
    refine (steady_atLeast _ _).bind fun n ↦ ?_
    split
    · exact ih
    · exact steady_pure false

theorem Window.steady_contains (sun : Sun) (now : Moment) (w : Window) :
    Steady (w.contains sun now) := by
  cases w with
  | cron c => exact c.steady_active now
  | range start stop =>
    refine (DateTime.steady_moment _ _ _ _).bind fun start ↦
      (DateTime.steady_moment _ _ _ _).bind fun stop ↦ ?_
    split <;> exact steady_pure _
  | unknown => exact steady_pure false

/-! ### The walk -/

namespace Tally

def add (t : Tally) (negated hit : Bool) : Tally :=
  if negated then { t with excluded := t.excluded || hit }
  else { t with positive := true, inside := t.inside || hit }

variable {sun : Sun} {now : Moment}

theorem steady_addAll (t : Tally) (entries : List Spec) : Steady (addAll sun now t entries) := by
  induction entries generalizing t with
  | nil => exact steady_pure t
  | cons s entries ih =>
    cases s with
    | other type => exact steady_throw _
    | text s => exact (Window.steady_contains sun now _).bind fun hit ↦ ih _

theorem outcome_addAll_cons (t : Tally) (s : Spec) (entries : List Spec) :
    (addAll sun now t (s :: entries)).outcome = (do
      let hit ← s.hit sun now
      (addAll sun now (t.add (decide s.Negated) hit) entries).outcome) := by
  cases s with
  | other type => rfl
  | text s =>
    rw [addAll, readWindow_eq]
    exact outcome_bind _ fun hit ↦ steady_addAll _ _

theorem outcome_addAll {hit : Spec → Bool} {entries : List Spec}
    (h : ∀ s ∈ entries, s.hit sun now = .ok (hit s)) (t : Tally) :
    (addAll sun now t entries).outcome = .ok
      { positive := t.positive || entries.any fun s ↦ !decide s.Negated
        inside := t.inside || entries.any fun s ↦ !decide s.Negated && hit s
        excluded := t.excluded || entries.any fun s ↦ decide s.Negated && hit s } := by
  induction entries generalizing t with
  | nil => simp only [List.any_nil, Bool.or_false]; rfl
  | cons s entries ih =>
    rw [outcome_addAll_cons, h s List.mem_cons_self]
    show (addAll sun now (t.add (decide s.Negated) (hit s)) entries).outcome = _
    rw [ih fun u hu ↦ h u (List.mem_cons_of_mem s hu), add]
    by_cases hnegated : s.Negated <;> simp [hnegated, Bool.or_assoc]

end Tally

variable {sun : Sun} {now : Moment}

theorem outcome_active (entries : List Spec) : (active sun entries now).outcome =
    (fun t : Tally ↦ (!t.positive || t.inside) && !t.excluded) <$>
    (Tally.addAll sun now {} entries).outcome :=
  (outcome_bind _ fun _ ↦ steady_pure _).trans
    (by cases (Tally.addAll sun now {} entries).outcome <;> rfl)

theorem outcome_active_singleton (s : Spec) :
    (active sun [s] now).outcome = (· != decide s.Negated) <$> s.hit sun now := by
  rw [outcome_active, Tally.outcome_addAll_cons]
  cases s.hit sun now with
  | error f => rfl
  | ok hit =>
    show Except.ok _ = Except.ok _
    by_cases hnegated : s.Negated <;> cases hit <;> simp [Tally.add, hnegated]

def notText (blanks : List Char) (text : String) : String :=
  String.ofList ("not".toList ++ (blanks ++ text.toList))

theorem hit_notText {blanks : List Char} (hblank : ∀ c ∈ blanks, isBlank c = true) {text : String}
    (h : ¬ (Spec.text text).Negated) :
    (Spec.text (notText blanks text)).Negated ∧
      (Spec.text (notText blanks text)).hit sun now = (Spec.text text).hit sun now := by
  have hword : "not".toList = ['n', 'o', 't'] := by decide
  have hstrip : strip (notText blanks text).toList =
      "not".toList ++ (blanks ++ text.toList).rdropWhile isBlank := by
    show ((notText blanks text).toList.dropWhile isBlank).rdropWhile isBlank = _
    unfold notText
    rw [String.toList_ofList, hword]
    simp only [List.cons_append, List.nil_append]
    rw [List.dropWhile_cons_of_neg (by decide), rdropWhile_cons, rdropWhile_cons, rdropWhile_cons]
    simp [show isBlank 'n' = false by decide, show isBlank 'o' = false by decide,
      show isBlank 't' = false by decide]
  have hnegated : (Spec.text (notText blanks text)).Negated := ⟨_, hstrip.symm⟩
  have hblanks : strip (blanks ++ text.toList) = strip text.toList := by
    unfold strip dropBlanks
    rw [List.dropWhile_append_of_pos hblank]
  have htested : tested (notText blanks text) = tested text := by
    rw [tested, if_pos hnegated, tested, if_neg h, hstrip, hword]
    show strip ((blanks ++ text.toList).rdropWhile isBlank) = _
    rw [strip_rdropWhile, hblanks]
  exact ⟨hnegated, by rw [Spec.hit, Spec.hit, htested]⟩

def Allowed (sun : Sun) (now : Moment) (entries : List Spec) : Prop :=
  ((∀ s ∈ entries, s.Negated) ∨ ∃ s ∈ entries, ¬ s.Negated ∧ s.Matches sun now) ∧
    ∀ s ∈ entries, s.Negated → ¬ s.Matches sun now

theorem exists_hit {s : Spec} (h : ∃ hit, (active sun [s] now).outcome = .ok hit) :
    s.hit sun now = .ok ((s.hit sun now).toOption.getD false) := by
  obtain ⟨hit, hhit⟩ := h
  rw [outcome_active_singleton] at hhit
  cases hrun : s.hit sun now with
  | error f =>
    rw [hrun] at hhit
    cases hhit
  | ok hit => rfl

theorem exists_outcome_active {entries : List Spec}
    (h : ∀ s ∈ entries, ∃ hit, (active sun [s] now).outcome = .ok hit) :
    ∃ hit, (active sun entries now).outcome = .ok hit ∧ (hit = true ↔ Allowed sun now entries) := by
  have hsome := fun s hs ↦ exists_hit (h s hs)
  have hmatches : ∀ s ∈ entries,
      (s.Matches sun now ↔ (s.hit sun now).toOption.getD false = true) := by
    intro s hs
    rw [Spec.Matches, hsome s hs]
    simp [Except.toOption]
  refine ⟨_, by rw [outcome_active, Tally.outcome_addAll hsome]; rfl, ?_⟩
  simp only [Bool.false_or, Bool.and_eq_true, Bool.or_eq_true, Bool.not_eq_true', List.any_eq_false,
    List.any_eq_true, decide_eq_true_eq, Allowed]
  grind

/-- **Active moments.** Let no entry be refused by itself. A moment is active if there is no
positive entry or some positive entry matches it, and no entry that starts with `not` matches it
with its rest. So order and repetition do not count. A positive entry after `not` says the opposite
of the entry, and is refused with it. -/
theorem active_iff_matches (sun : Sun) (now : Moment) (entries : List Spec)
    (h : ∀ s ∈ entries, ∃ hit, (active sun [s] now).outcome = .ok hit) :
    (∃ hit, (active sun entries now).outcome = .ok hit ∧
      (hit = true ↔ ((∀ s ∈ entries, s.Negated) ∨ ∃ s ∈ entries, ¬ s.Negated ∧ s.Matches sun now) ∧
        ∀ s ∈ entries, s.Negated → ¬ s.Matches sun now) ∧
      ∀ others : List Spec, (∀ s, s ∈ others ↔ s ∈ entries) →
        (active sun others now).outcome = .ok hit) ∧
    ∀ (text : String) (blanks : List Char), ¬ (Spec.text text).Negated →
      (∀ c ∈ blanks, isBlank c = true) → (active sun [.text (notText blanks text)] now).outcome =
        (! ·) <$> (active sun [.text text] now).outcome := by
  refine ⟨?_, fun text blanks hpositive hblank ↦ ?_⟩
  · obtain ⟨hit, hrun, hiff⟩ := exists_outcome_active h
    refine ⟨hit, hrun, hiff, fun others hothers ↦ ?_⟩
    obtain ⟨hit', hrun', hiff'⟩ := exists_outcome_active fun s hs ↦ h s ((hothers s).1 hs)
    have hsame : Allowed sun now others ↔ Allowed sun now entries := by simp only [Allowed, hothers]
    rw [hrun', Bool.eq_iff_iff.2 (hiff'.trans (hsame.trans hiff.symm))]
  · obtain ⟨hnegated, hhit⟩ := hit_notText hblank hpositive
    rw [outcome_active_singleton, outcome_active_singleton, hhit, decide_eq_true hnegated,
      decide_eq_false hpositive]
    cases (Spec.text text).hit sun now with
    | error f => rfl
    | ok hit => cases hit <;> rfl

def officeHours : List Spec :=
  [.text "range(9:00, 10:00)", .text " not cron(0 * * * *)", .text "range(22:00, 2:00)"]

theorem active_iff_matches_officeHours :
    (∀ s ∈ officeHours, ∃ hit, (active {} [s] tenPastNine).outcome = .ok hit) ∧
    (∃ hit, (active {} officeHours tenPastNine).outcome = .ok hit ∧
      (hit = true ↔ ((∀ s ∈ officeHours, s.Negated) ∨
          ∃ s ∈ officeHours, ¬ s.Negated ∧ s.Matches {} tenPastNine) ∧
        ∀ s ∈ officeHours, s.Negated → ¬ s.Matches {} tenPastNine) ∧
      ∀ others : List Spec, (∀ s, s ∈ others ↔ s ∈ officeHours) →
        (active {} others tenPastNine).outcome = .ok hit) ∧
    ¬ (Spec.text "range(9:00, 10:00)").Negated ∧
    (active {} [.text (notText [' '] "range(9:00, 10:00)")] tenPastNine).outcome =
      (! ·) <$> (active {} [.text "range(9:00, 10:00)"] tenPastNine).outcome := by
  have h : ∀ s ∈ officeHours, ∃ hit, (active {} [s] tenPastNine).outcome = .ok hit := by decide
  have hpositive : ¬ (Spec.text "range(9:00, 10:00)").Negated := by decide
  have hall := active_iff_matches {} tenPastNine officeHours h
  exact ⟨h, hall.1, hpositive, hall.2 _ [' '] hpositive (List.forall_mem_singleton.2 (by decide))⟩

end TriggerScript.Schedule
