import TriggerScript.Proofs.Calendar.Clock
import TriggerScript.Schedule.Next

/-!
# The earliest moment of several entries

What an entry adds to the earliest moment found so far is the moment that it names by itself
(`joins_nextOfEntry`), with one exception: a period with an end whose window is open, but has no
round left, looks at the start of tomorrow only if nothing has been found so far (`Entry.Spent`). So
a list of entries names the earliest moment of those that count (`next_isLeast_counted`). Readings
do not depend on the warnings noted before (`Reading.Steady`).
-/

namespace TriggerScript.Schedule

open Calendar
open DateTime

/-! ### Outcomes of readings -/

namespace Reading

variable {α β : Type}

def outcome (x : Reading α) : Except Fault α := (x.run.run []).run.1

def Steady (x : Reading α) : Prop := ∀ log, (x.run.run log).run.1 = x.outcome

theorem steady_pure (a : α) : Steady (pure a) := fun _ ↦ rfl

theorem steady_throw (f : Fault) : Steady (throw f : Reading α) := fun _ ↦ rfl

theorem steady_warn (text : String) : Steady (warn text) := fun _ ↦ rfl

theorem steady_lift (r : Except Fault α) : Steady (lift r) := by
  rcases r with f | a
  · exact steady_throw f
  · exact steady_pure a

@[simp] theorem outcome_lift (r : Except Fault α) : (lift r).outcome = r := by
  rcases r with f | a <;> rfl

variable {f : α → Reading β}

theorem run_bind_fst (x : Reading α) (hf : ∀ a, Steady (f a)) (log : List String) :
    ((x >>= f).run.run log).run.1 = (x.run.run log).run.1 >>= fun a ↦ (f a).outcome := by
  show ((ExceptT.bindCont f (x.run.run log).run.1).run (x.run.run log).run.2).run.1 = _
  rcases (x.run.run log).run.1 with fault | a
  · rfl
  · exact hf a _

theorem outcome_bind (x : Reading α) (hf : ∀ a, Steady (f a)) :
    (x >>= f).outcome = x.outcome >>= fun a ↦ (f a).outcome :=
  run_bind_fst x hf []

theorem Steady.bind {x : Reading α} (hx : Steady x) (hf : ∀ a, Steady (f a)) :
    Steady (x >>= f) := by
  intro log
  rw [run_bind_fst x hf, hx log, outcome_bind x hf]

end Reading

open Reading

/-! ### Steady readings -/

theorem steady_atLeast (field : Field) (n : Int) : Steady (field.atLeast n) := by
  refine (steady_lift _).bind fun pick ↦ ?_
  rcases pick with n | e
  · exact steady_pure n
  · exact (steady_warn _).bind fun _ ↦ steady_pure _

namespace Cron

variable (c : Cron)

theorem steady_daysInMonth (month year : Int) : Steady (daysInMonth month year) := by
  rw [daysInMonth]
  split
  · exact steady_pure _
  · exact steady_throw _

theorem steady_seekMonth (mday : Int) (n : Nat) (month year : Int) :
    Steady (c.seekMonth mday n month year) := by
  induction n generalizing month year with
  | zero => exact steady_pure none
  | succ n ih =>
    rw [seekMonth]
    refine (steady_atLeast _ _).bind fun next ↦ (steady_daysInMonth _ _).bind fun days ↦ ?_
    split
    · exact steady_pure _
    · exact ih _ _

theorem steady_carries (month year tomorrow day : Int) :
    Steady (carries month year tomorrow day) := by
  rw [carries]
  split
  · exact steady_pure _
  · exact (steady_daysInMonth _ _).bind fun _ ↦ steady_pure _

theorem steady_laterMonth (month year : Int) : Steady (c.laterMonth month year) := by
  refine (steady_atLeast _ _).bind fun firstDay ↦ (c.steady_seekMonth _ _ _ _).bind fun found ↦ ?_
  rcases found with _ | found
  · exact steady_pure _
  · exact (steady_lift _).bind fun first ↦ (steady_atLeast _ _).bind fun wday ↦ steady_pure _

theorem steady_laterDate (now : Moment) (month : Int) : Steady (c.laterDate now month) := by
  refine (steady_daysInMonth _ _).bind fun size ↦ (steady_atLeast _ _).bind fun byDay ↦
    (steady_carries _ _ _ _).bind fun dayCarries ↦ (steady_atLeast _ _).bind fun wday ↦
    (steady_carries _ _ _ _).bind fun weekdayCarries ↦ ?_
  dsimp only
  split
  · exact c.steady_laterMonth _ _
  · exact steady_pure _

theorem steady_laterTime (now : Moment) : Steady (c.laterTime now) :=
  (steady_atLeast _ _).bind fun _ ↦ (steady_atLeast _ _).bind fun _ ↦
    (steady_atLeast _ _).bind fun _ ↦ steady_pure _

theorem steady_laterDay (now : Moment) (month : Int) : Steady (c.laterDay now month) := by
  refine (steady_atLeast _ _).bind fun minute ↦ (steady_atLeast _ _).bind fun hour ↦
    (c.steady_laterDate _ _).bind fun found ↦ ?_
  rcases found with _ | found
  · exact steady_pure _
  · exact (steady_lift _).bind fun t ↦ steady_pure _

theorem steady_next (now : Moment) : Steady (c.next now) := by
  refine (steady_atLeast _ _).bind fun _ ↦ (steady_atLeast _ _).bind fun month ↦
    (steady_atLeast _ _).bind fun mday ↦ (steady_atLeast _ _).bind fun wday ↦
    (c.steady_laterTime now).bind fun time ↦ ?_
  dsimp only
  split
  · exact c.steady_laterDay _ _
  · exact (steady_lift _).bind fun t ↦ steady_pure _

end Cron

theorem DateTime.steady_sunEvent (event : Option Moment) (text : List Char) :
    Steady (resolveClock.sunEvent event text) := by
  rcases event with _ | m
  · exact (steady_warn _).bind fun _ ↦ steady_pure _
  · exact (steady_lift _).bind fun _ ↦ steady_pure _

theorem DateTime.steady_resolveClock (sun : Sun) (part : ClockPart) :
    Steady (resolveClock sun part) := by
  rcases part with ⟨h, m, s⟩ | text | text | _ | _ | _
  · exact (steady_lift _).bind fun _ ↦ (steady_lift _).bind fun _ ↦ (steady_lift _).bind fun _ ↦
      steady_pure _
  · exact steady_sunEvent _ _
  · exact steady_sunEvent _ _
  all_goals exact steady_pure _

theorem DateTime.steady_moment (sun : Sun) (dayOffset : Days) (now : Moment) (text : String) :
    Steady (moment sun dayOffset now text) := by
  refine (steady_lift _).bind fun midnight ↦ (steady_resolveClock _ _).bind fun clock ↦ ?_
  rcases clock with _ | clock
  · exact steady_lift _
  refine (steady_lift _).bind fun m ↦ ?_
  split
  · exact steady_pure _
  · refine (steady_lift _).bind fun offset ↦ ?_
    rcases offset with _ | offset
    · exact steady_pure _
    · exact steady_lift _

variable {sun : Sun} {now : Moment}

theorem steady_overMidnight (startText stopText : String) (start stop : Moment) :
    Steady (if stop < start then
      if stop ≤ now then do pure (start, some (← moment sun (.whole 1) now stopText))
      else do pure (← moment sun (.whole (-1)) now startText, some stop)
    else pure (start, some stop)) := by
  split
  · split
    · exact (steady_moment _ _ _ _).bind fun _ ↦ steady_pure _
    · exact (steady_moment _ _ _ _).bind fun _ ↦ steady_pure _
  · exact steady_pure _

theorem steady_periodWindow (startText : String) (stopText : Option String) :
    Steady (periodWindow sun now startText stopText) := by
  refine (steady_moment _ _ _ _).bind fun start ↦ ?_
  rcases stopText with _ | text
  · exact steady_pure _
  · exact (steady_moment _ _ _ _).bind fun stop ↦ steady_overMidnight _ _ _ _

theorem steady_joinRound (startText : String) (stop best : Option Moment) (t : Moment) :
    Steady (joinRound sun now startText stop best t) := by
  rcases stop with _ | stop
  · exact steady_pure _
  rw [joinRound]
  generalize (if t ≤ stop then sooner now best t else best) = best'
  split
  · exact (steady_moment _ _ _ _).bind fun _ ↦ steady_pure _
  · exact steady_pure _

theorem steady_joinRounds (startText : String) (start : Moment) (stop best : Option Moment)
    (interval : Option Offset) :
    Steady (joinRounds sun now startText start stop best interval) := by
  rcases interval with _ | interval
  · exact steady_pure _
  rw [joinRounds]
  split
  · exact (steady_lift _).bind fun t ↦ steady_joinRound _ _ _ _
  · exact steady_pure _

theorem steady_nextOfPeriod (startText intervalText : String) (stopText : Option String)
    (best : Option Moment) : Steady (nextOfPeriod sun now startText intervalText stopText best) :=
  (steady_periodWindow _ _).bind fun _ ↦ (steady_lift _).bind fun interval ↦
    steady_joinRounds _ _ _ _ interval

theorem steady_nextOfEntry (best : Option Moment) (text : String) :
    Steady (nextOfEntry sun now best text) := by
  rw [nextOfEntry]
  rcases Entry.ofText text with c | text | ⟨start, interval, stop⟩ | _
  · refine (c.steady_next now).bind fun found ↦ ?_
    rcases found with _ | t
    · exact steady_pure _
    · exact steady_pure _
  · refine (steady_moment _ _ _ _).bind fun t ↦ ?_
    dsimp only
    split
    · exact (steady_moment _ _ _ _).bind fun _ ↦ steady_pure _
    · exact steady_pure _
  · exact steady_nextOfPeriod _ _ _ _
  · exact (steady_warn _).bind fun _ ↦ steady_pure _

theorem steady_nextFrom (specs : List Spec) (best : Option Moment) :
    Steady (nextFrom sun now specs best) := by
  induction specs generalizing best with
  | nil => exact steady_pure best
  | cons s rest ih =>
    rcases s with text | type
    · exact (steady_nextOfEntry best text).bind fun best' ↦ ih best'
    · exact steady_throw _

/-! ### Joining a moment to the earliest one so far -/

def Later (now : Moment) (offer : Option Moment) : Prop := ∀ t, offer = some t → now < t

def joined (now : Moment) (best offer : Option Moment) : Option Moment :=
  offer.elim best (sooner now best)

theorem later_sooner_none (now t : Moment) : Later now (sooner now none t) := by
  intro u hu
  rw [sooner.eq_def] at hu
  split at hu
  · obtain rfl := Option.some.inj hu
    assumption
  · cases hu

variable {specs : List Spec} {stop t : Moment} {S : Moment → Prop} {best offer : Option Moment}
  {startText text : String}

theorem sooner_eq_joined (best : Option Moment) (t : Moment) :
    sooner now best t = joined now best (sooner now none t) := by
  by_cases hlt : now < t
  · rw [show sooner now none t = some t from if_pos hlt]
    rfl
  · rw [sooner_of_not_lt hlt, sooner_of_not_lt hlt]
    rfl

def Joins (now : Moment) (x : Option Moment → Reading (Option Moment)) : Prop :=
  ∀ offer, (x none).outcome = .ok offer →
    Later now offer ∧ ∀ best, (x best).outcome = .ok (joined now best offer)

theorem joins_pure (now : Moment) : Joins now fun best ↦ pure best := by
  intro offer h
  obtain rfl := Except.ok.inj h
  refine ⟨?_, fun best ↦ rfl⟩
  rintro t ⟨⟩

theorem joins_sooner (now t : Moment) : Joins now fun best ↦ pure (sooner now best t) := by
  intro offer h
  obtain rfl := Except.ok.inj h
  exact ⟨later_sooner_none now t, fun best ↦ congrArg Except.ok (sooner_eq_joined best t)⟩

theorem Joins.bind {α : Type} {x : Reading α} {f : α → Option Moment → Reading (Option Moment)}
    (hf : ∀ a, x.outcome = .ok a → Joins now (f a)) (hsteady : ∀ a best, Steady (f a best)) :
    Joins now fun best ↦ x >>= fun a ↦ f a best := by
  intro offer h
  rw [outcome_bind x fun a ↦ hsteady a none] at h
  rcases hx : x.outcome with fault | a
  · rw [hx] at h
    cases h
  · rw [hx] at h
    obtain ⟨hlater, hjoin⟩ := hf a hx offer h
    refine ⟨hlater, fun best ↦ ?_⟩
    rw [outcome_bind x fun a ↦ hsteady a best, hx]
    exact hjoin best

/-! ### What an entry adds -/

def RoundSpent (now stop t : Moment) : Prop := now < stop ∧ ¬ (now < t ∧ t ≤ stop)

theorem isNone_sooner (h : now < t) (best : Option Moment) :
    (sooner now best t).isNone = false := by
  rw [sooner.eq_def, if_pos h]
  split
  · rfl
  · split <;> rfl

theorem ite_sooner_of_not (h : ¬ (now < t ∧ t ≤ stop)) (best : Option Moment) :
    (if t ≤ stop then sooner now best t else best) = best := by
  split
  · rename_i hle
    exact sooner_of_not_lt (fun hlt ↦ h ⟨hlt, hle⟩) best
  · rfl

theorem joins_joinRound (h : ¬ RoundSpent now stop t) :
    Joins now fun best ↦ joinRound sun now startText (some stop) best t := by
  by_cases hround : now < t ∧ t ≤ stop
  · have hopen : ¬ stop ≤ now := by
      have h1 : now.ticks < t.ticks := hround.1
      have h2 : t.ticks ≤ stop.ticks := hround.2
      show ¬ stop.ticks ≤ now.ticks
      omega
    have hjoin : ∀ best, joinRound sun now startText (some stop) best t =
        pure (sooner now best t) := by
      intro best
      simp [joinRound, if_pos hround.2, isNone_sooner hround.1, hopen]
    simpa only [hjoin] using joins_sooner now t
  · have hclosed : stop ≤ now := by
      by_contra hopen
      exact h ⟨Nat.lt_of_not_le hopen, hround⟩
    have hjoin : ∀ best, joinRound sun now startText (some stop) best t =
        moment sun (.whole 1) now startText >>= fun u ↦ pure (sooner now best u) := by
      intro best
      simp [joinRound, ite_sooner_of_not hround, hclosed]
    simp only [hjoin]
    exact Joins.bind (fun u _ ↦ joins_sooner now u) fun u best ↦ steady_pure _

theorem joinRound_of_spent (h : RoundSpent now stop t) (b : Moment) :
    joinRound sun now startText (some stop) (some b) t = pure (some b) := by
  have hopen : ¬ stop ≤ now := Nat.not_le_of_lt h.1
  simp [joinRound, ite_sooner_of_not h.2, hopen]

def Entry.Spent (sun : Sun) (now : Moment) : Entry → Prop
  | .period startText intervalText stopText =>
    ∃ start stop interval t, (periodWindow sun now startText stopText).outcome =
        .ok (start, some stop) ∧ Offset.read? intervalText.toList = .ok (some interval) ∧
      start ≤ now ∧ isPositive interval = true ∧ nextRound start now interval = .ok t ∧
      RoundSpent now stop t
  | _ => False

theorem joins_joinRounds {start : Moment} {stop : Option Moment} {interval : Option Offset}
    (h : ∀ e i t, stop = some e → interval = some i → start ≤ now → isPositive i = true →
      nextRound start now i = .ok t → ¬ RoundSpent now e t) :
    Joins now fun best ↦
      joinRounds sun now startText start stop (sooner now best start) interval := by
  rcases interval with _ | interval
  · exact joins_sooner now start
  by_cases hstarted : start ≤ now ∧ isPositive interval = true
  · have hsame : ∀ best, sooner now best start = best :=
      sooner_of_not_lt (Nat.not_lt_of_le hstarted.1)
    simp only [joinRounds, if_pos hstarted, hsame]
    refine Joins.bind (fun t ht ↦ ?_) fun t best ↦ steady_joinRound _ _ _ _
    rw [outcome_lift] at ht
    rcases stop with _ | stop
    · exact joins_sooner now t
    · exact joins_joinRound (h stop interval t rfl rfl hstarted.1 hstarted.2 ht)
  · simp only [joinRounds, if_neg hstarted]
    exact joins_sooner now start

theorem joins_nextOfEntry (h : ¬ (Entry.ofText text).Spent sun now) :
    Joins now fun best ↦ nextOfEntry sun now best text := by
  rcases hentry : Entry.ofText text with c | body | ⟨startText, intervalText, stopText⟩ | _
  · have hrun : ∀ best, nextOfEntry sun now best text = c.next now >>= fun found ↦
        pure (joined now best found) := by
      intro best
      rw [nextOfEntry, hentry]
      refine bind_congr fun found ↦ ?_
      rcases found with _ | t <;> rfl
    simp only [hrun]
    refine Joins.bind (fun found _ ↦ ?_) fun found best ↦ steady_pure _
    rcases found with _ | t
    · exact joins_pure now
    · exact joins_sooner now t
  · have hrun : ∀ best, nextOfEntry sun now best text =
        moment sun (.whole 0) now body >>= fun t ↦
          (if t ≤ now then moment sun (.whole 1) now body else pure t) >>= fun t ↦
            pure (sooner now best t) := by
      intro best
      rw [nextOfEntry, hentry]
      refine bind_congr fun t ↦ ?_
      dsimp only
      split <;> rfl
    simp only [hrun]
    refine Joins.bind (fun t _ ↦ ?_) fun t best ↦ Steady.bind ?_ fun _ ↦ steady_pure _
    · exact Joins.bind (fun t _ ↦ joins_sooner now t) fun t best ↦ steady_pure _
    · split
      · exact steady_moment _ _ _ _
      · exact steady_pure _
  · rw [hentry] at h
    have hrun : ∀ best, nextOfEntry sun now best text =
        nextOfPeriod sun now startText intervalText stopText best := by
      intro best
      rw [nextOfEntry, hentry]
    simp only [hrun, nextOfPeriod]
    refine Joins.bind (fun window hwindow ↦ ?_) fun window best ↦ ?_
    · refine Joins.bind (fun interval hinterval ↦ ?_) fun interval best ↦
        steady_joinRounds _ _ _ _ _
      obtain ⟨start, stop⟩ := window
      rw [outcome_lift] at hinterval
      refine joins_joinRounds fun e i t he hi hstarted hpositive hround hspent ↦ h ?_
      exact ⟨start, e, i, t, he ▸ hwindow, hi ▸ hinterval, hstarted, hpositive, hround, hspent⟩
    · exact (steady_lift _).bind fun interval ↦ steady_joinRounds _ _ _ _ interval
  · have hrun : ∀ best, nextOfEntry sun now best text =
        warn ("Can't parse " ++ text ++ " in time_trigger check") >>= fun _ ↦ pure best := by
      intro best
      rw [nextOfEntry, hentry]
    simp only [hrun]
    exact Joins.bind (fun _ _ ↦ joins_pure now) fun _ best ↦ steady_pure best

theorem nextOfEntry_of_spent (h : (Entry.ofText text).Spent sun now) (b : Moment) :
    (nextOfEntry sun now (some b) text).outcome = .ok (some b) := by
  rcases hentry : Entry.ofText text with c | body | ⟨startText, intervalText, stopText⟩ | _
  all_goals rw [hentry] at h
  · exact h.elim
  · exact h.elim
  · obtain ⟨start, stop, interval, t, hwindow, hinterval, hstarted, hpositive, hround, hspent⟩ := h
    have hsame : sooner now (some b) start = some b :=
      sooner_of_not_lt (Nat.not_lt_of_le hstarted) _
    have hrounds :
        (joinRounds sun now startText start (some stop) (some b) (some interval)).outcome =
        .ok (some b) := by
      rw [joinRounds, if_pos ⟨hstarted, hpositive⟩,
        outcome_bind _ fun t ↦ steady_joinRound _ _ _ t, outcome_lift, hround]
      exact congrArg outcome (joinRound_of_spent hspent b)
    rw [nextOfEntry, hentry]
    show (nextOfPeriod sun now startText intervalText stopText (some b)).outcome = _
    rw [nextOfPeriod, outcome_bind _ fun window ↦ (steady_lift _).bind fun interval ↦
      steady_joinRounds _ _ _ _ interval, hwindow]
    show (Reading.lift (Offset.read? intervalText.toList) >>= fun interval ↦
      joinRounds sun now startText start (some stop) (sooner now (some b) start)
        interval).outcome = _
    rw [outcome_bind _ fun interval ↦ steady_joinRounds _ _ _ _ interval, outcome_lift, hinterval,
      hsame]
    exact hrounds
  · exact h.elim

theorem joined_eq_none (h : Later now offer) : joined now best offer = none ↔
    best = none ∧ offer = none := by
  rcases offer with _ | t
  · simp [joined]
  · have := isNone_sooner (h t rfl) best
    simp [joined, ← Option.isNone_iff_eq_none, this]

/-! ### The earliest moment of a set -/

def Earliest (S : Moment → Prop) : Option Moment → Prop
  | none => ∀ t, ¬ S t
  | some t => IsLeast {t | S t} t

theorem Earliest.eq_some_iff (h : Earliest S best) (t : Moment) : best = some t ↔
    IsLeast {t | S t} t := by
  rcases best with _ | b
  · exact iff_of_false (Option.some_ne_none t).symm fun hleast ↦ h t hleast.1
  · rw [Option.some_inj]
    exact ⟨fun heq ↦ heq ▸ h, fun ht ↦ Moment.le_antisymm (h.2 ht.1) (ht.2 h.1)⟩

theorem Earliest.congr {T : Moment → Prop} (h : Earliest S best) (heq : ∀ t, S t ↔ T t) :
    Earliest T best := by
  rwa [← show S = T from funext fun t ↦ propext (heq t)]

theorem earliest_self (offer : Option Moment) : Earliest (fun t ↦ offer = some t) offer := by
  rcases offer with _ | t
  · rintro t ⟨⟩
  · refine ⟨rfl, ?_⟩
    rintro _ ⟨rfl⟩
    exact Nat.le_refl _

theorem Earliest.joined (h : Earliest S best) (hlater : Later now offer) :
    Earliest (fun t ↦ S t ∨ offer = some t) (joined now best offer) := by
  rcases offer with _ | t
  · exact h.congr fun t ↦ by simp
  have hnow := hlater t rfl
  rcases best with _ | b
  · show Earliest _ (sooner now none t)
    rw [show sooner now none t = some t from if_pos hnow]
    refine (earliest_self (some t)).congr fun u ↦ ?_
    rw [or_iff_right (h u)]
  · show Earliest _ (sooner now (some b) t)
    rw [sooner.eq_def, if_pos hnow]
    dsimp only
    split
    · rename_i hlt
      refine ⟨.inr rfl, ?_⟩
      rintro u (hu | hu)
      · exact Nat.le_trans (Nat.le_of_lt hlt) (h.2 hu)
      · obtain rfl := Option.some.inj hu
        exact Nat.le_refl _
    · rename_i hge
      refine ⟨.inl h.1, ?_⟩
      rintro u (hu | hu)
      · exact h.2 hu
      · obtain rfl := Option.some.inj hu
        exact Nat.le_of_not_lt hge

/-! ### Lists of entries -/

/-- The next moment of one entry alone. -/
def single (sun : Sun) (now : Moment) (s : Spec) : Except Fault (Option Moment) :=
  (next sun [s] now).outcome

theorem single_text (text : String) :
    single sun now (.text text) = (nextOfEntry sun now none text).outcome := by
  rw [single, next, nextFrom, outcome_bind _ fun best ↦ steady_nextFrom [] best]
  rcases (nextOfEntry sun now none text).outcome with f | best <;> rfl

theorem single_other (type : String) :
    single sun now (.other type) = .error (.textExpected type) := rfl

def Spent (sun : Sun) (now : Moment) : Spec → Prop
  | .text text => (Entry.ofText text).Spent sun now
  | .other _ => False

/-- `t` is the moment of one of `specs`; a spent one counts only if those before it give none. -/
def Counted (sun : Sun) (now : Moment) (specs : List Spec) (t : Moment) : Prop :=
  ∃ before s after, specs = before ++ s :: after ∧ single sun now s = .ok (some t) ∧
    (Spent sun now s → ∀ r ∈ before, single sun now r = .ok none)

theorem not_counted_nil (t : Moment) : ¬ Counted sun now [] t := by
  rintro ⟨before, s, after, heq, -⟩
  simp at heq

theorem counted_concat {s : Spec} :
    Counted sun now (specs ++ [s]) t ↔ Counted sun now specs t ∨
      single sun now s = .ok (some t) ∧
        (Spent sun now s → ∀ r ∈ specs, single sun now r = .ok none) := by
  constructor
  · rintro ⟨before, r, after, heq, hcounts⟩
    rcases List.eq_nil_or_concat after with rfl | ⟨after, last, rfl⟩
    · simp_all
    · have heq' : specs ++ [s] = (before ++ r :: after) ++ [last] := by
        rw [heq]
        simp
      obtain ⟨rfl, -⟩ := List.append_inj' heq' rfl
      exact .inl ⟨before, r, after, rfl, hcounts⟩
  · rintro (⟨before, r, after, rfl, hcounts⟩ | hcounts)
    · exact ⟨before, r, after ++ [s], by simp, hcounts⟩
    · exact ⟨specs, s, [], rfl, hcounts⟩

theorem Counted.named (h : Counted sun now specs t) :
    ∃ s ∈ specs, single sun now s = .ok (some t) := by
  obtain ⟨before, s, after, rfl, hs, -⟩ := h
  exact ⟨s, by simp, hs⟩

theorem counted_of_named (hspent : ∀ s ∈ specs, ¬ Spent sun now s)
    (h : ∃ s ∈ specs, single sun now s = .ok (some t)) : Counted sun now specs t := by
  obtain ⟨s, hmem, hs⟩ := h
  obtain ⟨before, after, rfl⟩ := List.append_of_mem hmem
  exact ⟨before, s, after, rfl, hs, fun h ↦ absurd h (hspent s hmem)⟩

/-- The earliest moment of the entries that count. -/
structure Answers (sun : Sun) (now : Moment) (specs : List Spec) (best : Option Moment) : Prop where
  none_iff : best = none ↔ ∀ s ∈ specs, single sun now s = .ok none
  earliest : Earliest (Counted sun now specs) best

theorem answers_nil : Answers sun now [] none := ⟨by simp, fun t ↦ not_counted_nil t⟩

theorem Answers.concat (h : Answers sun now specs best)
    (hoffer : single sun now (.text text) = .ok offer) :
    ∃ best', (nextOfEntry sun now best text).outcome = .ok best' ∧
      Answers sun now (specs ++ [.text text]) best' := by
  have hlast : offer = none ↔ single sun now (.text text) = .ok none := by
    rw [hoffer, Except.ok.injEq]
  have hnamed : ∀ t, single sun now (.text text) = .ok (some t) ↔ offer = some t := fun t ↦ by
    rw [hoffer, Except.ok.injEq]
  have hall : (∀ s ∈ specs ++ [.text text], single sun now s = .ok none) ↔
      best = none ∧ offer = none := by
    rw [List.forall_mem_append, List.forall_mem_singleton, h.none_iff, hlast]
  rw [single_text] at hoffer
  by_cases hspent : Spent sun now (.text text)
  · rcases best with _ | b
    · -- nothing was found so far, so the entry counts as it does by itself
      refine ⟨offer, hoffer, by rw [hall, and_iff_right rfl],
        (earliest_self offer).congr fun t ↦ ?_⟩
      rw [counted_concat, or_iff_right (h.earliest t), hnamed,
        and_iff_left fun _ ↦ h.none_iff.1 rfl]
    · refine ⟨some b, nextOfEntry_of_spent hspent b, ?_, h.earliest.congr fun t ↦ ?_⟩
      · rw [hall]
        simp
      have hfound : ¬ ∀ r ∈ specs, single sun now r = .ok none :=
        h.none_iff.not.1 (Option.some_ne_none b)
      rw [counted_concat, or_iff_left fun hcounts ↦ hfound (hcounts.2 hspent)]
  · obtain ⟨hlater, hjoin⟩ := joins_nextOfEntry hspent offer hoffer
    refine ⟨joined now best offer, hjoin best, ?_, (h.earliest.joined hlater).congr fun t ↦ ?_⟩
    · rw [hall, joined_eq_none hlater]
    · rw [counted_concat, hnamed, and_iff_left fun hspent' ↦ absurd hspent' hspent]

theorem Answers.append {before : List Spec} (h : Answers sun now before best) (specs : List Spec)
    (hsingle : ∀ s ∈ specs, ∃ offer, single sun now s = .ok offer) :
    ∃ answer, (nextFrom sun now specs best).outcome = .ok answer ∧
      Answers sun now (before ++ specs) answer := by
  induction specs generalizing before best with
  | nil => exact ⟨best, rfl, by rwa [List.append_nil]⟩
  | cons s rest ih =>
    rw [List.forall_mem_cons] at hsingle
    obtain ⟨⟨offer, hoffer⟩, hrest⟩ := hsingle
    rcases s with text | type
    · obtain ⟨best', hentry, hbest'⟩ := h.concat hoffer
      obtain ⟨answer, hwalk, hanswer⟩ := ih hbest' hrest
      refine ⟨answer, ?_, by rwa [List.append_assoc] at hanswer⟩
      rw [nextFrom, outcome_bind _ fun b ↦ steady_nextFrom rest b, hentry]
      exact hwalk
    · rw [single_other] at hoffer
      cases hoffer

/-- **The earliest moment of a list of entries.** When no entry fails by itself, the list names the
earliest moment of the entries that count, and none exactly if no entry names one by itself. So the
earliest moment of all is named exactly if one of those that count names it, and without spent
entries it always is, in whatever order. -/
theorem next_isLeast_counted (sun : Sun) (now : Moment) (specs : List Spec)
    (hsingle : ∀ s ∈ specs, ∃ offer, single sun now s = .ok offer) :
    ∃ answer, (next sun specs now).outcome = .ok answer ∧
      (answer = none ↔ ∀ s ∈ specs, single sun now s = .ok none) ∧
      (∀ t, answer = some t ↔ IsLeast {t | Counted sun now specs t} t) ∧
      (∀ t, IsLeast {t | ∃ s ∈ specs, single sun now s = .ok (some t)} t →
        (answer = some t ↔ Counted sun now specs t)) ∧
      ((∀ s ∈ specs, ¬ Spent sun now s) → ∀ t, answer = some t ↔
        IsLeast {t | ∃ s ∈ specs, single sun now s = .ok (some t)} t) := by
  obtain ⟨answer, hrun, hanswer⟩ := answers_nil.append specs hsingle
  rw [List.nil_append] at hanswer
  refine ⟨answer, hrun, hanswer.none_iff, hanswer.earliest.eq_some_iff, fun t hleast ↦ ?_,
    fun hspent t ↦ ?_⟩
  · rw [hanswer.earliest.eq_some_iff]
    exact ⟨fun h ↦ h.1, fun h ↦ ⟨h, fun u hu ↦ hleast.2 hu.named⟩⟩
  · rw [hanswer.earliest.eq_some_iff, show {t | Counted sun now specs t} =
      {t | ∃ s ∈ specs, single sun now s = .ok (some t)} from Set.ext fun u ↦
        ⟨Counted.named, fun h ↦ counted_of_named hspent h⟩]

def tenPastNine : Moment := ⟨63729191400000000, by decide⟩

def newYear : Moment := ⟨64029052800000000, by decide⟩

def nineTomorrow : Moment := ⟨63729277200000000, by decide⟩

def noonToday : Moment := ⟨63729201600000000, by decide⟩

def threeKinds : List Spec :=
  [.text "once(2030/1/1 0:00)", .text "period(9:00, 1 hr, 9:30)", .text "cron(0 12 * * *)"]

theorem next_isLeast_counted_threeKinds :
    (∀ s ∈ threeKinds, ∃ offer, single {} tenPastNine s = .ok offer) ∧
    ∃ answer, (next {} threeKinds tenPastNine).outcome = .ok answer ∧
      (answer = none ↔ ∀ s ∈ threeKinds, single {} tenPastNine s = .ok none) ∧
      (∀ t, answer = some t ↔ IsLeast {t | Counted {} tenPastNine threeKinds t} t) ∧
      (∀ t, IsLeast {t | ∃ s ∈ threeKinds, single {} tenPastNine s = .ok (some t)} t →
        (answer = some t ↔ Counted {} tenPastNine threeKinds t)) ∧
      ((∀ s ∈ threeKinds, ¬ Spent {} tenPastNine s) → ∀ t, answer = some t ↔
        IsLeast {t | ∃ s ∈ threeKinds, single {} tenPastNine s = .ok (some t)} t) := by
  have honce : single {} tenPastNine (.text "once(2030/1/1 0:00)") = .ok (some newYear) := by
    decide
  have hperiod : single {} tenPastNine (.text "period(9:00, 1 hr, 9:30)") =
      .ok (some nineTomorrow) := by
    decide
  have hcron : single {} tenPastNine (.text "cron(0 12 * * *)") = .ok (some noonToday) := by
    decide
  have hsingle : ∀ s ∈ threeKinds, ∃ offer, single {} tenPastNine s = .ok offer := by
    simp only [threeKinds, List.forall_mem_cons]
    exact ⟨⟨_, honce⟩, ⟨_, hperiod⟩, ⟨_, hcron⟩, List.forall_mem_nil _⟩
  exact ⟨hsingle, next_isLeast_counted {} tenPastNine threeKinds hsingle⟩

/-- After an entry that names a moment, a period without a round left does not name the start of
tomorrow. -/
theorem earliest_depends_on_order :
    (next {} [.text "once(2030/1/1 0:00)", .text "period(9:00, 1 hr, 9:30)"] tenPastNine).outcome =
        .ok (some newYear) ∧
      (next {}
        [.text "period(9:00, 1 hr, 9:30)", .text "once(2030/1/1 0:00)"] tenPastNine).outcome =
        .ok (some nineTomorrow) ∧
      single {} tenPastNine (.text "period(9:00, 1 hr, 9:30)") = .ok (some nineTomorrow) ∧
      nineTomorrow < newYear := by
  decide

end TriggerScript.Schedule
