import TriggerScript.Proofs.Schedule.Period
import TriggerScript.Proofs.Schedule.Range

/-!
# Sun events that are not defined

A text with a sun event that is not defined names the midnight a hundred days before its day
(`ShiftedTime.outcome_moment`), so that the entry with it should not count. But a period without an
end goes on from that midnight, and a range between two such texts holds every moment after it
(`undefined_sun_outcomes`).
-/

namespace TriggerScript.Schedule

open Calendar Text Reading Moment
open DateTime hiding day

namespace Reading

variable {α β : Type} {x : Reading α} {f : α → Reading β}

theorem outcome_bind_of_ok {a : α} (hx : x.outcome = .ok a) (hf : ∀ a, Steady (f a)) :
    (x >>= f).outcome = (f a).outcome := by
  rw [outcome_bind x hf, hx]
  rfl

theorem outcome_bind_of_error {fault : Fault} (hx : x.outcome = .error fault) :
    (x >>= f).outcome = .error fault := by
  show ((ExceptT.bindCont f x.outcome).run (x.run.run []).run.2).run.1 = _
  rw [hx]
  rfl

end Reading

/-! ### Rounds -/

/-- The moment comes a number of intervals after `start`. -/
def IsRound (start : Int) (seconds : Nat) (t : Moment) : Prop :=
  ∃ j : Nat, (t.ticks : Int) = start + j * (seconds * second : Nat)

theorem nextRound_eq_ok_iff {start now t : Moment} {p : Nat} (hp : 0 < p) (hle : start ≤ now)
    (hnear : now.since start < (Number.twoTo 32 * second : Nat)) :
    nextRound start now (.whole false p) = .ok t ↔
      IsLeast {t | now < t ∧ IsRound start.ticks p t} t := by
  obtain ⟨k, hpassed, hnext, hout, hin⟩ := nextRound_whole hp hle hnear
  have hfirst {u : Moment} (hu : now < u ∧ IsRound start.ticks p u) :
      (start.ticks : Int) + (k + 1 : Nat) * (p * second : Nat) ≤ u.ticks := by
    obtain ⟨hlt, j, hj⟩ := hu
    have hlt : now.ticks < u.ticks := hlt
    have hkj : k < j := by
      by_contra hjk
      have : (j : Int) * (p * second : Nat) ≤ k * (p * second : Nat) :=
        Int.mul_le_mul_of_nonneg_right (Int.ofNat_le.2 (Nat.not_lt.1 hjk)) (Int.natCast_nonneg _)
      omega
    rw [hj]
    exact Int.add_le_add_left
      (Int.mul_le_mul_of_nonneg_right (Int.ofNat_le.2 hkj) (Int.natCast_nonneg _)) _
  by_cases houtside : Outside (start.ticks + (k + 1 : Nat) * (p * second : Nat))
  · obtain ⟨fault, hfault⟩ := hout houtside
    rw [hfault]
    refine ⟨fun h ↦ (by cases h), fun h ↦ ?_⟩
    have := hfirst h.1
    have := t.ticks_lt
    rw [Outside] at houtside
    omega
  · obtain ⟨u, hu, hticks⟩ := hin houtside
    have hleast : IsLeast {t | now < t ∧ IsRound start.ticks p t} u := by
      refine ⟨⟨show now.ticks < u.ticks by omega, k + 1, hticks⟩, fun v hv ↦ ?_⟩
      have := hfirst hv
      show u.ticks ≤ v.ticks
      omega
    rw [hu]
    exact ⟨fun h ↦ Except.ok.inj h ▸ hleast, fun h ↦
      congrArg _ (le_antisymm (hleast.2 h.1) (h.2 hleast.1))⟩

/-! ### The text of a time with something after it -/

/-- A time of day with an offset, or with whatever else may stand there: nobody reads it if the time
is not defined. -/
structure ShiftedTime where
  time : TimeName
  tail : List Char
  following : Following tail
  listed : ∀ c ∈ tail, c ∉ ['(', ',', '\n']

namespace ShiftedTime

variable (f : ShiftedTime)

def text : List Char := f.time.text ++ f.tail

theorem listed_text : Listed f.text := by
  have hmem : ∀ c ∈ f.text, c ∉ ['(', ',', '\n'] := by
    intro c hc hlisted
    have hnot : ∀ c ∈ ['(', ',', '\n'], ¬ (isDigit c = true ∨ c = ':' ∨ 65 ≤ c.toNat ∧
        c.toNat ≤ 122) := by simp [isDigit, digit?]
    rcases List.mem_append.1 hc with hc | hc
    · exact hnot c hlisted (f.time.mem_text hc)
    · exact f.listed c hc hlisted
  exact {
    parenthesis_not_mem := fun h ↦ hmem _ h (by decide)
    lineFeed_not_mem := fun h ↦ hmem _ h (by decide)
    strip_eq := strip_append_of_solid f.time.solid_text f.following.isBlank_last
    comma_not_mem := fun h ↦ hmem _ h (by decide) }

variable {f} {sun : Sun} (h : ¬ f.time.Defined sun) (now : Moment)

include h

theorem outcome_moment {k : Int} (hk : k = 0 ∨ k = 1) :
    (moment sun (.whole k) now (String.ofList f.text)).outcome =
      if now.dayCount + k < Date.lastDay then reach ((now.dayCount + k - 100) * day)
      else .error .dateOutOfRange := by
  have hofText : ofText (String.ofList f.text) = ⟨.unstated, f.time.part f.tail,
      readOffset (afterSpace f.tail)⟩ :=
    TimedForm.ofText_append ⟨none, f.time⟩ f.following
  rw [moment, hofText, resolve, resolveDay_unstated (by omega)]
  dsimp only
  rw [f.time.resolveClock_of_not_defined h]
  split_ifs with hhigh
  · have hin : ¬ Outside ((now.dayCount + k) * day) :=
      outside_midnight_iff.not.2 (by omega)
    obtain ⟨m, hm, hticks⟩ := reach_of_not_outside hin
    have hpast : (m.ticks : Int) + -(100 * day : Nat) = (now.dayCount + k - 100) * day := by
      simp only [day_eq] at *
      omega
    rw [hm]
    show (warn _ >>= fun _ ↦ Reading.lift (m.add (-(100 * day : Nat)))).outcome = _
    rw [outcome_bind_of_ok rfl fun _ ↦ steady_lift _, outcome_lift, add_eq_reach, hpast]
  · have hout : Outside ((now.dayCount + k) * day) :=
      outside_midnight_iff.2 (by omega)
    rw [reach_of_outside hout]
    rfl

theorem exists_outcome_moment {k : Int} (hk : k = 0 ∨ k = 1) (hlow : 100 ≤ now.dayCount)
    (hhigh : now.dayCount + k < Date.lastDay) :
    ∃ t, (moment sun (.whole k) now (String.ofList f.text)).outcome = .ok t ∧
      (t.ticks : Int) = (now.dayCount + k - 100) * day ∧ t ≤ now := by
  have hnow := now.ticks_eq_dayCount
  have hin : ¬ Outside ((now.dayCount + k - 100) * day) := outside_midnight_iff.not.2 (by omega)
  obtain ⟨t, ht, hticks⟩ := reach_of_not_outside hin
  refine ⟨t, by rw [outcome_moment h now hk, if_pos hhigh, ht], hticks, ?_⟩
  show t.ticks ≤ now.ticks
  simp only [day_eq] at *
  omega

theorem outcome_today_of_lt (hlow : now.dayCount < 100) :
    (moment sun (.whole 0) now (String.ofList f.text)).outcome = .error .dateOutOfRange := by
  have hout : Outside ((now.dayCount + 0 - 100) * day) := outside_midnight_iff.2 (by omega)
  rw [outcome_moment h now (.inl rfl), reach_of_outside hout, ite_self]

theorem exists_outcome_today (hlow : 100 ≤ now.dayCount) :
    ∃ t, (moment sun (.whole 0) now (String.ofList f.text)).outcome = .ok t ∧
      (t.ticks : Int) = (now.dayCount - 100) * day ∧ t ≤ now := by
  have hhigh := now.dayCount_lt
  obtain ⟨t, ht, hticks, hle⟩ := exists_outcome_moment h now (.inl rfl) hlow (by omega)
  exact ⟨t, ht, by rw [hticks, Int.add_zero], hle⟩

theorem outcome_sooner_tomorrow (hlow : 100 ≤ now.dayCount) (r : Option Moment) :
    (do pure (sooner now none (← moment sun (.whole 1) now (String.ofList f.text)))).outcome =
      .ok r ↔ r = none ∧ now.dayCount + 1 < Date.lastDay := by
  by_cases hhigh : now.dayCount + 1 < Date.lastDay
  · obtain ⟨u, hu, -, hle⟩ := exists_outcome_moment h now (.inr rfl) hlow (by omega)
    rw [outcome_bind_of_ok hu fun _ ↦ steady_pure _, sooner_of_not_lt (Nat.not_lt.2 hle)]
    show Except.ok none = Except.ok r ↔ _
    simp [eq_comm, hhigh]
  · rw [outcome_bind_of_error ((outcome_moment h now (.inr rfl)).trans (if_neg (by omega)))]
    simp [hhigh]

theorem outcome_next_onceText (r : Option Moment) :
    (next sun [.text (onceText f.text)] now).outcome = .ok r ↔
    r = none ∧ 100 ≤ now.dayCount ∧ now.dayCount + 1 < Date.lastDay := by
  rw [f.listed_text.next_onceText]
  by_cases hlow : 100 ≤ now.dayCount
  · obtain ⟨t, ht, -, hle⟩ := exists_outcome_today h now hlow
    rw [outcome_bind_of_ok ht]
    · rw [if_pos hle]
      exact (outcome_sooner_tomorrow h now hlow r).trans (by simp [hlow])
    · intro t
      dsimp only
      split
      · exact (steady_moment _ _ _ _).bind fun _ ↦ steady_pure _
      · exact steady_pure _
  · rw [outcome_bind_of_error (outcome_today_of_lt h now (by omega))]
    simp [hlow]

/-! ### Periods -/

section Period

variable {high : Nat} (q : QuantityForm 1 high) (hq : q.counted < Number.twoTo 53)

include hq in
omit h in
theorem outcome_next_periodText {stopText : Option (List Char)}
    (hstopText : ∀ cs ∈ stopText, Listed cs) {start : Moment} {stop : Option Moment}
    (hwindow : (periodWindow sun now (String.ofList f.text)
      (stopText.map String.ofList)).outcome = .ok (start, stop))
    (hstart : (start.ticks : Int) = (now.dayCount - 100) * day) (hle : start ≤ now)
    (r : Option Moment) :
    (next sun [.text (periodText f.text q.text stopText)] now).outcome = .ok r ↔
      ∃ t, IsLeast {t | now < t ∧ IsRound ((now.dayCount - 100) * day) q.counted t} t ∧
        (joinRound sun now (String.ofList f.text) stop none t).outcome = .ok r := by
  have hread : Offset.read? (String.ofList q.text).toList =
      .ok (some (.whole false q.counted)) := by
    rw [String.toList_ofList]
    exact q.read?_text none 0 hq
  have hpos : 0 < q.counted := q.low_le_counted
  have hpositive : isPositive (.whole false q.counted) = true := by
    simpa [isPositive] using Nat.ne_of_gt hpos
  -- a hundred days are near enough for the rounds to be computed exactly
  have hnear : now.since start < (Number.twoTo 32 * second : Nat) := by
    have hticks := now.ticks_eq_dayCount
    have htime := now.timeOfDay_lt
    have hbound : (101 * day : Nat) < Number.twoTo 32 * second := by decide
    rw [since, hstart]
    simp only [day_eq] at *
    omega
  have houtcome : (next sun [.text (periodText f.text q.text stopText)] now).outcome =
      nextRound start now (.whole false q.counted) >>= fun t ↦
        (joinRound sun now (String.ofList f.text) stop none t).outcome := by
    rw [next_periodText f.listed_text q.listed hstopText, nextOfPeriod,
      outcome_bind_of_ok hwindow fun _ ↦ (steady_lift _).bind fun _ ↦ steady_joinRounds _ _ _ _ _]
    dsimp only
    rw [hread, Reading.lift_ok, pure_bind, joinRounds, if_pos ⟨hle, hpositive⟩,
      sooner_of_not_lt (Nat.not_lt.2 hle), outcome_bind _ fun t ↦ steady_joinRound _ _ _ t,
      outcome_lift]
  rw [houtcome, ← hstart]
  simp only [← nextRound_eq_ok_iff hpos hle hnear]
  cases nextRound start now (.whole false q.counted) with
  | error fault => simp [bind, Except.bind]
  | ok t => simp [bind, Except.bind]

theorem outcome_next_of_lt {stopText : Option (List Char)} (hstopText : ∀ cs ∈ stopText, Listed cs)
    (hlow : now.dayCount < 100) :
    (next sun [.text (periodText f.text q.text stopText)] now).outcome =
      .error .dateOutOfRange := by
  rw [next_periodText f.listed_text q.listed hstopText, nextOfPeriod]
  exact outcome_bind_of_error (outcome_bind_of_error (outcome_today_of_lt h now hlow))

include hq

theorem outcome_next_period_endless (r : Option Moment) :
    (next sun [.text (periodText f.text q.text none)] now).outcome = .ok r ↔ 100 ≤ now.dayCount ∧
      ∃ t, r = some t ∧
        IsLeast {t | now < t ∧ IsRound ((now.dayCount - 100) * day) q.counted t} t := by
  have hnone : ∀ cs ∈ (none : Option (List Char)), Listed cs := fun _ hcs ↦ by cases hcs
  by_cases hlow : 100 ≤ now.dayCount
  · obtain ⟨start, hmoment, hstart, hle⟩ := exists_outcome_today h now hlow
    have hwindow : (periodWindow sun now (String.ofList f.text) none).outcome = .ok (start, none) :=
      outcome_bind_of_ok hmoment fun _ ↦ steady_pure _
    rw [outcome_next_periodText now q hq hnone hwindow hstart hle, and_iff_right hlow]
    refine exists_congr fun t ↦ and_comm.trans (and_congr_left fun hleast ↦ ?_)
    show Except.ok (sooner now none t) = Except.ok r ↔ _
    rw [sooner_of_lt hleast.1.1, Except.ok.injEq, eq_comm]
  · rw [outcome_next_of_lt h now q hnone (by omega)]
    simp [hlow]

theorem outcome_next_period_over {g : ShiftedTime} (hg : ¬ g.time.Defined sun) (r : Option Moment) :
    (next sun [.text (periodText f.text q.text (some g.text))] now).outcome = .ok r ↔
      r = none ∧ 100 ≤ now.dayCount ∧ now.dayCount + 1 < Date.lastDay ∧
        ∃ t, IsLeast {t | now < t ∧ IsRound ((now.dayCount - 100) * day) q.counted t} t := by
  have hlisted : ∀ cs ∈ some g.text, Listed cs := fun _ hcs ↦ Option.some.inj hcs ▸ g.listed_text
  by_cases hlow : 100 ≤ now.dayCount
  · obtain ⟨start, hmoment, hstart, hle⟩ := exists_outcome_today h now hlow
    obtain ⟨stop, hmoment', hstop, hle'⟩ := exists_outcome_today hg now hlow
    have hwindow :
        (periodWindow sun now (String.ofList f.text) (some (String.ofList g.text))).outcome =
        .ok (start, some stop) := by
      have hnot : ¬ stop < start := by
        show ¬ stop.ticks < start.ticks
        omega
      refine (outcome_bind_of_ok hmoment fun _ ↦ ?_).trans
        ((outcome_bind_of_ok hmoment' fun _ ↦ steady_overMidnight _ _ _ _).trans ?_)
      · exact (steady_moment _ _ _ _).bind fun _ ↦ steady_overMidnight _ _ _ _
      · rw [if_neg hnot]
        rfl
    rw [outcome_next_periodText now q hq hlisted hwindow hstart hle]
    have hjoin {t : Moment} (hlt : now < t) :
        (joinRound sun now (String.ofList f.text) (some stop) none t).outcome = .ok r ↔
          r = none ∧ now.dayCount + 1 < Date.lastDay := by
      have hpassed : ¬ t ≤ stop := fun hts ↦ Nat.not_le.2 hlt (Nat.le_trans hts hle')
      unfold joinRound
      dsimp only
      rw [if_neg hpassed, if_pos (.inl rfl)]
      exact outcome_sooner_tomorrow h now hlow r
    constructor
    · rintro ⟨t, hleast, hr⟩
      obtain ⟨rfl, hhigh⟩ := (hjoin hleast.1.1).1 hr
      exact ⟨rfl, hlow, hhigh, t, hleast⟩
    · rintro ⟨rfl, -, hhigh, t, hleast⟩
      exact ⟨t, hleast, (hjoin hleast.1.1).2 ⟨rfl, hhigh⟩⟩
  · rw [outcome_next_of_lt h now q hlisted (by omega)]
    simp [hlow]

end Period

/-! ### Ranges -/

theorem outcome_active_rangeText {g : ShiftedTime} (hg : ¬ g.time.Defined sun) (r : Bool) :
    (active sun [.text (rangeText f.text g.text)] now).outcome = .ok r ↔
      r = true ∧ 200 ≤ now.dayCount := by
  rw [Enclosed.active_rangeText f.listed_text.comma_not_mem g.listed_text.toEnclosed
    f.listed_text.toEnclosed]
  have hsteady (a : Moment) : Steady (do
      let b ← moment sun (.whole 0) a (String.ofList g.text)
      if a < b then pure (a ≤ now && now ≤ b) else pure (a ≤ now || now ≤ b)) := by
    refine (steady_moment _ _ _ _).bind fun b ↦ ?_
    split <;> exact steady_pure _
  by_cases hlow : 100 ≤ now.dayCount
  · obtain ⟨a, ha, haticks, hle⟩ := exists_outcome_today h now hlow
    have hday : a.dayCount = now.dayCount - 100 := by
      simp only [dayCount, day_eq] at *
      omega
    rw [outcome_bind_of_ok ha hsteady]
    by_cases hlow' : 200 ≤ now.dayCount
    · obtain ⟨b, hb, -, hle'⟩ := exists_outcome_today hg a (by omega)
      have hnot : ¬ a < b := Nat.not_lt.2 hle'
      rw [outcome_bind_of_ok hb, if_neg hnot]
      · show Except.ok (decide (a ≤ now) || decide (now ≤ b)) = Except.ok r ↔ _
        simp [hle, hlow', eq_comm]
      · intro b
        split <;> exact steady_pure _
    · rw [outcome_bind_of_error (outcome_today_of_lt hg a (by omega))]
      simp [hlow']
  · rw [outcome_bind_of_error (outcome_today_of_lt h now (by omega))]
    simp
    omega

end ShiftedTime

/-- **A sun event that is not defined.** The text with it names a midnight in the past. As a single
moment it is ignored, and as a period up to another such text too. A period without an end has its
rounds from that midnight on, and a range between two such texts holds the moment. Where the
calendar lacks such a midnight, a tomorrow or a round, the entry is refused. -/
theorem undefined_sun_outcomes (sun : Sun) (now : Moment) (a b : ShiftedTime)
    (ha : ¬ a.time.Defined sun) (hb : ¬ b.time.Defined sun) {high : Nat} (q : QuantityForm 1 high)
    (hq : q.counted < Number.twoTo 53) :
    (∀ r, (next sun [.text (onceText a.text)] now).outcome = .ok r ↔
      r = none ∧ 100 ≤ now.dayCount ∧ now.dayCount + 1 < Date.lastDay) ∧
    (∀ r, (next sun [.text (periodText a.text q.text none)] now).outcome = .ok r ↔
      100 ≤ now.dayCount ∧
      ∃ t, r = some t ∧
        IsLeast {t | now < t ∧ IsRound ((now.dayCount - 100) * day) q.counted t} t) ∧
    (∀ r, (next sun [.text (periodText a.text q.text (some b.text))] now).outcome = .ok r ↔
      r = none ∧ 100 ≤ now.dayCount ∧ now.dayCount + 1 < Date.lastDay ∧
        ∃ t, IsLeast {t | now < t ∧ IsRound ((now.dayCount - 100) * day) q.counted t} t) ∧
    ∀ r, (active sun [.text (rangeText a.text b.text)] now).outcome = .ok r ↔
      r = true ∧ 200 ≤ now.dayCount :=
  ⟨a.outcome_next_onceText ha now, a.outcome_next_period_endless ha now q hq,
    a.outcome_next_period_over ha now q hq hb, a.outcome_active_rangeText ha now hb⟩

def beforeSunset : ShiftedTime where
  time := .word .sunset "sunset".toList (by decide)
  tail := " - 30 min".toList
  following := ⟨by simp, by decide, by decide, by simp [isBlank]⟩
  listed := by simp

def plainSunrise : ShiftedTime := ⟨.word .sunrise "sunrise".toList (by decide), [], .nil, by simp⟩

def oneHour : QuantityForm 1 1 := ⟨figure ['1'] (by decide), 1, .hour, "hr", by decide⟩

theorem undefined_sun_outcomes_july :
    periodText beforeSunset.text oneHour.text (some plainSunrise.text) =
      "period(sunset - 30 min, 1 hr, sunrise)" ∧
      ¬ beforeSunset.time.Defined {} ∧ ¬ plainSunrise.time.Defined {} ∧
      oneHour.counted < Number.twoTo 53 ∧
      (next {} [.text (onceText beforeSunset.text)] julyNoon).outcome = .ok none ∧
      (active {} [.text (rangeText beforeSunset.text plainSunrise.text)] julyNoon).outcome =
        .ok true := by
  have houtcomes := undefined_sun_outcomes {} julyNoon beforeSunset plainSunrise (fun h ↦ h rfl)
    (fun h ↦ h rfl) oneHour (by decide)
  exact ⟨by decide, fun h ↦ h rfl, fun h ↦ h rfl, by decide, (houtcomes.1 none).2 ⟨rfl, by decide⟩,
    (houtcomes.2.2.2 true).2 ⟨rfl, by decide⟩⟩

/-- Without a sunset and a sunrise the next hour is a round, and noon lies in the range between
them. -/
theorem undefined_sun_not_ignored :
    (next {} [.text "period(sunset, 1 hr)"] julyNoon).outcome = .ok (some julyAfternoon) ∧
      (active {} [.text "range(sunset, sunrise)"] julyNoon).outcome = .ok true :=
  ⟨by decide +kernel, by decide +kernel⟩

end TriggerScript.Schedule
