import TriggerScript.Proofs.Schedule.Next

/-!
# A cron entry that asks for days and for weekdays

Without a star for the day and for the weekday, an entry admits the moments whose day of the month
or whose weekday belongs to its field (`CronForm.AdmitsEither`). A later month that is too short for
every day of the day field is passed over, although it has the weekdays, so the answer is the first
admitted moment exactly if that one is reached (`next_cron_either_iff_reaches`).
-/

namespace TriggerScript.Schedule

open Calendar

namespace CronForm

variable {f : CronForm}

/-- As `Admits`, but one of day and weekday is enough. -/
structure AdmitsEither (f : CronForm) (t : Moment) : Prop where
  onMinute : t.OnMinute
  minute : f.minute.Admits t.minuteOfHour
  hour : f.hour.Admits t.hourOfDay
  month : f.month.Admits t.month
  either : f.day.Admits t.dayOfMonth ∨ f.weekday.Admits t.weekday

theorem takes_iff_admitsEither (hday : f.day ≠ .every) (hweekday : f.weekday ≠ .every)
    (t : Moment) : f.Takes t ↔ f.AdmitsEither t := by
  have heither : f.TakesDay t.year t.month t.dayOfMonth ↔
      f.day.Admits t.dayOfMonth ∨ f.weekday.Admits t.weekday := by
    rw [TakesDay, admitsWeekday_iff]
    simp [hday, hweekday]
  constructor
  · intro h
    obtain ⟨hmonth, htakes⟩ := (hasDate_iff t).1 h.date
    exact ⟨h.onMinute, h.minute, h.hour, hmonth, heither.1 htakes⟩
  · intro h
    exact ⟨h.onMinute, h.minute, h.hour, (hasDate_iff t).2 ⟨h.month, heither.2 h.either⟩⟩

theorem next_either (hday : f.day ≠ .every) (hweekday : f.weekday ≠ .every) (now : Moment)
    (hyear : now.year ≤ 9990) :
    ∃ answer, f.cron.next now = pure answer ∧
      (∀ t, answer = some t ↔ IsLeast {t | now < t ∧ f.AdmitsEither t ∧ f.Reaches now t} t) ∧
      (answer = none ↔ ∀ t, now < t → f.AdmitsEither t → ¬ f.Reaches now t) := by
  rcases f.next_takes now with ⟨hrun, -, hno⟩ | ⟨t, hrun, htakes, hreaches, hlt, hleast⟩ |
    ⟨hlate, -⟩
  · have hno' : ∀ t, now < t → f.AdmitsEither t → ¬ f.Reaches now t := fun t hlt ht hreaches ↦
      hno t ((takes_iff_admitsEither hday hweekday t).2 ht) hreaches hlt
    refine ⟨none, hrun, fun t ↦ ?_, iff_of_true rfl hno'⟩
    exact iff_of_false (Option.some_ne_none t).symm fun ht ↦ hno' t ht.1.1 ht.1.2.1 ht.1.2.2
  · have ht : f.AdmitsEither t := (takes_iff_admitsEither hday hweekday t).1 htakes
    have hfirst : IsLeast {t | now < t ∧ f.AdmitsEither t ∧ f.Reaches now t} t := by
      refine ⟨⟨hlt, ht, hreaches⟩, fun u hu ↦ ?_⟩
      exact hleast u ((takes_iff_admitsEither hday hweekday u).2 hu.2.1) hu.2.2 hu.1
    refine ⟨some t, hrun, fun u ↦ ?_, ?_⟩
    · rw [Option.some_inj]
      exact ⟨fun heq ↦ heq ▸ hfirst, fun hu ↦ Moment.le_antisymm (hfirst.2 hu.1) (hu.2 hfirst.1)⟩
    · exact iff_of_false (Option.some_ne_none t) fun h ↦ h t hlt ht hreaches
  · omega

end CronForm

/-- **The next moment of an entry without stars** is the first admitted one after `now` in the
months that the search reaches, if these have one. So the first admitted moment altogether is given
exactly if it lies in the current month or in one that has a day of the day field. -/
theorem next_cron_either_iff_reaches (sun : Sun) (f : CronForm) (a b c d : Gap)
    (hday : f.day ≠ .every) (hweekday : f.weekday ≠ .every) (now : Moment)
    (hyear : now.year ≤ 9990) :
    ∃ answer, next sun [.text (f.written a b c d)] now = pure answer ∧
      (∀ t, answer = some t ↔ IsLeast {t | now < t ∧ f.AdmitsEither t ∧ f.Reaches now t} t) ∧
      (answer = none ↔ ∀ t, now < t → f.AdmitsEither t → ¬ f.Reaches now t) ∧
      ∀ t, IsLeast {t | now < t ∧ f.AdmitsEither t} t → (answer = some t ↔ f.Reaches now t) := by
  obtain ⟨answer, hrun, hsome, hnone⟩ := f.next_either hday hweekday now hyear
  refine ⟨answer, f.next_written sun a b c d hrun fun t ht ↦ ((hsome t).1 ht).1.1, hsome, hnone,
    fun t hleast ↦ ?_⟩
  rw [hsome]
  constructor
  · exact fun h ↦ h.1.2.2
  · intro hreaches
    exact ⟨⟨hleast.1.1, hleast.1.2, hreaches⟩, fun u hu ↦ hleast.2 ⟨hu.1, hu.2.1⟩⟩

def mondaysAndLast : CronForm where
  minute := .listed (.number (figure "0".toList (by decide))) []
  hour := .listed (.number (figure "0".toList (by decide))) []
  day := .listed (.number (figure "31".toList (by decide))) []
  month := .every
  weekday := .listed (.number (figure "1".toList (by decide))) []

def januaryNoon : Moment := ⟨63716068800000000, by decide⟩

def februaryMonday : Moment := ⟨63716284800000000, by decide⟩

def marchMonday : Moment := ⟨63718704000000000, by decide⟩

theorem next_cron_either_iff_reaches_mondays :
    mondaysAndLast.written .space .space .space .space = "cron(0 0 31 * 1)" ∧
    mondaysAndLast.day ≠ .every ∧ mondaysAndLast.weekday ≠ .every ∧ januaryNoon.year ≤ 9990 ∧
    ∃ answer, next {} [.text (mondaysAndLast.written .space .space .space .space)] januaryNoon =
        pure answer ∧
      (∀ t, answer = some t ↔ IsLeast {t | januaryNoon < t ∧ mondaysAndLast.AdmitsEither t ∧
        mondaysAndLast.Reaches januaryNoon t} t) ∧
      (answer = none ↔ ∀ t, januaryNoon < t → mondaysAndLast.AdmitsEither t →
        ¬ mondaysAndLast.Reaches januaryNoon t) ∧
      ∀ t, IsLeast {t | januaryNoon < t ∧ mondaysAndLast.AdmitsEither t} t →
        (answer = some t ↔ mondaysAndLast.Reaches januaryNoon t) := by
  have hday : mondaysAndLast.day ≠ .every := by simp [mondaysAndLast]
  have hweekday : mondaysAndLast.weekday ≠ .every := by simp [mondaysAndLast]
  have hyear : januaryNoon.year ≤ 9990 := by decide
  exact ⟨by decide, hday, hweekday, hyear, next_cron_either_iff_reaches {} mondaysAndLast .space
    .space .space .space hday hweekday januaryNoon hyear⟩

/-- The Mondays of February are passed over, because it has no 31st. -/
theorem short_month_passed_over :
    ((next {} [.text "cron(0 0 31 * 1)"] januaryNoon).run.run []).run =
      (.ok (some marchMonday), []) ∧
      mondaysAndLast.AdmitsEither februaryMonday ∧ januaryNoon < februaryMonday ∧
      februaryMonday < marchMonday := by
  refine ⟨?_, ?_, by decide, by decide⟩
  · decide
  · exact ⟨by decide, by decide, by decide, by decide, by decide⟩

end TriggerScript.Schedule
