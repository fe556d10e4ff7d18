import TriggerScript.Proofs.Schedule.Earliest
import TriggerScript.Proofs.Schedule.NamedDay

/-!
# A specification with one moment

The text between the parentheses of `once(..)` is tried for today, and for tomorrow when the moment
of today is not after `now` (`next_onceText`, `next_once_time_or_date`). A day that is named does
not depend on the day asked for. So of a date without its year and of a weekday only the occasion of
this year or of this week is seen (`next_once_isLeast_iff`).
-/

namespace TriggerScript.Schedule

open Calendar Text StampForm Moment

/-! ### The written entry -/

/-- A text that may stand between parentheses. -/
structure Enclosed (cs : List Char) : Prop where
  parenthesis_not_mem : '(' ∉ cs
  lineFeed_not_mem : '\n' ∉ cs
  strip_eq : strip cs = cs

theorem sole?_scanCron_of_opening {word cs : List Char} (hword : '(' ∉ word) (hcs : '(' ∉ cs)
    (hname : ¬ "cron".toList <:+ word) : sole? scanCron (word ++ '(' :: cs) = none := by
  refine sole?_eq_none fun suffix hs ↦ ?_
  unfold scanCron
  rw [show after? "cron(".toList suffix = none from after?_of_opening hs hword hcs hname]
  rfl

def onceText (cs : List Char) : String := String.ofList ("once(".toList ++ (cs ++ [')']))

theorem toList_onceText (cs : List Char) :
    (onceText cs).toList = "once(".toList ++ (cs ++ [')']) := by
  unfold onceText
  exact String.toList_ofList

namespace Enclosed

variable {cs : List Char} (h : Enclosed cs)

include h

theorem scanOnce_onceText : scanOnce (onceText cs).toList = some (cs, []) := by
  have hline : ∀ c ∈ cs ++ [')'], decide (c ≠ '\n') = true := by grind [h.lineFeed_not_mem]
  unfold scanOnce scanToLineClose cutLine
  simp only [toList_onceText, after?_append, Option.bind_some, List.takeWhile_eq_self_iff.2 hline,
    List.dropWhile_eq_nil_iff.2 hline, cutAtLast?_append_singleton, Option.map_some,
      List.append_nil]

theorem ofText_onceText : Entry.ofText (onceText cs) = .once (String.ofList cs) := by
  have hcron : sole? scanCron (onceText cs).toList = none := by
    rw [toList_onceText]
    exact @sole?_scanCron_of_opening "once".toList _ (by decide)
      (by simpa using h.parenthesis_not_mem)
      (by decide)
  unfold Entry.ofText
  simp only [hcron, sole?_of_scan h.scanOnce_onceText rfl, trimmed, h.strip_eq]

theorem next_onceText (sun : Sun) (now : Moment) : next sun [.text (onceText cs)] now = (do
    let t ← DateTime.moment sun (.whole 0) now (String.ofList cs)
    let t ← if t ≤ now then DateTime.moment sun (.whole 1) now (String.ofList cs) else pure t
    pure (if now < t then some t else none)) := by
  rw [next, nextFrom, nextOfEntry, h.ofText_onceText]
  exact bind_pure _

theorem next_of_moments {sun : Sun} {now t u : Moment}
    (ht : DateTime.moment sun (.whole 0) now (String.ofList cs) = pure t)
    (hu : DateTime.moment sun (.whole 1) now (String.ofList cs) = pure u) :
    next sun [.text (onceText cs)] now =
      pure (if now < t then some t else if now < u then some u else none) := by
  rw [h.next_onceText, ht, pure_bind]
  by_cases hlt : now < t
  · simp only [if_neg (show ¬ t ≤ now from Nat.not_le.2 hlt), if_pos hlt, pure_bind]
  · simp only [if_pos (show t ≤ now from Nat.not_lt.1 hlt), if_neg hlt, hu, pure_bind]

end Enclosed

theorem TimeForm.enclosed_text (c : TimeForm) : Enclosed c.text where
  parenthesis_not_mem := c.not_mem_text (by decide) (by decide)
  lineFeed_not_mem := c.not_mem_text (by decide) (by decide)
  strip_eq := strip_of_solid c.solid_text

theorem TimeForm.exists_next_onceText (c : TimeForm) (sun : Sun) {now : Moment}
    (hyear : now.year ≤ 9990) :
    ∃ t, next sun [.text (onceText c.text)] now = pure (some t) ∧ now < t ∧
      t.ticks ≤ now.ticks + Calendar.day ∧ t.timeOfDay = c.micros := by
  have hlast := dayCount_add_lt hyear
  obtain ⟨t, ht, htday, httime⟩ :=
    c.exists_moment_text sun 0 (by decide) (show now.dayCount + 0 < _ by omega)
  obtain ⟨u, hu, huday, hutime⟩ :=
    c.exists_moment_text sun 1 (by decide) (show now.dayCount + 1 < _ by omega)
  have hnow := now.ticks_eq_dayCount
  have hlt := now.timeOfDay_lt
  have hticks := t.ticks_eq_dayCount
  have huticks := u.ticks_eq_dayCount
  rw [htday, httime, Nat.add_zero] at hticks
  rw [huday, hutime, Nat.add_mul, Nat.one_mul] at huticks
  have hmicros := c.micros_lt
  rw [c.enclosed_text.next_of_moments ht hu]
  by_cases htoday : now < t
  · exact ⟨t, by rw [if_pos htoday], htoday, by omega, httime⟩
  · have hpassed : t.ticks ≤ now.ticks := Nat.not_lt.1 htoday
    have htomorrow : now < u := show now.ticks < u.ticks by omega
    exact ⟨u, by rw [if_neg htoday, if_pos htomorrow], htomorrow, by omega, hutime⟩

namespace StampForm

variable (f : StampForm)

theorem not_mem_text {c : Char} (hdigit : isDigit c = false) (hmark : ∀ m : DateMark, c ≠ m.char)
    (hletter : c.toNat < 65) (hspace : c ≠ ' ') (hcolon : c ≠ ':') : c ∉ f.text := by
  grind [text, f.day.not_mem_text, f.mem_timeText]

theorem enclosed_text : Enclosed f.text where
  parenthesis_not_mem :=
    f.not_mem_text (by decide) (by rintro ⟨⟩ <;> decide) (by decide) (by decide) (by decide)
  lineFeed_not_mem :=
    f.not_mem_text (by decide) (by rintro ⟨⟩ <;> decide) (by decide) (by decide) (by decide)
  strip_eq := f.strip_text

theorem next_onceText (sun : Sun) {now t : Moment} (h : f.day.Exists now)
    (ht : reach (f.ticks now) = .ok t) :
    next sun [.text (onceText f.text)] now = pure (if now < t then some t else none) := by
  have hmoment (shift : Days) : DateTime.moment sun shift now (String.ofList f.text) = pure t := by
    rw [f.moment_text sun shift h, ht, Reading.lift_ok]
  rw [f.enclosed_text.next_of_moments (hmoment _) (hmoment _)]
  by_cases hlt : now < t
  · rw [if_pos hlt, if_pos hlt]
  · rw [if_neg hlt, if_neg hlt]

end StampForm

/-- **A moment of one time.** For a time of day the next moment is the only one with it in the day
after `now`, and for a date the moment that is named if that is after `now`. -/
theorem next_once_time_or_date (sun : Sun) (now : Moment) (hyear : now.year ≤ 9990) :
    (∀ c : TimeForm, ∃ t, next sun [.text (onceText c.text)] now = pure (some t) ∧
      ∀ u, u = t ↔ now < u ∧ u.ticks ≤ now.ticks + Calendar.day ∧ u.timeOfDay = c.micros) ∧
    ∀ (d : DateForm) (time : Option SpacedTime), (d.date now).Valid →
      ∃ t, t.date = d.date now ∧ t.timeOfDay = micros ⟨.date d, time⟩ ∧
        next sun [.text (onceText (text ⟨.date d, time⟩))] now =
          pure (if now < t then some t else none) := by
  refine ⟨fun c ↦ ?_, fun d time hvalid ↦ ?_⟩
  · obtain ⟨t, hnext, hlt, hle, htime⟩ := c.exists_next_onceText sun hyear
    refine ⟨t, hnext, fun u ↦ ⟨?_, ?_⟩⟩
    · rintro rfl
      exact ⟨hlt, hle, htime⟩
    · rintro ⟨hult, hule, hutime⟩
      exact eq_of_timeOfDay hlt hle hult hule (hutime.trans htime.symm)
  · obtain ⟨t, ht, hday, htime⟩ :=
      exists_reach_ticks ⟨.date d, time⟩ (DateForm.dayFrom_lt hvalid)
    exact ⟨t, DateForm.date_of_dayCount hvalid hday, htime,
      next_onceText ⟨.date d, time⟩ sun hvalid ht⟩

def noon : TimeForm :=
  ⟨⟨0, figure "12".toList (by decide)⟩, ⟨0, figure ['0', '0'] (by decide)⟩, none⟩

theorem next_once_time_or_date_noon :
    onceText noon.text = "once(12:00)" ∧ leapDayEnd.year ≤ 9990 ∧ (leapDay.date leapDayEnd).Valid ∧
    (∃ t, next {} [.text (onceText noon.text)] leapDayEnd = pure (some t) ∧
      ∀ u, u = t ↔ leapDayEnd < u ∧ u.ticks ≤ leapDayEnd.ticks + Calendar.day ∧
        u.timeOfDay = noon.micros) ∧
    ∃ t, t.date = leapDay.date leapDayEnd ∧
      t.timeOfDay = micros ⟨.date leapDay, some afterSeven⟩ ∧
      next {} [.text (onceText (text ⟨.date leapDay, some afterSeven⟩))] leapDayEnd =
        pure (if leapDayEnd < t then some t else none) :=
  ⟨by decide, by decide, by decide, (next_once_time_or_date {} leapDayEnd (by decide)).1 noon,
    (next_once_time_or_date {} leapDayEnd (by decide)).2 leapDay (some afterSeven) (by decide)⟩

/-! ### Days that come again -/

namespace DayForm

def Recurs : DayForm → Prop
  | date d => d.year = none ∧ ∀ year, d.day.value ≤ monthLength year d.month.value
  | weekday _ => True

def Names (t : Moment) : DayForm → Prop
  | date d => t.month = d.month.value ∧ t.dayOfMonth = d.day.value
  | weekday w => t.weekday = w.weekday

instance (t : Moment) : DecidablePred (Names t)
  | date _ => inferInstanceAs (Decidable (_ ∧ _))
  | weekday _ => inferInstanceAs (Decidable (_ = _))

def Current (now t : Moment) : DayForm → Prop
  | date _ => t.year = now.year
  | weekday _ => t.dayCount = now.dayCount

/-- No such weekday is left in the calendar. -/
def Lost (now : Moment) : DayForm → Prop
  | date _ => False
  | weekday w => ∀ t : Moment, now.dayCount ≤ t.dayCount → t.weekday ≠ w.weekday

variable {d : DayForm} {now : Moment}

theorem Recurs.date_eq {d : DateForm} (h : (date d).Recurs) (now : Moment) :
    d.date now = ⟨now.year, d.month.value, d.day.value⟩ := by
  rw [DateForm.date, h.1, Option.elim_none]

theorem Recurs.valid {d : DateForm} (h : (date d).Recurs) (now : Moment) : (d.date now).Valid := by
  rw [h.date_eq now]
  exact ⟨now.year_bounds.1, now.year_bounds.2, d.month.low_le, d.month.le_high, d.day.low_le, h.2 _⟩

theorem Recurs.exists (h : d.Recurs) (now : Moment) : d.Exists now := by
  cases d with
  | date d => exact h.valid now
  | weekday w => trivial

theorem Recurs.names {t : Moment} (h : d.Recurs) (ht : t.dayCount = d.dayFrom now) : d.Names t := by
  cases d with
  | date d =>
    have hdate := DateForm.date_of_dayCount (h.valid now) ht
    exact ⟨congrArg Date.month hdate, congrArg Date.day hdate⟩
  | weekday w =>
    have hday := (w.isLeast_dayFrom now).1.1.2
    rw [← ht] at hday
    exact hday

theorem Recurs.dayCount_eq {t : Moment} (h : d.Recurs) (hnames : d.Names t)
    (hcurrent : d.Current now t) : t.dayCount = d.dayFrom now := by
  cases d with
  | date d =>
    obtain ⟨hmonth, hday⟩ := hnames
    have hdate : t.date = d.date now := by
      rw [h.date_eq now, ← hmonth, ← hday, ← show t.year = now.year from hcurrent]
      rfl
    rw [← t.toDay_date, hdate, dayFrom]
  | weekday w =>
    have hlt := w.weekday.isLt
    have hday : t.dayCount = now.dayCount := hcurrent
    have hweekday : t.weekday = w.weekday := hnames
    have hnow := now.weekday_eq
    rw [t.weekday_eq] at hweekday
    rw [dayFrom]
    omega

theorem Recurs.current_of_le {t : Moment} (h : d.Recurs) (ht : t.dayCount = d.dayFrom now)
    (hle : t ≤ now) : d.Current now t := by
  cases d with
  | date d =>
    show t.date.year = now.year
    rw [DateForm.date_of_dayCount (h.valid now) ht, h.date_eq now]
  | weekday w =>
    have hday : t.dayCount ≤ now.dayCount := Nat.div_le_div_right hle
    have := (w.isLeast_dayFrom now).1.1.1
    show t.dayCount = now.dayCount
    omega

theorem Recurs.dayFrom_le {t : Moment} (h : d.Recurs) (hnames : d.Names t)
    (hle : now.dayCount ≤ t.dayCount) : d.dayFrom now ≤ t.dayCount := by
  cases d with
  | date d =>
    have hstart := t.daysBeforeYear_le_dayCount
    rcases Nat.lt_trichotomy t.year now.year with hlt | heq | hlt
    · have := dayCount_lt_daysBeforeYear hlt
      have := now.daysBeforeYear_le_dayCount
      omega
    · exact (h.dayCount_eq hnames heq).ge
    · rw [dayFrom, h.date_eq now]
      have :=
        Date.toDay_lt_daysBeforeYear now.year_bounds.1 hlt d.month.le_high d.day.low_le (h.2 _)
      omega
  | weekday w => exact (w.isLeast_dayFrom now).1.2 ⟨hle, hnames⟩

theorem Recurs.lost_iff (h : d.Recurs) : d.Lost now ↔ Date.lastDay ≤ d.dayFrom now := by
  cases d with
  | date d => exact iff_of_false id (Nat.not_le.2 (DateForm.dayFrom_lt (h.valid now)))
  | weekday w =>
    constructor
    · intro hlost
      by_contra hlt
      obtain ⟨t, -, hday, -⟩ := reach_dayCount (Nat.not_le.1 hlt) (show 0 < Calendar.day by decide)
      have hle : now.dayCount ≤ t.dayCount := hday ▸ (w.isLeast_dayFrom now).1.1.1
      exact hlost t hle (h.names hday)
    · intro hlast t hle hweekday
      have := h.dayFrom_le (d := weekday w) hweekday hle
      have := t.dayCount_lt
      omega

end DayForm

/-- A day that comes again, with a time. -/
structure RecurringForm where
  day : DayForm
  recurs : day.Recurs
  time : SpacedTime

namespace RecurringForm

variable (f : RecurringForm) (now : Moment)

def stamp : StampForm := ⟨f.day, some f.time⟩

def written : String := onceText f.stamp.text

def Admits (t : Moment) : Prop := f.day.Names t ∧ t.timeOfDay = f.stamp.micros

instance : DecidablePred f.Admits := fun _ ↦ inferInstanceAs (Decidable (_ ∧ _))

/-- This year's moment, or today's, has passed. -/
def Passed : Prop := ∃ t, t ≤ now ∧ f.Admits t ∧ f.day.Current now t

theorem next_outcome (sun : Sun) :
    (f.day.Lost now → ∃ fault, next sun [.text f.written] now = throw fault) ∧
    (¬ f.day.Lost now → ∃ t, t.dayCount = f.day.dayFrom now ∧ t.timeOfDay = f.stamp.micros ∧
      next sun [.text f.written] now = pure (if now < t then some t else none)) := by
  have hexists := f.recurs.exists now
  rw [f.recurs.lost_iff]
  constructor
  · intro hlast
    refine ⟨.dateOutOfRange, ?_⟩
    rw [written, f.stamp.enclosed_text.next_onceText, f.stamp.moment_text sun _ hexists,
      reach_of_outside (f.stamp.outside_ticks hlast)]
    rfl
  · intro hlt
    obtain ⟨t, ht, hday, htime⟩ := f.stamp.exists_reach_ticks (Nat.not_le.1 hlt)
    exact ⟨t, hday, htime, f.stamp.next_onceText sun hexists ht⟩

variable {f : RecurringForm} {now t : Moment}

theorem Passed.not_lost (h : f.Passed now) : ¬ f.day.Lost now := by
  obtain ⟨t, -, ⟨hnames, -⟩, hcurrent⟩ := h
  rw [f.recurs.lost_iff, ← f.recurs.dayCount_eq hnames hcurrent]
  exact Nat.not_le.2 t.dayCount_lt

theorem passed_iff (hday : t.dayCount = f.day.dayFrom now) (htime : t.timeOfDay = f.stamp.micros) :
    f.Passed now ↔ t ≤ now := by
  constructor
  · rintro ⟨u, hle, ⟨hnames, hutime⟩, hcurrent⟩
    have hu : u.dayCount = f.day.dayFrom now := f.recurs.dayCount_eq hnames hcurrent
    exact eq_of_dayCount (hday.trans hu.symm) (htime.trans hutime.symm) ▸ hle
  · intro hle
    exact ⟨t, hle, ⟨f.recurs.names hday, htime⟩, f.recurs.current_of_le hday hle⟩

theorem isLeast_of_lt (hday : t.dayCount = f.day.dayFrom now) (htime : t.timeOfDay = f.stamp.micros)
    (hlt : now < t) : IsLeast {t | now < t ∧ f.Admits t} t := by
  refine ⟨⟨hlt, f.recurs.names hday, htime⟩, ?_⟩
  rintro u ⟨hult, hnames, hutime⟩
  have hle : t.dayCount ≤ u.dayCount := by
    rw [hday]
    exact f.recurs.dayFrom_le hnames (Nat.div_le_div_right hult.le)
  show t.ticks ≤ u.ticks
  rw [t.ticks_eq_dayCount, u.ticks_eq_dayCount, htime, hutime]
  exact Nat.add_le_add_right (Nat.mul_le_mul_right _ hle) _

end RecurringForm

/-- The answer is the least moment after `now` with the month and day, or the weekday, and the time
of day unless the occasion of this year, or today's for a weekday, has passed, or the calendar ends
before the weekday comes. Then there is no next moment, or the text is refused. -/
theorem next_once_isLeast_iff (sun : Sun) (f : RecurringForm) (now : Moment) :
    ((∃ t, next sun [.text f.written] now = pure (some t) ∧ IsLeast {t | now < t ∧ f.Admits t} t) ↔
      ¬ f.Passed now ∧ ¬ f.day.Lost now) ∧
    (f.Passed now → next sun [.text f.written] now = pure none) ∧
    (f.day.Lost now → ∃ fault, next sun [.text f.written] now = throw fault) := by
  obtain ⟨hlost, hanswer⟩ := f.next_outcome now sun
  have hpassed (hp : f.Passed now) : next sun [.text f.written] now = pure none := by
    obtain ⟨t, hday, htime, ht⟩ := hanswer hp.not_lost
    have hnot : ¬ now < t := Nat.not_lt.2 ((RecurringForm.passed_iff hday htime).1 hp)
    rw [ht, if_neg hnot]
  refine ⟨⟨?_, ?_⟩, hpassed, hlost⟩
  · rintro ⟨t, ht, -⟩
    refine ⟨fun hp ↦ ?_, fun hl ↦ ?_⟩
    · cases congrArg Reading.outcome ((hpassed hp).symm.trans ht)
    · obtain ⟨fault, hfault⟩ := hlost hl
      cases congrArg Reading.outcome (hfault.symm.trans ht)
  · rintro ⟨hp, hl⟩
    obtain ⟨t, hday, htime, ht⟩ := hanswer hl
    have hlt : now < t := Nat.not_le.1 ((RecurringForm.passed_iff hday htime).not.1 hp)
    rw [if_pos hlt] at ht
    exact ⟨t, ht, RecurringForm.isLeast_of_lt hday htime hlt⟩

def atNoon : SpacedTime := ⟨0, noon⟩

def firstOfJuly : DateForm :=
  ⟨none, ⟨0, figure ['7'] (by decide)⟩, .slash, ⟨0, figure ['1'] (by decide)⟩⟩

def everyJuly : RecurringForm where
  day := .date firstOfJuly
  recurs := ⟨rfl, fun year ↦
    Nat.le_trans (by decide)
      (monthLength_bounds year firstOfJuly.month.low_le firstOfJuly.month.le_high).1⟩
  time := atNoon

def everyWednesday : RecurringForm :=
  ⟨.weekday ⟨⟨3, by decide⟩, ['w', 'e', 'd'], by decide⟩, trivial, atNoon⟩

def julyAfternoon : Moment := ⟨63729205200000000, by decide⟩

def weekLater : Moment := ⟨63729806400000000, by decide⟩

def yearLater : Moment := ⟨63760737600000000, by decide⟩

/-- An hour after noon neither the next year's noon nor the next week's is seen. -/
theorem next_occasion_unseen :
    everyJuly.written = "once(7/1 12:00)" ∧
      ((next {} [.text "once(7/1 12:00)"] julyAfternoon).run.run []).run = (.ok none, []) ∧
      everyJuly.Admits yearLater ∧ julyAfternoon < yearLater ∧
    everyWednesday.written = "once(wed 12:00)" ∧
      ((next {} [.text "once(wed 12:00)"] julyAfternoon).run.run []).run = (.ok none, []) ∧
      everyWednesday.Admits weekLater ∧ julyAfternoon < weekLater :=
  ⟨by decide, by decide, by decide, by decide, by decide, by decide, by decide, by decide⟩

end TriggerScript.Schedule
