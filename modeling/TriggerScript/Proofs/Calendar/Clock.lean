import TriggerScript.Calendar.Duration
import TriggerScript.Proofs.Calendar.Days

/-!
# The fields of a moment

A moment is its day count with the hour, minute, second and microsecond of that day
(`Moment.ticks_eq`), and each of these lies below its radix. So a day, an hour and a minute name one
moment on a full minute (`Moment.exists_ofTicks?`), and a moment compares with those on a full
minute by the count of its minutes (`Moment.lt_iff_minuteCount`).
-/

namespace TriggerScript.Calendar

open Date

theorem day_eq : day = 86400000000 := rfl

namespace Moment

/-! ### Fields -/

variable (m : Moment)

theorem ticks_eq :
    m.ticks = 86400000000 * m.dayCount + 3600000000 * m.hourOfDay + 60000000 * m.minuteOfHour
      + 1000000 * m.secondOfMinute + m.microsecond := by
  simp only [dayCount, hourOfDay, minuteOfHour, secondOfMinute, microsecond, timeOfDay, day, hour,
    minute, second]
  omega

theorem hourOfDay_lt : m.hourOfDay < 24 := by
  simp only [hourOfDay, timeOfDay, day, hour, minute, second]
  omega

theorem minuteOfHour_lt : m.minuteOfHour < 60 := Nat.mod_lt _ (by decide)

theorem secondOfMinute_lt : m.secondOfMinute < 60 := Nat.mod_lt _ (by decide)

theorem microsecond_lt : m.microsecond < 1000000 := Nat.mod_lt _ (by decide)

theorem dayCount_lt : m.dayCount < lastDay := by
  have := m.ticks_lt
  simp only [dayCount, day_eq] at *
  omega

theorem weekday_eq : m.weekday = (m.dayCount + 1) % 7 := rfl

theorem month_bounds : 1 ≤ m.month ∧ m.month ≤ 12 :=
  ⟨(ofDay_spec m.dayCount).2.1, (ofDay_spec m.dayCount).2.2.1⟩

theorem dayOfMonth_bounds : 1 ≤ m.dayOfMonth ∧ m.dayOfMonth ≤ monthLength m.year m.month :=
  ⟨(ofDay_spec m.dayCount).2.2.2.1, (ofDay_spec m.dayCount).2.2.2.2.1⟩

theorem year_bounds : 1 ≤ m.year ∧ m.year ≤ 9999 :=
  ⟨(ofDay_spec m.dayCount).1, year_ofDay_le m.dayCount_lt⟩

theorem toDay_date : m.date.toDay = m.dayCount := (ofDay_spec m.dayCount).2.2.2.2.2

theorem valid_date : m.date.Valid :=
  ⟨m.year_bounds.1, m.year_bounds.2, m.month_bounds.1, m.month_bounds.2, m.dayOfMonth_bounds.1,
    m.dayOfMonth_bounds.2⟩

theorem dayCount_eq : m.dayCount = monthStart m.year m.month + (m.dayOfMonth - 1) := by
  rw [← toDay_eq _ _ _ m.dayOfMonth_bounds.1]
  exact (ofDay_spec m.dayCount).2.2.2.2.2.symm

variable {m t : Moment} {d h n y : Nat}

theorem dayCount_lt_daysBeforeYear {z : Nat} (h : m.year < z) : m.dayCount < daysBeforeYear z :=
  m.toDay_date ▸ toDay_lt_daysBeforeYear m.year_bounds.1 h m.month_bounds.2
    m.dayOfMonth_bounds.1 m.dayOfMonth_bounds.2

theorem daysBeforeYear_le_dayCount (m : Moment) : daysBeforeYear m.year ≤ m.dayCount := by
  have := m.dayOfMonth_bounds.1
  rw [m.dayCount_eq, monthStart]
  omega

theorem dayCount_add_lt (h : m.year ≤ 9990) : m.dayCount + 3287 < lastDay := by
  have hlt : m.dayCount < daysBeforeYear 9991 := dayCount_lt_daysBeforeYear (Nat.lt_succ_of_le h)
  have hyear : daysBeforeYear 9991 + 3287 = lastDay := by decide
  omega

/-! ### Full minutes -/

def OnMinute (m : Moment) : Prop := m.secondOfMinute = 0 ∧ m.microsecond = 0

instance (m : Moment) : Decidable m.OnMinute := inferInstanceAs (Decidable (_ ∧ _))

theorem le_antisymm (h : m ≤ t) (h' : t ≤ m) : m = t := by
  cases m with
  | mk ticks hticks =>
    obtain rfl : ticks = t.ticks := Nat.le_antisymm h h'
    rfl

/-- The moment of the day count `d` at `h` hours and `n` minutes. -/
structure Shows (m : Moment) (d h n : Nat) : Prop where
  dayCount : m.dayCount = d
  hourOfDay : m.hourOfDay = h
  minuteOfHour : m.minuteOfHour = n
  onMinute : m.OnMinute

theorem exists_ofTicks? (hd : d < lastDay) (hh : h < 24) (hn : n < 60) :
    ∃ m, ofTicks? (d * day + h * hour + n * minute) = some m ∧ m.Shows d h n := by
  have hlt : d * day + h * hour + n * minute < lastDay * day := by
    simp only [day, hour, minute, second]
    omega
  refine ⟨⟨d * day + h * hour + n * minute, hlt⟩, ?_, ?_, ?_, ?_, ?_, ?_⟩
  · rw [ofTicks?, dif_pos (by omega)]
    congr 2
  all_goals
    simp only [dayCount, hourOfDay, minuteOfHour, secondOfMinute, microsecond, timeOfDay, day, hour,
      minute, second]
    omega

def minuteCount (m : Moment) : Nat := 1440 * m.dayCount + 60 * m.hourOfDay + m.minuteOfHour

theorem Shows.minuteCount_eq (hshows : m.Shows d h n) : m.minuteCount = 1440 * d + 60 * h + n := by
  rw [minuteCount, hshows.dayCount, hshows.hourOfDay, hshows.minuteOfHour]

theorem lt_iff_minuteCount (h : t.OnMinute) : m < t ↔ m.minuteCount < t.minuteCount := by
  show m.ticks < t.ticks ↔ _
  have := m.secondOfMinute_lt
  have := m.microsecond_lt
  obtain ⟨h1, h2⟩ := h
  rw [m.ticks_eq, t.ticks_eq, minuteCount, minuteCount]
  omega

theorem le_iff_minuteCount (h : t.OnMinute) : t ≤ m ↔ t.minuteCount ≤ m.minuteCount := by
  show t.ticks ≤ m.ticks ↔ _
  have := (lt_iff_minuteCount (m := m) h).not
  exact Nat.not_lt.symm.trans (this.trans Nat.not_lt)

theorem minuteCount_lt (h : m.dayCount < t.dayCount) : m.minuteCount < t.minuteCount := by
  have := m.hourOfDay_lt
  have := m.minuteOfHour_lt
  simp only [minuteCount]
  omega

theorem exists_add (m : Moment) (hh : h < 24) (hn : n < 60) :
    ∃ t, m.add ((3600 * ((h : Int) - m.hourOfDay) + 60 * ((n : Int) - m.minuteOfHour)
        - m.secondOfMinute) * second - m.microsecond) = .ok t ∧ t.Shows m.dayCount h n := by
  obtain ⟨t, ht, hshows⟩ := exists_ofTicks? m.dayCount_lt hh hn
  refine ⟨t, ?_, hshows⟩
  have hticks : (m.ticks : Int) + ((3600 * ((h : Int) - m.hourOfDay) +
      60 * ((n : Int) - m.minuteOfHour) - m.secondOfMinute) * second - m.microsecond)
        = m.dayCount * day + h * hour + n * minute := by
    rw [m.ticks_eq]
    simp only [day, hour, minute, second]
    omega
  rw [add, add?, hticks, ht]

theorem checkField_ok (h : n ≤ 9999) : checkField n = .ok () := by
  rw [checkField, if_neg (by omega), if_neg (by omega), if_neg (by omega)]

theorem dayOf_eq {m : Nat} (hy : 1 ≤ y) (hy' : y ≤ 9999) (hm : 1 ≤ m) (hm' : m ≤ 12) (hd : 1 ≤ d)
    (hd' : d ≤ monthLength y m) : dayOf y m d = .ok (toDay ⟨y, m, d⟩) := by
  have hlen := (monthLength_bounds y hm hm').2
  rw [dayOf, checkField_ok hy', checkField_ok (show m ≤ 9999 by omega),
    checkField_ok (show d ≤ 9999 by omega)]
  simp only [Int.toNat_natCast]
  rw [if_neg (by omega), if_neg (by omega), if_neg (by omega)]
  rfl

theorem exists_dayOf_error (hy : 9999 < y) (m d : Int) : ∃ f, dayOf y m d = .error f := by
  rw [dayOf, if_pos (show (y : Int) < 1 ∨ 9999 < (y : Int) by omega)]
  rcases checkField y with f | _
  · exact ⟨f, rfl⟩
  rcases checkField m with f | _
  · exact ⟨f, rfl⟩
  rcases checkField d with f | _
  · exact ⟨f, rfl⟩
  exact ⟨.yearOutOfRange y, rfl⟩

theorem exists_ofFields {m : Nat} (hy : 1 ≤ y) (hy' : y ≤ 9999) (hm : 1 ≤ m) (hm' : m ≤ 12)
    (hd : 1 ≤ d) (hd' : d ≤ monthLength y m) (hh : h < 24) (hn : n < 60) :
    ∃ t, ofFields y m d h n = .ok t ∧ t.Shows (toDay ⟨y, m, d⟩) h n := by
  obtain ⟨t, ht, hshows⟩ := exists_ofTicks? (toDay_lt_lastDay hy hy' hm' hd hd') hh hn
  refine ⟨t, ?_, hshows⟩
  rw [ofFields, dayOf_eq hy hy' hm hm' hd hd']
  simp only [bind, Except.bind]
  rw [if_neg (by omega), if_neg (by omega)]
  simp only [ht]
  rfl

end Moment

end TriggerScript.Calendar
