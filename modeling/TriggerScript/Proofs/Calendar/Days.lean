import Mathlib.Tactic.IntervalCases
import Mathlib.Tactic.Ring
import TriggerScript.Calendar.Date

/-!
# Day counts and dates

The two readings of a day, as a count and as a date, are inverse to each other, and the count grows
with the date. Months are compared by their number from the start of year 0, `12 * year + month`: of
two months the later one starts no earlier than the other ends (`monthEnd_le_monthStart`).
-/

namespace TriggerScript.Calendar

/-! ### Lengths -/

def yearLength (year : Nat) : Nat := if isLeapYear year then 366 else 365

theorem isLeapYear_iff (year : Nat) :
    isLeapYear year = true ↔ (year % 4 = 0 ∧ year % 100 ≠ 0) ∨ year % 400 = 0 := by
  simp only [isLeapYear, Bool.or_eq_true, Bool.and_eq_true, beq_iff_eq, bne_iff_ne]
  omega

theorem daysBeforeYear_succ {year : Nat} (h : 1 ≤ year) :
    daysBeforeYear (year + 1) = daysBeforeYear year + yearLength year := by
  obtain ⟨k, rfl⟩ : ∃ k, year = k + 1 := ⟨year - 1, by omega⟩
  have hle : k / 100 ≤ k / 4 := Nat.div_le_div_left (by omega) (by omega)
  have hleap := isLeapYear_iff (k + 1)
  -- each of the three counts of years goes up exactly when its divisor divides the year
  simp only [daysBeforeYear, yearLength, Nat.add_sub_cancel, Nat.succ_div]
  grind

variable {k m month y z : Nat}

theorem daysBeforeYear_lt (hy : 1 ≤ y) (h : y < z) :
    daysBeforeYear y + yearLength y ≤ daysBeforeYear z := by
  induction z, h using Nat.le_induction with
  | base => rw [daysBeforeYear_succ hy]
  | succ z hz ih =>
    rw [daysBeforeYear_succ (by omega)]
    omega

theorem monthLength_bounds (year : Nat) (h1 : 1 ≤ month) (h2 : month ≤ 12) :
    28 ≤ monthLength year month ∧ monthLength year month ≤ 31 := by
  interval_cases month <;> simp [monthLength, monthLengths] 
  all_goals split <;> simp

theorem monthLength_eq_of_ne_two (y z : Nat) (h : month ≠ 2) :
    monthLength y month = monthLength z month := by
  simp [monthLength, h]

theorem monthLength_two (year : Nat) : monthLength year 2 = if isLeapYear year then 29 else 28 := by
  simp [monthLength, monthLengths]

theorem daysBeforeMonth_one (year : Nat) : daysBeforeMonth year 1 = 0 := by
  simp [daysBeforeMonth, monthLength]

theorem daysBeforeMonth_succ (year month : Nat) :
    daysBeforeMonth year (month + 1) = daysBeforeMonth year month + monthLength year month :=
  rfl

theorem daysBeforeMonth_thirteen (year : Nat) : daysBeforeMonth year 13 = yearLength year := by
  simp only [daysBeforeMonth, monthLength, monthLengths, yearLength]
  cases isLeapYear year <;> rfl

theorem daysBeforeMonth_mono (year : Nat) (h : m ≤ k) :
    daysBeforeMonth year m ≤ daysBeforeMonth year k := by
  induction k, h using Nat.le_induction with
  | base => exact Nat.le_refl _
  | succ k _ ih =>
    rw [daysBeforeMonth_succ]
    omega

/-! ### The start of a month -/

def monthStart (year month : Nat) : Nat := daysBeforeYear year + daysBeforeMonth year month

theorem monthEnd_le_monthStart (hy : 1 ≤ y) (hm : m ≤ 12) (hk : 1 ≤ k) (h : 12 * y + m < 12 * z + k)
    (hk' : k ≤ 12) : monthStart y m + monthLength y m ≤ monthStart z k := by
  have hend : daysBeforeMonth y m + monthLength y m = daysBeforeMonth y (m + 1) := rfl
  rcases Nat.lt_or_ge y z with hyz | hyz
  · have hyear := daysBeforeYear_lt hy hyz
    have hlast := daysBeforeMonth_mono y (show m + 1 ≤ 13 by omega)
    rw [daysBeforeMonth_thirteen] at hlast
    simp only [monthStart]
    omega
  · obtain rfl : y = z := by omega
    have hmonth := daysBeforeMonth_mono y (show m + 1 ≤ k by omega)
    simp only [monthStart]
    omega

namespace Date

theorem toDay_eq (y m d : Nat) (hd : 1 ≤ d) : toDay ⟨y, m, d⟩ = monthStart y m + (d - 1) := by
  simp only [toDay, monthStart]
  omega

/-! ### From a count to its date -/

variable {bound d day m n y year : Nat}

theorem yearUpTo_eq (hy : 1 ≤ y) (hb : y ≤ bound) (h1 : daysBeforeYear y ≤ day)
    (h2 : day < daysBeforeYear (y + 1)) : yearUpTo day bound = y := by
  induction bound, hb using Nat.le_induction with
  | base =>
    obtain ⟨k, rfl⟩ : ∃ k, y = k + 1 := ⟨y - 1, by omega⟩
    simp [yearUpTo, h1]
  | succ b hb ih =>
    have hlate : day < daysBeforeYear (b + 1) := by
      rcases Nat.lt_or_ge y b with hlt | hge
      · have := daysBeforeYear_lt (y := y + 1) (z := b + 1) (by omega) (by omega)
        omega
      · rwa [show b = y by omega]
    rw [yearUpTo, if_neg (by omega), ih]

theorem monthUpTo_eq (hm : 1 ≤ m) (hb : m ≤ bound) (h1 : daysBeforeMonth year m ≤ day)
    (h2 : day < daysBeforeMonth year (m + 1)) : monthUpTo year day bound = m := by
  induction bound, hb using Nat.le_induction with
  | base =>
    obtain ⟨k, rfl⟩ : ∃ k, m = k + 1 := ⟨m - 1, by omega⟩
    simp [monthUpTo, h1]
  | succ b hb ih =>
    have hlate : day < daysBeforeMonth year (b + 1) :=
      lt_of_lt_of_le h2 (daysBeforeMonth_mono year (by omega))
    rw [monthUpTo, if_neg (by omega), ih]

theorem ofDay_toDay (hy : 1 ≤ y) (hm : 1 ≤ m) (hm' : m ≤ 12) (hd : 1 ≤ d)
    (hd' : d ≤ monthLength y m) : ofDay (toDay ⟨y, m, d⟩) = ⟨y, m, d⟩ := by
  have hmonth : daysBeforeMonth y m + (d - 1) < daysBeforeMonth y (m + 1) := by
    rw [daysBeforeMonth_succ]
    omega
  have hlast := daysBeforeMonth_mono y (show m + 1 ≤ 13 by omega)
  rw [daysBeforeMonth_thirteen] at hlast
  have hday : toDay ⟨y, m, d⟩ = daysBeforeYear y + (daysBeforeMonth y m + (d - 1)) := by
    rw [toDay_eq y m d hd, monthStart]
    omega
  have hbound : y ≤ toDay ⟨y, m, d⟩ / 365 + 1 := by grind [daysBeforeYear]
  have hyear : yearUpTo (toDay ⟨y, m, d⟩) (toDay ⟨y, m, d⟩ / 365 + 1) = y := by
    grind [daysBeforeYear_succ, yearUpTo_eq]
  have hrest : toDay ⟨y, m, d⟩ - daysBeforeYear y = daysBeforeMonth y m + (d - 1) := by omega
  simp only [ofDay, hyear, hrest]
  rw [monthUpTo_eq hm hm' (by omega) hmonth]
  congr 1
  omega

theorem exists_year (n : Nat) : ∃ y, 1 ≤ y ∧ daysBeforeYear y ≤ n ∧ n < daysBeforeYear (y + 1) := by
  induction n with
  | zero => exact ⟨1, by decide, by decide, by decide⟩
  | succ n ih => grind [daysBeforeYear]

theorem exists_month (h : n < yearLength year) :
    ∃ m, 1 ≤ m ∧ m ≤ 12 ∧ daysBeforeMonth year m ≤ n ∧ n < daysBeforeMonth year (m + 1) := by
  by_contra hnone
  push Not at hnone
  -- if no month holds the day, it lies beyond each of them in turn
  have hbeyond : ∀ m ≤ 12, daysBeforeMonth year (m + 1) ≤ n := by
    intro m
    induction m with
    | zero => simp [daysBeforeMonth_one]
    | succ m ih => exact fun hm ↦ hnone (m + 1) (by omega) hm (ih (by omega))
  have := hbeyond 12 (by omega)
  rw [daysBeforeMonth_thirteen] at this
  omega

theorem exists_toDay_eq (n : Nat) :
    ∃ y m d, 1 ≤ y ∧ 1 ≤ m ∧ m ≤ 12 ∧ 1 ≤ d ∧ d ≤ monthLength y m ∧ toDay ⟨y, m, d⟩ = n := by
  obtain ⟨y, hy, h1, h2⟩ := exists_year n
  rw [daysBeforeYear_succ hy] at h2
  obtain ⟨m, hm, hm', h3, h4⟩ := exists_month (show n - daysBeforeYear y < yearLength y by omega)
  rw [daysBeforeMonth_succ] at h4
  refine ⟨y, m, n - daysBeforeYear y - daysBeforeMonth y m + 1, hy, hm, hm', by omega, by omega, ?_⟩
  simp only [toDay]
  omega

theorem ofDay_spec (n : Nat) :
    1 ≤ (ofDay n).year ∧ 1 ≤ (ofDay n).month ∧ (ofDay n).month ≤ 12 ∧ 1 ≤ (ofDay n).day ∧
      (ofDay n).day ≤ monthLength (ofDay n).year (ofDay n).month ∧ (ofDay n).toDay = n := by
  obtain ⟨y, m, d, hy, hm, hm', hd, hd', rfl⟩ := exists_toDay_eq n
  rw [ofDay_toDay hy hm hm' hd hd']
  exact ⟨hy, hm, hm', hd, hd', rfl⟩

theorem daysBeforeYear_end : daysBeforeYear 10000 = lastDay := by decide

theorem toDay_lt_daysBeforeYear {z : Nat} (hy : 1 ≤ y) (hz : y < z) (hm' : m ≤ 12) (hd : 1 ≤ d)
    (hd' : d ≤ monthLength y m) : toDay ⟨y, m, d⟩ < daysBeforeYear z := by
  have hmonth := monthEnd_le_monthStart (y := y) (m := m) (z := z) (k := 1) hy hm' (by omega)
    (by omega) (by omega)
  rw [monthStart, monthStart, daysBeforeMonth_one] at hmonth
  rw [toDay_eq y m d hd, monthStart]
  omega

theorem toDay_lt_lastDay (hy : 1 ≤ y) (hy' : y ≤ 9999) (hm' : m ≤ 12) (hd : 1 ≤ d)
    (hd' : d ≤ monthLength y m) : toDay ⟨y, m, d⟩ < lastDay :=
  daysBeforeYear_end ▸ toDay_lt_daysBeforeYear hy (Nat.lt_succ_of_le hy') hm' hd hd'

theorem year_ofDay_le (h : n < lastDay) : (ofDay n).year ≤ 9999 := by
  by_contra hlate
  obtain ⟨hy, hm, hm', hd, hd', hn⟩ := ofDay_spec n
  have hstart := daysBeforeYear_lt (y := 9999) (z := (ofDay n).year) (by omega) (by omega)
  rw [← daysBeforeYear_succ (by omega), daysBeforeYear_end] at hstart
  have hday : n = daysBeforeYear (ofDay n).year + daysBeforeMonth (ofDay n).year (ofDay n).month
      + (ofDay n).day - 1 := hn.symm
  omega

end Date

end TriggerScript.Calendar
