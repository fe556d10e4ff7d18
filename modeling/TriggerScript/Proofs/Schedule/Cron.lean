import TriggerScript.Proofs.Schedule.Date

/-!
# The next moment of a cron entry

A cron entry takes the moments on a full minute whose minute and hour belong to their fields and
whose date is one of the entry (`CronForm.Takes`). `Cron.next` looks for a time later on the current
day (`later_today`), and then takes the first time of the next date. It gives the first moment after
`now` that the entry takes, as far as the search for a date reaches (`CronForm.next_takes`); with a
star for the day or the weekday it reaches every date (`CronForm.next_text`).
-/

namespace TriggerScript.Schedule

open Calendar Moment

/-! ### The rest of the day -/

theorem later_today {M H : Int → Prop}
    {minuteNow hourNow hourPick minute hour minuteFrom hourFrom : Int}
    (hM : ∀ x, M x → 0 ≤ x ∧ x < 60)
    (hpick : Picks H hourNow hourPick)
    (hminuteFrom : minuteFrom = if hourNow + 1 ≤ hourPick then 0 else minuteNow + 1)
    (hminute : Picks M minuteFrom minute)
    (hhourFrom : hourFrom = if minute < minuteFrom then hourNow + 1 else hourNow)
    (hhour : Picks H hourFrom hour) (hmin : 0 ≤ minuteNow) (hmin' : minuteNow < 60) :
    (hour < hourFrom ∧ ∀ h m, H h → M m → 60 * h + m ≤ 60 * hourNow + minuteNow) ∨
    (hourFrom ≤ hour ∧ 60 * hourNow + minuteNow < 60 * hour + minute ∧
      ∀ h m, H h → M m → 60 * hourNow + minuteNow < 60 * h + m →
        60 * hour + minute ≤ 60 * h + m) := by
  have hmem := hM _ hminute.mem
  by_cases hlater : hourNow + 1 ≤ hourPick
  · -- the hour is not one of the field's: the next one begins with the first minute
    rw [if_pos hlater] at hminuteFrom
    subst hminuteFrom
    rw [if_neg (by omega)] at hhourFrom
    rw [hhourFrom] at hhour ⊢
    have hge := hhour.le_of_le hpick.mem (by omega)
    have hne : hour ≠ hourNow := fun h ↦ by
      have := hpick.eq_iff.2 (h ▸ hhour.mem)
      omega
    refine .inr ⟨by omega, by omega, fun h m hH hMm hlt ↦ ?_⟩
    have h1 := hhour.le_of_le hH (by have := hM m hMm; omega)
    have h2 := hminute.le_of_bound hMm fun x hx ↦ (hM x hx).1
    omega
  · rw [if_neg hlater] at hminuteFrom
    subst hminuteFrom
    by_cases hcarry : minute < minuteNow + 1
    · -- no minute is left in this hour
      rw [if_pos hcarry] at hhourFrom
      rw [hhourFrom] at hhour ⊢
      have hnext : ∀ h m, H h → M m → 60 * hourNow + minuteNow < 60 * h + m → hourNow + 1 ≤ h := by
        intro h m _ hMm hlt
        have := hM m hMm
        have := (hminute.of_lt hcarry hMm).1
        omega
      rcases lt_or_ge hour (hourNow + 1) with hlt | hge
      · refine .inl ⟨hlt, fun h m hH hMm ↦ ?_⟩
        by_contra hno
        have := hnext h m hH hMm (by omega)
        have := (hhour.of_lt hlt hH).1
        omega
      · refine .inr ⟨hge, by omega, fun h m hH hMm hlt ↦ ?_⟩
        have h1 := hhour.le_of_le hH (hnext h m hH hMm hlt)
        have h2 := (hminute.of_lt hcarry hMm).2
        omega
    · rw [if_neg hcarry] at hhourFrom
      rw [hhourFrom] at hhour ⊢
      rcases lt_or_ge hour hourNow with hlt | hge
      · refine .inl ⟨hlt, fun h m hH hMm ↦ ?_⟩
        have := hM m hMm
        have := (hhour.of_lt hlt hH).1
        omega
      · -- the hour is one of the field's, since the pick from it is not a later one
        have heq : hour = hourNow := by
          have := hpick.le_of_le hhour.mem hge
          exact hhour.eq_iff.2 (hpick.eq_iff.1 (by omega))
        refine .inr ⟨hge, by omega, fun h m hH hMm hlt ↦ ?_⟩
        have := hM m hMm
        rcases eq_or_ne h hourNow with rfl | hne
        · have := (hminute.le_of_le hMm (by omega)).2
          omega
        · omega

namespace CronForm

variable {f : CronForm}

/-! ### Admitted moments -/

/-- All five fields admit the moment. -/
structure Admits (f : CronForm) (t : Moment) : Prop where
  onMinute : t.OnMinute
  minute : f.minute.Admits t.minuteOfHour
  hour : f.hour.Admits t.hourOfDay
  day : f.day.Admits t.dayOfMonth
  month : f.month.Admits t.month
  weekday : f.weekday.Admits t.weekday

/-- Minute and hour admit the moment, and its date is one of the entry. -/
structure Takes (f : CronForm) (t : Moment) : Prop where
  onMinute : t.OnMinute
  minute : f.minute.Admits t.minuteOfHour
  hour : f.hour.Admits t.hourOfDay
  date : f.HasDate t.date

/-- The search reaches the month of `t`. -/
def Reaches (f : CronForm) (now t : Moment) : Prop := f.Reached now t.year t.month

theorem admitsWeekday_iff (t : Moment) :
    f.AdmitsWeekday t.year t.month t.dayOfMonth ↔ f.weekday.Admits t.weekday := by
  have hweekday : ((monthStart t.year t.month : Int) + t.dayOfMonth) % 7 = t.weekday := by
    have h1 := t.weekday_eq
    have h2 := t.dayCount_eq
    have h3 := t.dayOfMonth_bounds.1
    omega
  rw [AdmitsWeekday, hweekday]

theorem dayOfMonth_le (t : Moment) : t.dayOfMonth ≤ 31 := by
  have h1 := t.dayOfMonth_bounds
  have h2 := monthLength_bounds t.year t.month_bounds.1 t.month_bounds.2
  omega

theorem hasDate_iff (t : Moment) : f.HasDate t.date ↔
    f.month.Admits t.month ∧ f.TakesDay t.year t.month t.dayOfMonth :=
  ⟨fun h ↦ ⟨h.month, h.day⟩, fun h ↦
    ⟨t.year_bounds.1, h.1, t.dayOfMonth_bounds.1, t.dayOfMonth_bounds.2, h.2⟩⟩

theorem admits_dayOfMonth (h : f.day = .every) (t : Moment) : f.day.Admits t.dayOfMonth :=
  admits_of_every h (by have := t.dayOfMonth_bounds; omega) (by have := dayOfMonth_le t; omega)

theorem admits_weekday (h : f.weekday = .every) (t : Moment) : f.weekday.Admits t.weekday :=
  (admitsWeekday_iff t).1 (admitsWeekday_of_every h _ _ _)

theorem takesDay_iff_of_star (hstar : f.day = .every ∨ f.weekday = .every) (t : Moment) :
    f.TakesDay t.year t.month t.dayOfMonth ↔
      f.day.Admits t.dayOfMonth ∧ f.weekday.Admits t.weekday := by
  have hday (h : f.day = .every) := admits_dayOfMonth h t
  have hweekday (h : f.weekday = .every) := admits_weekday h t
  rw [TakesDay, admitsWeekday_iff]
  tauto

theorem takes_iff_admits (hstar : f.day = .every ∨ f.weekday = .every) (t : Moment) :
    f.Takes t ↔ f.Admits t := by
  constructor
  · intro h
    obtain ⟨hmonth, htakes⟩ := (hasDate_iff t).1 h.date
    obtain ⟨hday, hweekday⟩ := (takesDay_iff_of_star hstar t).1 htakes
    exact ⟨h.onMinute, h.minute, h.hour, hday, hmonth, hweekday⟩
  · intro h
    refine ⟨h.onMinute, h.minute, h.hour, (hasDate_iff t).2 ⟨h.month, ?_⟩⟩
    exact (takesDay_iff_of_star hstar t).2 ⟨h.day, h.weekday⟩

theorem date_of_shows {t : Moment} {x : Date} {h n : Nat} (hshows : t.Shows x.toDay h n)
    (hx : f.HasDate x) : t.date = x := by
  rw [date, hshows.dayCount]
  exact Date.ofDay_toDay hx.year_pos hx.month_bounds.1 hx.month_bounds.2 hx.day_pos hx.day_le

theorem Takes.of_shows {t : Moment} {x : Date} {h n : Nat} (hshows : t.Shows x.toDay h n)
    (hx : f.HasDate x) (hh : f.hour.Admits h) (hn : f.minute.Admits n) : f.Takes t :=
  ⟨hshows.onMinute, hshows.minuteOfHour.symm ▸ hn, hshows.hourOfDay.symm ▸ hh,
    (date_of_shows hshows hx).symm ▸ hx⟩

/-! ### The next moment -/

theorem coversToday_iff (now : Moment) {month mday wday : Int}
    (hmonth : Picks f.month.Admits now.month month) (hmday : Picks f.day.Admits now.dayOfMonth mday)
    (hwday : Picks f.weekday.Admits now.weekday wday) :
    f.cron.coversToday now month mday wday = true ↔ f.HasDate now.date := by
  have hd : f.cron.day = Field.star ↔ f.day = .every := f.day.text_eq_star_iff
  have hw : f.cron.weekday = Field.star ↔ f.weekday = .every := f.weekday.text_eq_star_iff
  have hday (h : f.day = .every) := admits_dayOfMonth h now
  have hweekday (h : f.weekday = .every) := admits_weekday h now
  have hM : (now.month : Int) = month ↔ f.month.Admits now.month := eq_comm.trans hmonth.eq_iff
  have hD : (now.dayOfMonth : Int) = mday ↔ f.day.Admits now.dayOfMonth :=
    eq_comm.trans hmday.eq_iff
  have hW : (now.weekday : Int) = wday ↔ f.weekday.Admits now.weekday := eq_comm.trans hwday.eq_iff
  rw [hasDate_iff, TakesDay, admitsWeekday_iff]
  simp only [Cron.coversToday, hd, hw, Bool.not_eq_true', Bool.or_eq_false_iff,
    Bool.and_eq_false_iff, decide_eq_false_iff_not, bne_eq_false_iff_eq, hM, hD, hW]
  clear hd hw hM hD hW hmonth hmday hwday
  tauto

theorem hour_bounds {h : Int} (hh : f.hour.Admits h) : 0 ≤ h ∧ h < 24 := by
  have := f.hour.bounds hh
  omega

theorem minute_bounds {n : Int} (hn : f.minute.Admits n) : 0 ≤ n ∧ n < 60 := by
  have := f.minute.bounds hn
  omega

theorem laterTime_text (f : CronForm) (now : Moment) :
    ∃ hour minute : Nat, ∃ carries : Bool,
      f.cron.laterTime now = pure ((hour : Int), (minute : Int), carries) ∧
      f.hour.Admits hour ∧ f.minute.Admits minute ∧
      if carries then ∀ u, f.Takes u → u.dayCount = now.dayCount → ¬ now < u
      else 60 * now.hourOfDay + now.minuteOfHour < 60 * hour + minute ∧
        ∀ u, f.Takes u → u.dayCount = now.dayCount → now < u →
          60 * hour + minute ≤ 60 * u.hourOfDay + u.minuteOfHour := by
  have hminuteNow := now.minuteOfHour_lt
  have hhourNow := now.hourOfDay_lt
  obtain ⟨hourPick, hread1, hhourPick⟩ :=
    f.hour.atLeast_text (by decide) now.hourOfDay (by omega) (by omega)
  obtain ⟨minuteFrom, hminuteFrom⟩ : ∃ n : Int, n =
    if (now.hourOfDay : Int) + 1 ≤ hourPick then 0 else (now.minuteOfHour : Int) + 1 := ⟨_, rfl⟩
  have hminuteBound : 0 ≤ minuteFrom ∧ minuteFrom ≤ 60 := by split at hminuteFrom <;> omega
  obtain ⟨minute, hread2, hminute⟩ :=
    f.minute.atLeast_text (by decide) (minuteFrom % 60) (by omega) (by omega)
  obtain ⟨hourFrom, hhourFrom⟩ : ∃ n : Int, n =
    if minute < minuteFrom then (now.hourOfDay : Int) + 1 else now.hourOfDay := ⟨_, rfl⟩
  have hhourBound : 0 ≤ hourFrom ∧ hourFrom ≤ 24 := by split at hhourFrom <;> omega
  obtain ⟨hour, hread3, hhour⟩ :=
    f.hour.atLeast_text (by decide) (hourFrom % 24) (by omega) (by omega)
  have hrun : f.cron.laterTime now = pure (hour, minute, decide (hour < hourFrom)) := by
    rw [Cron.laterTime, show f.cron.hour.atLeast _ = _ from hread1, pure_bind]
    dsimp only
    rw [← hminuteFrom, show f.cron.minute.atLeast _ = _ from hread2, pure_bind, ← hhourFrom,
      show f.cron.hour.atLeast _ = _ from hread3, pure_bind]
  have hb := hour_bounds hhour.mem
  have hb' := minute_bounds hminute.mem
  obtain ⟨h, rfl⟩ := Int.eq_ofNat_of_zero_le hb.1
  obtain ⟨n, rfl⟩ := Int.eq_ofNat_of_zero_le hb'.1
  refine ⟨h, n, _, hrun, hhour.mem, hminute.mem, ?_⟩
  -- on one day the order is that of the hours and minutes
  have horder : ∀ u, f.Takes u → u.dayCount = now.dayCount → (now < u ↔
      60 * (now.hourOfDay : Int) + now.minuteOfHour < 60 * u.hourOfDay + u.minuteOfHour) := by
    intro u hu hday
    rw [lt_iff_minuteCount hu.onMinute, minuteCount, minuteCount, hday]
    omega
  rcases later_today (fun x hx ↦ minute_bounds hx) hhourPick hminuteFrom
    (hminute.of_emod (fun x hx ↦ minute_bounds hx) hminuteBound.1 hminuteBound.2) hhourFrom
    (hhour.of_emod (fun x hx ↦ hour_bounds hx) hhourBound.1 hhourBound.2) (by omega) (by omega) with
    ⟨hcarry, hnone⟩ | ⟨hstay, hafter, hleast⟩
  · rw [if_pos (by simpa using hcarry)]
    intro u hu hday hlt
    have := hnone u.hourOfDay u.minuteOfHour hu.hour hu.minute
    have := (horder u hu hday).1 hlt
    omega
  · rw [if_neg (by simpa using hstay)]
    refine ⟨by omega, fun u hu hday hlt ↦ ?_⟩
    have := hleast u.hourOfDay u.minuteOfHour hu.hour hu.minute ((horder u hu hday).1 hlt)
    omega

theorem laterDay_text (now : Moment) {month : Int} (hmonth : Picks f.month.Admits now.month month) :
    (f.cron.laterDay now month = pure none ∧ f.Dateless ∧
        ∀ u, f.Takes u → f.Reaches now u → u.dayCount ≤ now.dayCount) ∨
      (∃ t, f.cron.laterDay now month = pure (some t) ∧ f.Takes t ∧ f.Reaches now t ∧
        now.dayCount < t.dayCount ∧
        ∀ u, f.Takes u → f.Reaches now u → now.dayCount < u.dayCount → t ≤ u) ∨
      9990 < now.year ∧ ∃ fault, f.cron.laterDay now month = throw fault := by
  obtain ⟨minute, hread1, hminute⟩ := f.minute.atLeast_text (by decide) 0 (by decide) (by decide)
  obtain ⟨hour, hread2, hhour⟩ := f.hour.atLeast_text (by decide) 0 (by decide) (by decide)
  have hb := hour_bounds hhour.mem
  have hb' := minute_bounds hminute.mem
  obtain ⟨h, rfl⟩ := Int.eq_ofNat_of_zero_le hb.1
  obtain ⟨n, rfl⟩ := Int.eq_ofNat_of_zero_le hb'.1
  rw [Cron.laterDay, show f.cron.minute.atLeast _ = _ from hread1, pure_bind,
    show f.cron.hour.atLeast _ = _ from hread2, pure_bind]
  rcases laterDate_text now hmonth with ⟨hdate, hnever, hnone⟩ |
    ⟨x, hdate, hx9, hx, hreached, hafter, hleast⟩ | ⟨hyear, fault, hfault⟩
  · refine .inl ⟨by rw [hdate, pure_bind], hnever, fun u hu hreaches ↦ ?_⟩
    rw [← u.toDay_date]
    exact hnone u.date hu.date hreaches
  · obtain ⟨t, ht, hshows⟩ := exists_ofFields hx.year_pos hx9 hx.month_bounds.1
      hx.month_bounds.2 hx.day_pos hx.day_le (h := h) (n := n) (by omega) (by omega)
    have htakes : f.Takes t := .of_shows hshows hx hhour.mem hminute.mem
    have hreaches : f.Reaches now t := by
      show f.Reached now t.date.year t.date.month
      rwa [date_of_shows hshows hx]
    refine .inr (.inl ⟨t, ?_, htakes, hreaches, hshows.dayCount.symm ▸ hafter,
      fun u hu hreaches hlt ↦ ?_⟩)
    · rw [hdate, pure_bind]
      simp only [ht, Reading.lift, pure_bind]
    · -- no date of the entry comes sooner, and on that date no hour and no minute
      have hdays : t.dayCount ≤ u.dayCount := by
        rw [hshows.dayCount, ← u.toDay_date]
        exact hleast u.date hu.date hreaches (by rwa [u.toDay_date])
      have hhours := hhour.le_of_bound hu.hour fun x hx ↦ (hour_bounds hx).1
      have hminutes := hminute.le_of_bound hu.minute fun x hx ↦ (minute_bounds hx).1
      rw [le_iff_minuteCount htakes.onMinute, hshows.minuteCount_eq, ← hshows.dayCount, minuteCount]
      omega
  · refine .inr (.inr ⟨hyear, fault, ?_⟩)
    rw [hfault]
    rfl

theorem next_takes (f : CronForm) (now : Moment) :
    (f.cron.next now = pure none ∧ f.Dateless ∧ ∀ u, f.Takes u → f.Reaches now u → ¬ now < u) ∨
      (∃ t, f.cron.next now = pure (some t) ∧ f.Takes t ∧ f.Reaches now t ∧ now < t ∧
        ∀ u, f.Takes u → f.Reaches now u → now < u → t ≤ u) ∨
      9990 < now.year ∧ ∃ fault, f.cron.next now = throw fault := by
  have hminuteNow := now.minuteOfHour_lt
  have hmonthNow := now.month_bounds
  have hdayNow := now.dayOfMonth_bounds
  have hlength := monthLength_bounds now.year hmonthNow.1 hmonthNow.2
  have hweekdayNow := now.weekday_eq
  obtain ⟨_, hread1, -⟩ := f.minute.atLeast_text (by decide) now.minuteOfHour (by omega) (by omega)
  obtain ⟨month, hread2, hmonth⟩ := f.month.atLeast_text (by decide) now.month (by omega) (by omega)
  obtain ⟨mday, hread3, hmday⟩ :=
    f.day.atLeast_text (by decide) now.dayOfMonth (by omega) (by omega)
  obtain ⟨wday, hread4, hwday⟩ :=
    f.weekday.atLeast_text (by decide) now.weekday (by omega) (by omega)
  obtain ⟨hour, minute, carries, hread5, hhour, hminute, htime⟩ := f.laterTime_text now
  have htoday := coversToday_iff now hmonth hmday hwday
  rw [Cron.next, show f.cron.minute.atLeast _ = _ from hread1, pure_bind,
    show f.cron.month.atLeast _ = _ from hread2, pure_bind,
    show f.cron.day.atLeast _ = _ from hread3, pure_bind,
    show f.cron.weekday.atLeast _ = _ from hread4, pure_bind, hread5, pure_bind]
  dsimp only
  have hdays : ∀ u, now < u → now.dayCount ≤ u.dayCount := fun u hlt ↦
    Nat.div_le_div_right (Nat.le_of_lt hlt)
  by_cases hlater : (carries || !f.cron.coversToday now month mday wday) = true
  · rw [if_pos hlater]
    have hnone : ∀ u, f.Takes u → now < u → now.dayCount < u.dayCount := by
      intro u hu hlt
      refine lt_of_le_of_ne (hdays u hlt) fun heq ↦ ?_
      rcases Bool.or_eq_true_iff.1 hlater with hcarry | hnot
      · rw [if_pos hcarry] at htime
        exact htime u hu heq.symm hlt
      · have hdate : f.HasDate now.date := by
          rw [date, heq]
          exact hu.date
        rw [htoday.2 hdate] at hnot
        cases hnot
    rcases laterDay_text now hmonth with ⟨ht, hnever, hno⟩ |
      ⟨t, ht, htakes, hreaches, hafter, hleast⟩ | hleft
    · grind
    · refine .inr (.inl ⟨t, ht, htakes, hreaches, ?_, fun u hu hreached hlt ↦
        hleast u hu hreached (hnone u hu hlt)⟩)
      exact (lt_iff_minuteCount htakes.onMinute).2 (minuteCount_lt hafter)
    · exact .inr (.inr hleft)
  · rw [if_neg hlater]
    simp only [Bool.or_eq_true, Bool.not_eq_true', not_or, Bool.not_eq_true,
      Bool.not_eq_false] at hlater
    obtain ⟨rfl, hcovers⟩ := hlater
    obtain ⟨hafter, hleast⟩ := htime
    have hb := hour_bounds hhour
    have hb' := minute_bounds hminute
    obtain ⟨t, ht, hshows⟩ := now.exists_add (h := hour) (n := minute) (by omega) (by omega)
    rw [← now.toDay_date] at hshows
    have htakes : f.Takes t := .of_shows hshows (htoday.1 hcovers) hhour hminute
    have hreaches : f.Reaches now t := by
      have hdate : t.date = now.date := date_of_shows hshows (htoday.1 hcovers)
      exact .inl ⟨congrArg Date.year hdate, congrArg Date.month hdate⟩
    rw [now.toDay_date] at hshows
    refine .inr (.inl ⟨t, by simp only [ht, Reading.lift, pure_bind], htakes, hreaches, ?_,
      fun u hu _ hlt ↦ ?_⟩)
    · rw [lt_iff_minuteCount htakes.onMinute, hshows.minuteCount_eq, minuteCount]
      omega
    · rw [le_iff_minuteCount htakes.onMinute]
      rcases eq_or_lt_of_le (hdays u hlt) with heq | hlt'
      · have := hleast u hu heq.symm hlt
        rw [hshows.minuteCount_eq, minuteCount]
        omega
      · exact (minuteCount_lt (hshows.dayCount ▸ hlt')).le

theorem next_text (hstar : f.day = .every ∨ f.weekday = .every) (now : Moment)
    (hyear : now.year ≤ 9990) :
    (f.cron.next now = pure none ∧ f.Dateless) ∨
      ∃ t, f.cron.next now = pure (some t) ∧ f.Admits t ∧ now < t ∧
        ∀ u, f.Admits u → now < u → t ≤ u := by
  have hreaches : ∀ u, f.Admits u → f.Reaches now u := fun u hu ↦
    .inr ⟨u.dayOfMonth, hu.day, u.dayOfMonth_bounds.2⟩
  rcases f.next_takes now with ⟨hrun, hnever, -⟩ | ⟨t, hrun, ht, -, hlt, hleast⟩ | ⟨hlate, -⟩
  · exact .inl ⟨hrun, hnever⟩
  · refine .inr ⟨t, hrun, (takes_iff_admits hstar t).1 ht, hlt, fun u hu ↦ ?_⟩
    exact hleast u ((takes_iff_admits hstar u).2 hu) (hreaches u hu)
  · omega

end CronForm

end TriggerScript.Schedule
