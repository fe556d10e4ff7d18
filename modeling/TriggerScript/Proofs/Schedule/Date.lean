import TriggerScript.Proofs.Schedule.Month

/-!
# The next date of a cron entry

A day counts if one of the day of the month and the weekday that is not a star admits it
(`CronForm.TakesDay`). `Cron.laterDate` gives the first such date after the current day among those
that the search reaches (`CronForm.laterDate_text`): the rest of the current month, and later on
only months that have a day of the day field (`CronForm.Reached`). Inside one month candidates are
compared by `FirstIn`.
-/

namespace TriggerScript.Schedule

open Calendar Cron

/-- The five fields of an entry. -/
structure CronForm where
  minute : Form 0 59
  hour : Form 0 23
  day : Form 1 31
  month : Form 1 12
  weekday : Form 0 6

namespace CronForm

def cron (f : CronForm) : Cron where
  minute := f.minute.text
  hour := f.hour.text
  day := f.day.text
  month := f.month.text
  weekday := f.weekday.text

def AdmitsWeekday (f : CronForm) (year month : Nat) (day : Int) : Prop :=
  f.weekday.Admits ((monthStart year month + day) % 7)

def TakesDay (f : CronForm) (year month : Nat) (day : Int) : Prop :=
  f.day ≠ .every ∧ f.day.Admits day ∨ f.weekday ≠ .every ∧ f.AdmitsWeekday year month day ∨
    f.day = .every ∧ f.weekday = .every

/-- The date exists, and the entry takes it. -/
structure HasDate (f : CronForm) (x : Date) : Prop where
  year_pos : 1 ≤ x.year
  month : f.month.Admits x.month
  day_pos : 1 ≤ x.day
  day_le : x.day ≤ monthLength x.year x.month
  day : f.TakesDay x.year x.month x.day

def Suits (f : CronForm) (year month : Nat) : Prop :=
  ∃ day : Nat, f.day.Admits day ∧ day ≤ monthLength year month

def Reached (f : CronForm) (now : Moment) (year month : Nat) : Prop :=
  year = now.year ∧ month = now.month ∨ f.Suits year month

/-- No admitted month has an admitted day. -/
def Dateless (f : CronForm) : Prop :=
  ∀ year month day : Nat, f.month.Admits month → f.day.Admits day → monthLength year month < day

end CronForm

/-! ### Candidates inside a month -/

def FirstIn (P : Int → Prop) (low high day : Int) (carries : Bool) : Prop :=
  if carries then ∀ d, low ≤ d → d ≤ high → ¬ P d
  else low ≤ day ∧ day ≤ high ∧ P day ∧ ∀ d, low ≤ d → d ≤ high → P d → day ≤ d

namespace FirstIn

variable {P Q : Int → Prop} {low high day day' : Int} {carries carries' : Bool}

theorem congr (h : ∀ d, low ≤ d → d ≤ high → (P d ↔ Q d)) (hP : FirstIn P low high day carries) :
    FirstIn Q low high day carries := by
  unfold FirstIn at *
  split at hP
  · rename_i hc
    rw [if_pos hc]
    exact fun d h1 h2 ↦ mt (h d h1 h2).2 (hP d h1 h2)
  · grind

theorem earlier (hP : FirstIn P low high day carries) (hQ : FirstIn Q low high day' carries') :
    FirstIn (fun d ↦ P d ∨ Q d) low high (earlier (day, carries) (day', carries'))
      (carries && carries') := by
  -- a side that carries names no day of the month, and the other side decides alone
  cases carries <;> cases carries' <;> grind [FirstIn, earlier]

end FirstIn

variable {size today wanted : Int} {S : Int → Prop}

theorem firstIn_byDay {byDay : Int} (h1 : 1 ≤ today) (h2 : today ≤ size)
    (h : Picks S (today % size + 1) byDay) :
    FirstIn S (today + 1) size byDay (decide (byDay < today + 1 ∨ size < byDay)) := by
  rcases eq_or_lt_of_le h2 with rfl | hlt
  · -- the last day of the month: the pick has started over and any answer is a carry
    rw [FirstIn, if_pos (by simp; omega)]
    intro d hd hd'
    omega
  · rw [Int.emod_eq_of_lt (by omega) hlt] at h
    by_cases hcarry : byDay < today + 1 ∨ size < byDay
    · rw [FirstIn, if_pos (by simpa using hcarry)]
      intro d hd hd' hSd
      have := h.le_of_le hSd hd
      omega
    · rw [FirstIn, if_neg (by simpa using hcarry)]
      exact ⟨by omega, by omega, h.mem, fun d hd _ hSd ↦ (h.le_of_le hSd hd).2⟩

theorem weekdayAhead_spec (hS : ∀ x, S x → 0 ≤ x ∧ x < 7) (h1 : 0 ≤ today) (h2 : today ≤ 7)
    (h : Picks S (today % 7) wanted) :
    0 ≤ weekdayAhead today wanted ∧ weekdayAhead today wanted < 7 ∧
      S ((today + weekdayAhead today wanted) % 7) ∧
      ∀ j, 0 ≤ j → j < weekdayAhead today wanted → ¬ S ((today + j) % 7) := by
  have hpick : Picks S today wanted := h.of_emod hS h1 h2
  have hw := hS wanted hpick.mem
  unfold weekdayAhead
  split
  · rename_i hlt
    refine ⟨by omega, by omega, ?_, fun j hj hj' hSj ↦ ?_⟩
    · rw [show (today + (7 - today + wanted)) % 7 = wanted by omega]
      exact hpick.mem
    · have := hpick.of_lt hlt hSj
      omega
  · rename_i hge
    refine ⟨by omega, by omega, ?_, fun j hj hj' hSj ↦ ?_⟩
    · rw [show (today + (wanted - today)) % 7 = wanted by omega]
      exact hpick.mem
    · rw [show (today + j) % 7 = today + j by omega] at hSj
      have := hpick.le_of_le hSj (by omega)
      omega

theorem firstIn_byWeekday (hS : ∀ x, S x → 0 ≤ x ∧ x < 7) {next byWeekday : Int} (h1 : 1 ≤ today)
    (h2 : today ≤ size) (hsize : 28 ≤ size) (hn : 0 ≤ next) (hn' : next ≤ 7)
    (h : Picks S (next % 7) wanted)
    (hday : byWeekday = (today + 1 + weekdayAhead next wanted - 1) % size + 1) :
    FirstIn (fun d ↦ S ((next + (d - today - 1)) % 7)) (today + 1) size byWeekday
      (decide (byWeekday < today + 1 ∨ size < byWeekday)) := by
  obtain ⟨ha, ha', hmem, hleast⟩ := weekdayAhead_spec hS hn hn' h
  generalize weekdayAhead next wanted = a at *
  rcases lt_or_ge (today + a) size with hlt | hge
  · have hb : byWeekday = today + a + 1 := by
      rw [hday, show today + 1 + a - 1 = today + a by omega, Int.emod_eq_of_lt (by omega) hlt]
    rw [FirstIn, if_neg (by simp; omega)]
    refine ⟨by omega, by omega, ?_, fun d hd hd' hSd ↦ ?_⟩
    · rwa [hb, show today + a + 1 - today - 1 = a by omega]
    · by_contra hlt'
      exact hleast (d - today - 1) (by omega) (by omega) hSd
  · have hb : byWeekday = today + a - size + 1 := by
      rw [hday, show today + 1 + a - 1 = today + a - size + size by omega, Int.add_emod_right,
        Int.emod_eq_of_lt (by omega) (by omega)]
    rw [FirstIn, if_pos (by simp; omega)]
    intro d hd hd' hSd
    exact hleast (d - today - 1) (by omega) (by omega) hSd

/-! ### The two candidates -/

theorem Cron.carries_eq {month : Nat} (year : Nat) (h1 : 1 ≤ month) (h2 : month ≤ 12)
    (tomorrow day : Int) :
    carries month year tomorrow day =
      pure (decide (day < tomorrow ∨ (monthLength year month : Int) < day)) := by
  rw [carries, daysInMonth_eq year h1 h2, pure_bind]
  split
  · rename_i h
    rw [decide_eq_true (.inl h)]
  · rename_i h
    simp [h]

namespace CronForm

variable {f : CronForm}

theorem candidates_cases {α : Type} (f : CronForm) (byDay byWeekday : α) :
    f.day ≠ .every ∧ f.weekday = .every ∧ f.cron.candidates byDay byWeekday = (byDay, byDay) ∨
      f.day = .every ∧ f.weekday ≠ .every ∧
        f.cron.candidates byDay byWeekday = (byWeekday, byWeekday) ∨
      (f.day = .every ↔ f.weekday = .every) ∧
        f.cron.candidates byDay byWeekday = (byDay, byWeekday) := by
  have hd : f.cron.day = Field.star ↔ f.day = .every := f.day.text_eq_star_iff
  have hw : f.cron.weekday = Field.star ↔ f.weekday = .every := f.weekday.text_eq_star_iff
  by_cases hday : f.day = .every <;> by_cases hweekday : f.weekday = .every
  all_goals simp [candidates, hd, hw, hday, hweekday]

theorem admitsWeekday_of_every (h : f.weekday = .every) (year month : Nat) (day : Int) :
    f.AdmitsWeekday year month day := by
  rw [AdmitsWeekday, h]
  exact ⟨by omega, by omega⟩

theorem admits_of_every (h : f.day = .every) {day : Int} (h1 : 1 ≤ day) (h2 : day ≤ 31) :
    f.day.Admits day := by
  rw [h]
  exact ⟨by omega, by omega⟩

variable {wday : Int} {month year : Nat}

theorem candidates_firstIn {low high : Int} {byDay byWeekday : Int × Bool} (hlow : 1 ≤ low)
    (hhigh : high ≤ 31) (hday : FirstIn f.day.Admits low high byDay.1 byDay.2)
    (hweekday : FirstIn (f.AdmitsWeekday year month) low high byWeekday.1 byWeekday.2) :
    FirstIn (f.TakesDay year month) low high
      (earlier (f.cron.candidates byDay byWeekday).1 (f.cron.candidates byDay byWeekday).2)
      ((f.cron.candidates byDay byWeekday).1.2 && (f.cron.candidates byDay byWeekday).2.2) := by
  rcases f.candidates_cases byDay byWeekday with ⟨hd, hw, hboth⟩ | ⟨hd, hw, hboth⟩ | ⟨hiff, hboth⟩
  · rw [hboth]
    exact (hday.earlier hday).congr fun d _ _ ↦ by simp [TakesDay, hd, hw]
  · rw [hboth]
    exact (hweekday.earlier hweekday).congr fun d _ _ ↦ by simp [TakesDay, hd, hw]
  · rw [hboth]
    refine (hday.earlier hweekday).congr fun d h1 h2 ↦ ?_
    by_cases hd : f.day = .every
    · have hw := hiff.1 hd
      exact iff_of_true (.inl (admits_of_every hd (by omega) (by omega))) (.inr (.inr ⟨hd, hw⟩))
    · have hw := mt hiff.2 hd
      simp [TakesDay, hd, hw]

/-! ### Later months -/

theorem firstIn_weekday (hm : 1 ≤ month) (hm' : month ≤ 12)
    (hwday : Picks f.weekday.Admits (((monthStart year month + 1) % 7 : Nat) : Int) wday) :
    FirstIn (f.AdmitsWeekday year month) 1 (monthLength year month)
      (1 + weekdayAhead ((monthStart year month + 1) % 7 : Nat) wday) false := by
  have hlength := monthLength_bounds year hm hm'
  obtain ⟨ha, ha', hmem, hleast⟩ := weekdayAhead_spec
    (fun x hx ↦ ⟨(f.weekday.bounds hx).1, by have := (f.weekday.bounds hx).2; omega⟩)
    (by omega) (by omega)
    (show Picks f.weekday.Admits ((((monthStart year month + 1) % 7 : Nat) : Int) % 7) wday by
      rwa [Int.emod_eq_of_lt (by omega) (by omega)])
  generalize weekdayAhead ((monthStart year month + 1) % 7 : Nat) wday = a at *
  refine ⟨by omega, by omega, ?_, fun d h1 _ hd ↦ ?_⟩
  · show f.weekday.Admits _
    rwa [show ((monthStart year month : Int) + (1 + a)) % 7 =
      ((((monthStart year month + 1) % 7 : Nat) : Int) + a) % 7 by omega]
  · by_contra hlt
    refine hleast (d - 1) (by omega) (by omega) ?_
    rwa [show ((((monthStart year month + 1) % 7 : Nat) : Int) + (d - 1)) % 7 =
      ((monthStart year month : Int) + d) % 7 by omega]

theorem candidates_laterMonth (hm : 1 ≤ month) (hm' : month ≤ 12) {firstDay : Int}
    (hday : Picks f.day.Admits 1 firstDay) (hlong : firstDay ≤ monthLength year month)
    (hwday : Picks f.weekday.Admits (((monthStart year month + 1) % 7 : Nat) : Int) wday) :
    ∃ day₁ day₂ : Int, f.cron.candidates firstDay
        (1 + weekdayAhead ((monthStart year month + 1) % 7 : Nat) wday) = (day₁, day₂) ∧
      FirstIn (f.TakesDay year month) 1 (monthLength year month)
        (if day₁ < day₂ then day₁ else day₂) false := by
  have hlength := monthLength_bounds year hm hm'
  have hbyDay : FirstIn f.day.Admits 1 (monthLength year month) firstDay false :=
    ⟨(f.day.bounds hday.mem).1, hlong, hday.mem, fun d h1 _ hd ↦ (hday.le_of_le hd h1).2⟩
  have hfirst := @candidates_firstIn f _ _ _ _ (_, _) (_, _) le_rfl (by omega) hbyDay
    (firstIn_weekday hm hm' hwday)
  generalize 1 + weekdayAhead ((monthStart year month + 1) % 7 : Nat) wday = byWeekday at *
  have hpair : f.cron.candidates (firstDay, false) (byWeekday, false) =
      (((f.cron.candidates firstDay byWeekday).1, false),
        ((f.cron.candidates firstDay byWeekday).2, false)) := by
    simp only [candidates]
    split <;> split <;> rfl
  rw [hpair] at hfirst
  exact ⟨_, _, rfl, hfirst⟩

theorem laterMonth_text (f : CronForm) (hm : 1 ≤ month) (hm' : month ≤ 12) (hy : 1 ≤ year) :
    (f.cron.laterMonth month year = pure none ∧ f.Dateless) ∨
      (∃ y m d : Nat, f.cron.laterMonth month year = pure (some ((y : Int), (m : Int), (d : Int))) ∧
        y ≤ 9999 ∧ f.month.Admits m ∧ f.Suits y m ∧ 12 * year + month < 12 * y + m ∧
        FirstIn (f.TakesDay y m) 1 (monthLength y m) d false ∧
        ∀ z k : Nat, f.month.Admits k → f.Suits z k → 12 * year + month < 12 * z + k →
          12 * y + m ≤ 12 * z + k) ∨
      9990 < year ∧ ∃ fault, f.cron.laterMonth month year = throw fault := by
  obtain ⟨firstDay, hread, hpick⟩ := f.day.atLeast_text (by decide) 1 (by decide) (by decide)
  replace hread : f.cron.day.atLeast 1 = pure firstDay := hread
  obtain ⟨hfd, -⟩ := f.day.bounds hpick.mem
  -- a month that has some day of the field is long enough for the first of them
  have hsuits : ∀ z k : Nat, f.Suits z k ↔ firstDay ≤ monthLength z k := by
    intro z k
    constructor
    · rintro ⟨d, hd, hle⟩
      have := hpick.le_of_bound hd fun y hy ↦ (f.day.bounds hy).1
      omega
    · intro hle
      refine ⟨firstDay.toNat, ?_, by omega⟩
      rw [Int.toNat_of_nonneg (by omega)]
      exact hpick.mem
  -- and such a month comes within the reach of the search
  have hreach : ∀ z k : Nat, f.month.Admits k → firstDay ≤ monthLength z k →
      ∃ y, firstDay ≤ monthLength y k ∧ 12 * year + month < 12 * y + k ∧
        12 * y + k ≤ 12 * year + month + 96 := by
    intro z k hk hle
    have hb := f.month.bounds hk
    exact exists_longMonth (z := z) hm' hm (by omega) (by omega) hle
  rcases seekMonth_text (c := f.cron) rfl firstDay 96 hm hm' with ⟨hseek, hbeyond⟩ |
    ⟨y, m, hseek, hadmits, hlong, hafter, hfirst⟩
  · refine .inl ⟨?_, fun z k d hk hd ↦ ?_⟩
    · rw [laterMonth, hread, pure_bind, hseek, pure_bind]
    · by_contra hle
      obtain ⟨y, hlong, h1, h2⟩ := hreach z k hk ((hsuits z k).1 ⟨d, hd, by omega⟩)
      have := hbeyond y k hk hlong h1
      omega
  · have hb := f.month.bounds hadmits
    have hlength := monthLength_bounds y (show 1 ≤ m by omega) (by omega)
    rcases lt_or_ge 9999 y with hy9 | hy9
    · obtain ⟨y', hlong', h1, h2⟩ := hreach y m hadmits hlong
      have := hfirst y' m hadmits hlong' h1
      obtain ⟨fault, hfault⟩ := Moment.exists_dayOf_error hy9 m 1
      refine .inr (.inr ⟨by omega, fault, ?_⟩)
      rw [laterMonth, hread, pure_bind, hseek, pure_bind]
      simp only [hfault, Reading.lift]
      rfl
    obtain ⟨wday, hwread, hwpick⟩ := f.weekday.atLeast_text (by decide)
      ((monthStart y m + 1) % 7 : Nat) (by omega) (by omega)
    replace hwread : f.cron.weekday.atLeast _ = pure wday := hwread
    obtain ⟨day₁, day₂, hcandidates, hfirstIn⟩ :=
      candidates_laterMonth (by omega) (by omega) hpick hlong hwpick
    obtain ⟨d, hd⟩ : ∃ d : Nat, (if day₁ < day₂ then day₁ else day₂) = d :=
      ⟨(if day₁ < day₂ then day₁ else day₂).toNat, by have := hfirstIn.1; omega⟩
    rw [hd] at hfirstIn
    refine .inr (.inl ⟨y, m, d, ?_, hy9, hadmits, (hsuits y m).2 hlong, hafter, hfirstIn,
      fun z k hk hsuit hlt ↦ hfirst z k hk ((hsuits z k).1 hsuit) hlt⟩)
    have hdayOf : Moment.dayOf y m 1 = .ok (monthStart y m) := by
      rw [← show Date.toDay ⟨y, m, 1⟩ = monthStart y m from Date.toDay_eq y m 1 le_rfl]
      exact Moment.dayOf_eq (d := 1) (by omega) hy9 (by omega) (by omega) le_rfl (by omega)
    rw [laterMonth, hread, pure_bind, hseek, pure_bind]
    simp only [hdayOf, Reading.lift, weekdayOfDay, pure_bind, hwread, hcandidates, hd]

/-! ### The next date -/

theorem candidates_thisMonth (f : CronForm) (now : Moment) {size tomorrow byDay byWeekday : Int}
    (hsize : size = monthLength now.year now.month) (htomorrow : tomorrow = now.dayOfMonth + 1)
    (hday : Picks f.day.Admits (now.dayOfMonth % size + 1) byDay)
    (hwday : Picks f.weekday.Admits ((now.weekday + 1) % 7) wday)
    (hbyWeekday : byWeekday = (tomorrow + weekdayAhead (now.weekday + 1) wday - 1) % size +
      1) :
    ∃ first second, f.cron.candidates (byDay, decide (byDay < tomorrow ∨ size < byDay))
        (byWeekday, decide (byWeekday < tomorrow ∨ size < byWeekday)) = (first, second) ∧
      FirstIn (f.TakesDay now.year now.month) tomorrow size (earlier first second)
        (first.2 && second.2) := by
  obtain ⟨hm, hm'⟩ := now.month_bounds
  obtain ⟨hd, hd'⟩ := now.dayOfMonth_bounds
  have hlength := monthLength_bounds now.year hm hm'
  subst htomorrow
  have hfirst : FirstIn f.day.Admits (now.dayOfMonth + 1) size byDay
      (decide (byDay < now.dayOfMonth + 1 ∨ size < byDay)) :=
    firstIn_byDay (by omega) (by omega) hday
  have hweekday (d : Int) : ((now.weekday : Int) + 1 + (d - now.dayOfMonth - 1)) % 7 =
      (monthStart now.year now.month + d) % 7 := by
    have h1 := now.weekday_eq
    have h2 := now.dayCount_eq
    omega
  have hsecond : FirstIn (f.AdmitsWeekday now.year now.month) (now.dayOfMonth + 1) size byWeekday
      (decide (byWeekday < now.dayOfMonth + 1 ∨ size < byWeekday)) := by
    refine (firstIn_byWeekday (fun x hx ↦ ?_) (by omega) (by omega) (by omega) (by omega) ?_ hwday
      hbyWeekday).congr fun d _ _ ↦ ?_
    · have := f.weekday.bounds hx
      omega
    · have := now.weekday_eq
      omega
    · rw [hweekday]
      rfl
  exact ⟨_, _, rfl, @candidates_firstIn f _ _ _ _ (_, _) (_, _) (by omega) (by omega)
    hfirst hsecond⟩

theorem laterDate_cases (now : Moment) {month : Int}
    (hmonth : Picks f.month.Admits now.month month) :
    (f.cron.laterDate now month = f.cron.laterMonth now.month now.year ∧
        ∀ d : Nat, f.month.Admits now.month → now.dayOfMonth < d →
          d ≤ monthLength now.year now.month → ¬ f.TakesDay now.year now.month d) ∨
      ∃ d : Nat, f.cron.laterDate now month =
          pure (some ((now.year : Int), (now.month : Int), (d : Int))) ∧
        f.month.Admits now.month ∧
        FirstIn (f.TakesDay now.year now.month) (now.dayOfMonth + 1)
          (monthLength now.year now.month) d false := by
  obtain ⟨hm, hm'⟩ := now.month_bounds
  obtain ⟨hd, hd'⟩ := now.dayOfMonth_bounds
  have hlength := monthLength_bounds now.year hm hm'
  have hmb := f.month.bounds hmonth.mem
  obtain ⟨k, rfl⟩ : ∃ k : Nat, month = k := ⟨month.toNat, by omega⟩
  have hemod := Int.emod_nonneg (now.dayOfMonth : Int)
    (show (monthLength now.year now.month : Int) ≠ 0 by omega)
  have hemod' := Int.emod_lt_of_pos (now.dayOfMonth : Int)
    (show (0 : Int) < monthLength now.year now.month by omega)
  obtain ⟨byDay, hdread, hdpick⟩ := f.day.atLeast_text (by decide)
    ((now.dayOfMonth : Int) % monthLength now.year now.month + 1) (by omega) (by omega)
  obtain ⟨wday, hwread, hwpick⟩ := f.weekday.atLeast_text (by decide)
    (((now.weekday : Int) + 1) % 7) (by omega) (by omega)
  replace hdread : f.cron.day.atLeast _ = pure byDay := hdread
  replace hwread : f.cron.weekday.atLeast _ = pure wday := hwread
  rw [laterDate, daysInMonth_eq _ hm hm', pure_bind, Int.add_sub_cancel, hdread,
    pure_bind, carries_eq _ (by omega) (by omega), pure_bind]
  dsimp only
  rw [hwread, pure_bind, carries_eq _ (by omega) (by omega), pure_bind]
  by_cases hk : now.month = k
  · subst hk
    obtain ⟨first, second, hcandidates, hfirst⟩ :=
      f.candidates_thisMonth now rfl rfl hdpick hwpick rfl
    rw [hcandidates]
    cases hcarry : first.2 && second.2 with
    | true =>
      rw [hcarry] at hfirst
      exact .inl ⟨by simp, fun d _ h3 h4 ↦ hfirst d (by omega) (by omega)⟩
    | false =>
      rw [hcarry] at hfirst
      obtain ⟨d, hd⟩ : ∃ d : Nat, earlier first second = d :=
        ⟨(earlier first second).toNat, by have := hfirst.1; omega⟩
      rw [hd] at hfirst
      exact .inr ⟨d, by simp [hd], hmonth.mem, hfirst⟩
  · refine .inl ⟨?_, fun d hadmits ↦ absurd (hmonth.eq_iff.2 hadmits) (by omega)⟩
    rw [if_pos]
    simp only [Bool.or_eq_true, bne_iff_ne, ne_eq]
    exact .inr (by omega)

namespace HasDate

variable {x y : Date}

theorem month_bounds (h : f.HasDate x) : 1 ≤ x.month ∧ x.month ≤ 12 := by
  have := f.month.bounds h.month
  omega

theorem toDay_eq (h : f.HasDate x) : x.toDay = monthStart x.year x.month + (x.day - 1) :=
  Date.toDay_eq x.year x.month x.day h.day_pos

theorem toDay_lt (hx : f.HasDate x) (hy : f.HasDate y)
    (h : 12 * x.year + x.month < 12 * y.year + y.month) : x.toDay < y.toDay := by
  have := monthEnd_le_monthStart hx.year_pos hx.month_bounds.2 hy.month_bounds.1 h hy.month_bounds.2
  have := hx.day_le
  have := hx.day_pos
  rw [hx.toDay_eq, hy.toDay_eq]
  omega

theorem cases_of_lt {now : Moment} (h : f.HasDate x) (hlt : now.dayCount < x.toDay) :
    12 * now.year + now.month < 12 * x.year + x.month ∨
      x.year = now.year ∧ x.month = now.month ∧ now.dayOfMonth < x.day := by
  obtain ⟨hm, hm'⟩ := now.month_bounds
  obtain ⟨hk, hk'⟩ := h.month_bounds
  have hpos := h.day_pos
  have hle := h.day_le
  rw [h.toDay_eq, now.dayCount_eq] at hlt
  rcases lt_trichotomy (12 * now.year + now.month) (12 * x.year + x.month) with hlater | heq |
    hearlier
  · exact .inl hlater
  · obtain ⟨hyear, hmonth⟩ : x.year = now.year ∧ x.month = now.month := by omega
    rw [hyear, hmonth] at hlt
    exact .inr ⟨hyear, hmonth, by omega⟩
  · have := monthEnd_le_monthStart h.year_pos hk' hm hearlier hm'
    omega

theorem toDay_le_of_firstIn {low : Int} (hx : f.HasDate x) (hy : f.HasDate y)
    (hfirst : FirstIn (f.TakesDay x.year x.month) low (monthLength x.year x.month) x.day false)
    (hle : 12 * x.year + x.month ≤ 12 * y.year + y.month)
    (hlow : y.year = x.year → y.month = x.month → low ≤ y.day) : x.toDay ≤ y.toDay := by
  rcases eq_or_lt_of_le hle with heq | hlt
  · have := hx.month_bounds
    have := hy.month_bounds
    obtain ⟨hyear, hmonth⟩ : y.year = x.year ∧ y.month = x.month := by omega
    have hle := hy.day_le
    have hday := hy.day
    rw [hyear, hmonth] at hle hday
    have := hfirst.2.2.2 y.day (hlow hyear hmonth) (by omega) hday
    rw [hx.toDay_eq, hy.toDay_eq, hyear, hmonth]
    omega
  · exact (hx.toDay_lt hy hlt).le

end HasDate

theorem laterDate_text (now : Moment) {month : Int}
    (hmonth : Picks f.month.Admits now.month month) :
    (f.cron.laterDate now month = pure none ∧ f.Dateless ∧
        ∀ z, f.HasDate z → f.Reached now z.year z.month → z.toDay ≤ now.dayCount) ∨
      (∃ x : Date, f.cron.laterDate now month =
          pure (some ((x.year : Int), (x.month : Int), (x.day : Int))) ∧
        x.year ≤ 9999 ∧ f.HasDate x ∧ f.Reached now x.year x.month ∧ now.dayCount < x.toDay ∧
        ∀ z, f.HasDate z → f.Reached now z.year z.month → now.dayCount < z.toDay →
          x.toDay ≤ z.toDay) ∨
      9990 < now.year ∧ ∃ fault, f.cron.laterDate now month = throw fault := by
  obtain ⟨hm, hm'⟩ := now.month_bounds
  obtain ⟨hy, hy9⟩ := now.year_bounds
  obtain ⟨hd, hd'⟩ := now.dayOfMonth_bounds
  rcases laterDate_cases now hmonth with ⟨hdate, hnone⟩ | ⟨d, hdate, hadmits, hfirst⟩
  · -- every later date is then in a later month, which is reached only with a day of the day field
    have hlater : ∀ z, f.HasDate z → f.Reached now z.year z.month → now.dayCount < z.toDay →
        12 * now.year + now.month < 12 * z.year + z.month ∧ f.Suits z.year z.month := by
      intro z hz hreached hlt
      rcases hz.cases_of_lt hlt with h | ⟨hzy, hzm, hzd⟩
      · exact ⟨h, hreached.resolve_left fun hsame ↦ by omega⟩
      · have := hz.month
        have hday := hz.day
        have hle := hz.day_le
        rw [hzy, hzm] at hday hle
        rw [hzm] at this
        exact absurd hday (hnone z.day this hzd hle)
    rw [hdate]
    rcases f.laterMonth_text hm hm' hy with ⟨heq, hnever⟩ |
      ⟨y, m, d, heq, hy', hadmits, hsuits, hafter, hfirst, hleast⟩ | hleft
    · refine .inl ⟨heq, hnever, fun z hz hreached ↦ ?_⟩
      by_contra hlt
      obtain ⟨-, d, hd, hle⟩ := hlater z hz hreached (by omega)
      have := hnever z.year z.month d hz.month hd
      omega
    · have hmb := f.month.bounds hadmits
      have hday : d ≤ monthLength y m := Int.ofNat_le.1 hfirst.2.1
      have hx : f.HasDate ⟨y, m, d⟩ :=
        ⟨show 1 ≤ y by omega, hadmits, Int.ofNat_le.1 hfirst.1, hday, hfirst.2.2.1⟩
      refine .inr (.inl ⟨⟨y, m, d⟩, heq, hy', hx, .inr hsuits, ?_, fun z hz hreached hlt ↦ ?_⟩)
      · have := monthEnd_le_monthStart hy hm' (by omega) hafter (by omega)
        rw [Date.toDay_eq y m d hx.day_pos, now.dayCount_eq]
        omega
      · obtain ⟨hmonths, hsuit⟩ := hlater z hz hreached hlt
        refine hx.toDay_le_of_firstIn hz hfirst (hleast z.year z.month hz.month hsuit hmonths) ?_
        have := hz.day_pos
        omega
    · exact .inr (.inr hleft)
  · have hday : d ≤ monthLength now.year now.month := Int.ofNat_le.1 hfirst.2.1
    have hafter := hfirst.1
    have hx : f.HasDate ⟨now.year, now.month, d⟩ :=
      ⟨hy, hadmits, show 1 ≤ d by omega, hday, hfirst.2.2.1⟩
    refine .inr (.inl ⟨⟨now.year, now.month, d⟩, hdate, hy9, hx, .inl ⟨rfl, rfl⟩, ?_,
      fun z hz _ hlt ↦ hx.toDay_le_of_firstIn hz hfirst ?_ ?_⟩)
    · rw [Date.toDay_eq _ _ d (by omega), now.dayCount_eq]
      omega
    · show 12 * now.year + now.month ≤ _
      rcases hz.cases_of_lt hlt with h | ⟨h1, h2, -⟩ <;> omega
    · rintro (hzy : z.year = now.year) (hzm : z.month = now.month)
      rcases hz.cases_of_lt hlt with h | ⟨-, -, h⟩ <;> omega

end CronForm

end TriggerScript.Schedule
