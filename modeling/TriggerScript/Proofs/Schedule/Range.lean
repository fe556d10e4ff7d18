import TriggerScript.Proofs.Schedule.Once
import TriggerScript.Schedule.Active

/-!
# Ranges of moments

The window of `range(..)` is read off two texts on one line. The first is seen from `now`, and the
second from the moment that the first names (`Enclosed.active_rangeText`). Two times of day lie on
the day of `now`, so the window is the way round the clock from the first to the second; two full
dates do not depend on `now` at all (`active_range_iff`).
-/

namespace TriggerScript.Schedule

open Calendar Text

/-! ### The written entry -/

def rangeText (start stop : List Char) : String :=
  String.ofList ("range(".toList ++ (start ++ ',' :: (' ' :: stop ++ [')'])))

theorem toList_rangeText (start stop : List Char) :
    (rangeText start stop).toList = "range(".toList ++
    (start ++ ',' :: (' ' :: stop ++ [')'])) := by
  unfold rangeText
  exact String.toList_ofList

theorem active_of_readWindow {text : String} {w : Window} (h : readWindow text = (false, w))
    (sun : Sun) (now : Moment) : active sun [.text text] now = w.contains sun now := by
  rw [active, Tally.addAll, h]
  show ((w.contains sun now >>= fun hit ↦ Tally.addAll sun now _ []) >>= _) = _
  simp [Tally.addAll]

namespace Enclosed

variable {start stop : List Char} (hcomma : ',' ∉ start) (hstop : Enclosed stop)

include hcomma hstop

theorem scanRange_rangeText :
    scanRange (rangeText start stop).toList = some ((start, ' ' :: stop), []) := by
  have hline : ∀ c ∈ ' ' :: stop ++ [')'], decide (c ≠ '\n') = true := by
    grind [hstop.lineFeed_not_mem]
  unfold scanRange scanToLineClose cutLine
  simp only [toList_rangeText, after?_append, Option.bind_eq_bind, Option.bind_some,
    cutAt?_append hcomma,
    List.takeWhile_eq_self_iff.2 hline, List.dropWhile_eq_nil_iff.2 hline,
      cutAtLast?_append_singleton,
    Option.map_some, List.append_nil]

variable (hstart : Enclosed start)

include hstart

theorem readWindow_rangeText :
    readWindow (rangeText start stop) =
      (false, .range (String.ofList start) (String.ofList stop)) := by
  have hword : "range(".toList = ['r', 'a', 'n', 'g', 'e', '('] := by decide
  have hstrip : strip (rangeText start stop).toList = (rangeText start stop).toList := by
    refine strip_of_ends (fun c hc ↦ ?_) fun c hc ↦ ?_
    · rw [toList_rangeText, hword] at hc
      cases hc
      decide
    · rw [toList_rangeText, ← List.cons_append, ← List.append_assoc, ← List.append_assoc,
        List.getLast?_concat] at hc
      cases hc
      decide
  have hnot : after? "not".toList (rangeText start stop).toList = none := by
    rw [toList_rangeText, hword]
    rfl
  have htrimmed : trimmed (' ' :: stop) = String.ofList stop := by
    have hspace : strip (' ' :: stop) = strip stop := rfl
    rw [trimmed, hspace, hstop.strip_eq]
  have hcron : sole? scanCron (rangeText start stop).toList = none := by
    rw [toList_rangeText]
    exact @sole?_scanCron_of_opening "range".toList _ (by decide)
      (by simpa using ⟨hstart.parenthesis_not_mem, hstop.parenthesis_not_mem⟩) (by decide)
  unfold readWindow Window.ofText
  simp only [hstrip, hnot, hcron, sole?_of_scan (scanRange_rangeText hcomma hstop) rfl, htrimmed]
  rw [trimmed, hstart.strip_eq]

theorem active_rangeText (sun : Sun) (now : Moment) :
    active sun [.text (rangeText start stop)] now = (do
    let a ← DateTime.moment sun (.whole 0) now (String.ofList start)
    let b ← DateTime.moment sun (.whole 0) a (String.ofList stop)
    if a < b then pure (a ≤ now && now ≤ b) else pure (a ≤ now || now ≤ b)) :=
  active_of_readWindow (readWindow_rangeText hcomma hstop hstart) sun now

theorem active_of_moments {sun : Sun} {now a b : Moment}
    (ha : DateTime.moment sun (.whole 0) now (String.ofList start) = pure a)
    (hb : DateTime.moment sun (.whole 0) a (String.ofList stop) = pure b) :
    active sun [.text (rangeText start stop)] now =
      pure (if a < b then a ≤ now && now ≤ b else a ≤ now || now ≤ b) := by
  rw [active_rangeText hcomma hstop hstart, ha, pure_bind, hb, pure_bind]
  split <;> rfl

end Enclosed

/-! ### Times of day and full dates -/

/-- Around the clock from `start` to `stop`, one meets `t`. -/
def Clockwise (start stop t : Nat) : Prop :=
  ∃ passed ≤ (if start < stop then stop - start else stop + day - start), t = (start + passed) % day

theorem clockwise_iff {start stop t : Nat} (hstart : start < day)
    (hstop : stop < day) (ht : t < day) :
    Clockwise start stop t ↔ if start < stop then start ≤ t ∧ t ≤ stop
      else start ≤ t ∨ t ≤ stop := by
  unfold Clockwise
  simp only [day_eq] at *
  split
  · constructor
    · rintro ⟨passed, hle, rfl⟩
      omega
    · intro h
      exact ⟨t - start, by omega, by omega⟩
  · constructor
    · rintro ⟨passed, hle, rfl⟩
      omega
    · rintro (h | h)
      · exact ⟨t - start, by omega, by omega⟩
      · exact ⟨t + 86400000000 - start, by omega, by omega⟩

/-- The moment `t`, written with its year and time of day. -/
structure FullStamp (t : Moment) where
  year : Padded 1 9999 × DateMark
  month : Padded 1 12
  mark : DateMark
  day : Padded 1 31
  time : SpacedTime
  date_eq : t.date = ⟨year.1.value, month.value, day.value⟩
  timeOfDay_eq : t.timeOfDay = time.time.micros

namespace FullStamp

variable {t : Moment} (f : FullStamp t)

def stamp : StampForm := ⟨.date ⟨some f.year, f.month, f.mark, f.day⟩, some f.time⟩

theorem moment_text (sun : Sun) (shift : Days) (now : Moment) :
    DateTime.moment sun shift now (String.ofList f.stamp.text) = pure t := by
  have hvalid : f.stamp.day.Exists now := by
    have hdate := t.valid_date
    rw [f.date_eq] at hdate
    exact hdate
  have hday : f.stamp.day.dayFrom now = t.dayCount := by
    rw [← t.toDay_date, f.date_eq]
    rfl
  have hmicros : f.stamp.micros = t.timeOfDay := by
    rw [stamp, StampForm.micros, Option.elim_some, f.timeOfDay_eq]
  have hticks : f.stamp.ticks now = t.ticks := by
    rw [StampForm.ticks, hday, hmicros, ← Int.natCast_mul, ← Int.natCast_add, ← t.ticks_eq_dayCount]
  rw [f.stamp.moment_text sun shift hvalid, hticks, t.reach_ticks, Reading.lift_ok]

end FullStamp

theorem comma_not_mem_stamp (f : StampForm) : ',' ∉ f.text :=
  f.not_mem_text (by decide) (by rintro ⟨⟩ <;> decide) (by decide) (by decide) (by decide)

/-- **The moments of a range** of two times of day are those whose time of day lies on the way round
the clock from the first to the second, and of two full dates in order those between them. The ends
belong to the range. -/
theorem active_range_iff (sun : Sun) (now : Moment) :
    (∀ s e : TimeForm, ∃ hit, active sun [.text (rangeText s.text e.text)] now = pure hit ∧
      (hit = true ↔ Clockwise s.micros e.micros now.timeOfDay) ∧
      (hit = true ↔ if s.micros < e.micros then s.micros ≤ now.timeOfDay ∧ now.timeOfDay ≤ e.micros
        else s.micros ≤ now.timeOfDay ∨ now.timeOfDay ≤ e.micros)) ∧
    ∀ {a b : Moment} (f : FullStamp a) (g : FullStamp b), a < b →
      ∃ hit, active sun [.text (rangeText f.stamp.text g.stamp.text)] now = pure hit ∧
        (hit = true ↔ a ≤ now ∧ now ≤ b) := by
  refine ⟨fun s e ↦ ?_, fun {a b} f g hlt ↦ ?_⟩
  · have hcomma : ',' ∉ s.text := s.not_mem_text (by decide) (by decide)
    obtain ⟨a, ha, haday, hatime⟩ := s.exists_moment_text sun 0 (by decide) now.dayCount_lt
    obtain ⟨b, hb, hbday, hbtime⟩ := e.exists_moment_text sun 0 (by decide) a.dayCount_lt
    have hday : b.dayCount = now.dayCount := hbday.trans haday
    have hnow := now.ticks_eq_dayCount
    have haticks := a.ticks_eq_dayCount
    have hbticks := b.ticks_eq_dayCount
    rw [haday, Nat.add_zero, hatime] at haticks
    rw [hday, hbtime] at hbticks
    have hiff := clockwise_iff s.micros_lt e.micros_lt now.timeOfDay_lt
    have hlt : a < b ↔ s.micros < e.micros := by
      show a.ticks < b.ticks ↔ _
      omega
    have hle : a ≤ now ↔ s.micros ≤ now.timeOfDay := by
      show a.ticks ≤ now.ticks ↔ _
      omega
    have hge : now ≤ b ↔ now.timeOfDay ≤ e.micros := by
      show now.ticks ≤ b.ticks ↔ _
      omega
    refine ⟨_, Enclosed.active_of_moments hcomma e.enclosed_text s.enclosed_text ha hb, ?_⟩
    rw [hiff, and_self]
    split <;> simp_all
  · refine ⟨_, Enclosed.active_of_moments (comma_not_mem_stamp f.stamp) g.stamp.enclosed_text
      f.stamp.enclosed_text (f.moment_text sun _ now) (g.moment_text sun _ a), ?_⟩
    simp [hlt]

def nineAtNight : TimeForm := ⟨⟨0, figure ['2', '1'] (by decide)⟩, noon.minute, none⟩

def leapNoon : Moment := ⟨66116952000000000, by decide⟩

def leapNight : Moment := ⟨66116984400000000, by decide⟩

def leapNoonStamp : FullStamp leapNoon where
  year := (⟨0, figure ['2', '0', '9', '6'] (by decide)⟩, .slash)
  month := leapDay.month
  mark := .dash
  day := leapDay.day
  time := atNoon
  date_eq := by decide
  timeOfDay_eq := by decide

def leapNightStamp : FullStamp leapNight where
  year := leapNoonStamp.year
  month := leapDay.month
  mark := .slash
  day := leapDay.day
  time := ⟨1, nineAtNight⟩
  date_eq := by decide
  timeOfDay_eq := by decide

theorem active_range_iff_leapDay :
    rangeText nineAtNight.text noon.text = "range(21:00, 12:00)" ∧
    (∃ hit, active {} [.text (rangeText nineAtNight.text noon.text)] leapDayEnd = pure hit ∧
      (hit = true ↔ Clockwise nineAtNight.micros noon.micros leapDayEnd.timeOfDay) ∧
      (hit = true ↔ if nineAtNight.micros < noon.micros
        then nineAtNight.micros ≤ leapDayEnd.timeOfDay ∧ leapDayEnd.timeOfDay ≤ noon.micros
        else nineAtNight.micros ≤ leapDayEnd.timeOfDay ∨ leapDayEnd.timeOfDay ≤ noon.micros)) ∧
    rangeText leapNoonStamp.stamp.text leapNightStamp.stamp.text =
      "range(2096/02-0029 12:00, 2096/02/0029  21:00)" ∧ leapNoon < leapNight ∧
    ∃ hit, active {}
        [.text (rangeText leapNoonStamp.stamp.text leapNightStamp.stamp.text)] leapDayEnd =
        pure hit ∧ (hit = true ↔ leapNoon ≤ leapDayEnd ∧ leapDayEnd ≤ leapNight) :=
  ⟨by decide, (active_range_iff {} leapDayEnd).1 nineAtNight noon, by decide, by decide,
    (active_range_iff {} leapDayEnd).2 leapNoonStamp leapNightStamp (by decide)⟩

end TriggerScript.Schedule
