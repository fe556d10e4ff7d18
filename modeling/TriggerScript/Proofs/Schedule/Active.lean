import TriggerScript.Proofs.Schedule.Either
import TriggerScript.Schedule.Active

/-!
# Cron entries as triggers and as windows

As a trigger, an entry without stars takes a day for its day of the month or for its weekday. As a
window it asks each of the five fields for its number (`CronForm.active_text`). So the moment that a
trigger names lies in the window of the same text exactly if both its day and its weekday belong to
their fields (`next_cron_active_iff`), and otherwise outside (`triggered_outside_window`).
-/

namespace TriggerScript.Schedule

open Calendar Text

/-! ### The five fields -/

theorem active_go_cons {low high : Nat} (field : Form low high) (hhigh : (high : Int) < beyond)
    (n : Int) (hlow : (low : Int) ≤ n) (hn : n ≤ high) {rest : List (Field × Int)} {P : Prop}
    (hrest : ∃ hit, Cron.active.go rest = pure hit ∧ (hit = true ↔ P)) :
    ∃ hit, Cron.active.go ((field.text, n) :: rest) = pure hit ∧
      (hit = true ↔ field.Admits n ∧ P) := by
  obtain ⟨pick, hread, hpick⟩ := field.atLeast_text hhigh n hlow hn
  obtain ⟨hit, hrun, hiff⟩ := hrest
  rw [Cron.active.go, hread, pure_bind]
  -- the pick is the asked number exactly if the field admits it
  by_cases hadmits : field.Admits n
  · refine ⟨hit, ?_, ?_⟩
    · rw [if_pos (hpick.eq_iff.2 hadmits), hrun]
    · rw [hiff, and_iff_right hadmits]
  · refine ⟨false, ?_, ?_⟩
    · rw [if_neg (mt hpick.eq_iff.1 hadmits)]
    · exact iff_of_false Bool.false_ne_true fun h ↦ hadmits h.1

namespace CronForm

variable (f : CronForm) (a b c d : Gap)

theorem active_text (t : Moment) :
    ∃ hit, f.cron.active t = pure hit ∧
      (hit = true ↔ f.minute.Admits t.minuteOfHour ∧ f.hour.Admits t.hourOfDay ∧
        f.day.Admits t.dayOfMonth ∧ f.month.Admits t.month ∧ f.weekday.Admits t.weekday) := by
  have hminute := t.minuteOfHour_lt
  have hhour := t.hourOfDay_lt
  have hday := t.dayOfMonth_bounds.1
  have hday' := dayOfMonth_le t
  obtain ⟨hmonth, hmonth'⟩ := t.month_bounds
  have hweekday := t.weekday_eq
  have hend : ∃ hit, Cron.active.go [] = pure hit ∧ (hit = true ↔ True) := ⟨true, rfl, by simp⟩
  have hlast := active_go_cons f.weekday (by decide) t.weekday (by omega) (by omega) hend
  rw [and_true] at hlast
  exact active_go_cons f.minute (by decide) t.minuteOfHour (by omega) (by omega)
    (active_go_cons f.hour (by decide) t.hourOfDay (by omega) (by omega)
      (active_go_cons f.day (by decide) t.dayOfMonth (by omega) (by omega)
        (active_go_cons f.month (by decide) t.month (by omega) (by omega) hlast)))

/-! ### The written entry -/

theorem toList_written : ∃ inner, (f.written a b c d).toList = 'c' :: (inner ++ [')']) := by
  have hword : "cron(".toList = 'c' :: ['r', 'o', 'n', '('] := by decide
  unfold written Cron.written
  refine ⟨['r', 'o', 'n', '('] ++ (f.minute.text ++ (a.blanks ++ (f.hour.text ++ (b.blanks ++
    (f.day.text ++ (c.blanks ++ (f.month.text ++ (d.blanks ++ f.weekday.text)))))))), ?_⟩
  simp only [cron, String.toList_ofList, hword, List.append_assoc, List.cons_append]

theorem strip_written : strip (f.written a b c d).toList = (f.written a b c d).toList := by
  obtain ⟨inner, hinner⟩ := f.toList_written a b c d
  have hfront : dropBlanks ('c' :: (inner ++ [')'])) = 'c' :: (inner ++ [')']) :=
    List.dropWhile_cons_of_neg (by decide)
  have hback : dropBlanks ('c' :: (inner ++ [')'])).reverse =
      ('c' :: (inner ++ [')'])).reverse := by
    rw [← List.cons_append, List.reverse_append]
    exact List.dropWhile_cons_of_neg (by decide)
  rw [hinner, strip, hfront, hback, List.reverse_reverse]

theorem readWindow_written : readWindow (f.written a b c d) = (false, .cron f.cron) := by
  obtain ⟨inner, hinner⟩ := f.toList_written a b c d
  have hword : "not".toList = ['n', 'o', 't'] := by decide
  have hnot : after? "not".toList (f.written a b c d).toList = none := by
    rw [hinner, hword, after?, if_neg (by decide)]
  rw [readWindow, f.strip_written a b c d]
  simp only [hnot]
  rw [Window.ofText, written, Cron.sole?_written a b c d f.legible]

theorem active_written (sun : Sun) (f : CronForm) (a b c d : Gap) {t : Moment} {hit : Bool}
    (h : f.cron.active t = pure hit) : active sun [.text (f.written a b c d)] t = pure hit := by
  have htally : Tally.addAll sun t {} [.text (f.written a b c d)] =
      pure { positive := true, inside := hit } := by
    rw [Tally.addAll, f.readWindow_written a b c d]
    show (f.cron.active t >>= fun hit ↦ Tally.addAll sun t _ []) = _
    rw [h, pure_bind]
    rfl
  rw [active, htally, pure_bind]
  simp

theorem takes_of_next_written {sun : Sun} {f : CronForm} {a b c d : Gap} {now t : Moment}
    {log : List String}
    (h : ((next sun [.text (f.written a b c d)] now).run.run log).run.1 = .ok (some t)) :
    f.Takes t := by
  rcases f.next_takes now with ⟨hrun, -, -⟩ | ⟨u, hrun, htakes, -, hlt, -⟩ | ⟨-, fault, hrun⟩
  · rw [f.next_written sun a b c d hrun (by rintro t ⟨⟩)] at h
    cases h
  · have hlater : ∀ v, some u = some v → now < v := by
      rintro v ⟨rfl⟩
      exact hlt
    rw [f.next_written sun a b c d hrun hlater] at h
    cases h
    exact htakes
  · have hentry : nextOfEntry sun now none (f.written a b c d) = throw fault := by
      rw [nextOfEntry, f.ofText_written a b c d]
      simp only [hrun]
      rfl
    rw [next, nextFrom, hentry] at h
    cases h

end CronForm

/-- **The trigger and the window of a cron entry.** Of the moment that the entry names after `now`,
the day or the weekday belongs to its field, and it lies in the window exactly if both do. With a
star it does. -/
theorem next_cron_active_iff (sun : Sun) (f : CronForm) (a b c d : Gap) {now t : Moment}
    {log : List String}
    (hnext : ((next sun [.text (f.written a b c d)] now).run.run log).run.1 = .ok (some t)) :
    ∃ hit, active sun [.text (f.written a b c d)] t = pure hit ∧
      (f.day.Admits t.dayOfMonth ∨ f.weekday.Admits t.weekday) ∧
      (hit = true ↔ f.day.Admits t.dayOfMonth ∧ f.weekday.Admits t.weekday) ∧
      (f.day = .every ∨ f.weekday = .every → hit = true) := by
  have htakes := CronForm.takes_of_next_written hnext
  obtain ⟨hmonth, hday⟩ := (CronForm.hasDate_iff t).1 htakes.date
  obtain ⟨hit, hrun, hiff⟩ := f.active_text t
  have hboth : hit = true ↔ f.day.Admits t.dayOfMonth ∧ f.weekday.Admits t.weekday := by
    rw [hiff]
    exact ⟨fun h ↦ ⟨h.2.2.1, h.2.2.2.2⟩, fun h ↦ ⟨htakes.minute, htakes.hour, h.1, hmonth, h.2⟩⟩
  refine ⟨hit, f.active_written sun a b c d hrun, ?_, hboth, fun hstar ↦ ?_⟩
  · by_cases hstar : f.day = .every ∨ f.weekday = .every
    · exact .inl ((CronForm.takesDay_iff_of_star hstar t).1 hday).1
    · rw [not_or] at hstar
      exact ((CronForm.takes_iff_admitsEither hstar.1 hstar.2 t).1 htakes).either
  · exact hboth.2 ((CronForm.takesDay_iff_of_star hstar t).1 hday)

def fridaysAndThirteenth : CronForm :=
  { mondaysAndLast with
    day := .listed (.number (figure "13".toList (by decide))) []
    weekday := .listed (.number (figure "5".toList (by decide))) [] }

def novemberThursday : Moment := ⟨63740736000000000, by decide⟩

def fridayThirteenth : Moment := ⟨63740822400000000, by decide⟩

def fridayTwentieth : Moment := ⟨63741427200000000, by decide⟩

theorem next_cron_active_iff_fridays :
    fridaysAndThirteenth.written .space .space .space .space = "cron(0 0 13 * 5)" ∧
    ((next {} [.text (fridaysAndThirteenth.written .space .space .space .space)]
      novemberThursday).run.run []).run.1 = .ok (some fridayThirteenth) ∧
    ∃ hit, active {} [.text (fridaysAndThirteenth.written .space .space .space .space)]
        fridayThirteenth = pure hit ∧
      (fridaysAndThirteenth.day.Admits fridayThirteenth.dayOfMonth ∨
        fridaysAndThirteenth.weekday.Admits fridayThirteenth.weekday) ∧
      (hit = true ↔ fridaysAndThirteenth.day.Admits fridayThirteenth.dayOfMonth ∧
        fridaysAndThirteenth.weekday.Admits fridayThirteenth.weekday) ∧
      (fridaysAndThirteenth.day = .every ∨ fridaysAndThirteenth.weekday = .every → hit = true) := by
  have hnext : ((next {} [.text (fridaysAndThirteenth.written .space .space .space .space)]
      novemberThursday).run.run []).run.1 = .ok (some fridayThirteenth) := by decide
  exact ⟨by decide, hnext,
    next_cron_active_iff {} fridaysAndThirteenth .space .space .space .space hnext⟩

/-- The Friday after a Friday the 13th is named by the trigger and is outside the window. -/
theorem triggered_outside_window :
    ((next {} [.text "cron(0 0 13 * 5)"] fridayThirteenth).run.run []).run =
        (.ok (some fridayTwentieth), []) ∧
      ((active {} [.text "cron(0 0 13 * 5)"] fridayTwentieth).run.run []).run =
        (.ok false, []) := by
  decide

end TriggerScript.Schedule
