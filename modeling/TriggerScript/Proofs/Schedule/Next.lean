import Mathlib.Data.List.Basic
import TriggerScript.Proofs.Schedule.Cron
import TriggerScript.Schedule.Next

/-!
# A specification with one cron entry

The text `cron(..)` with five written fields and blanks between them is read back as these fields
(`CronForm.ofText_written`), whatever blanks they are. With the picks of the fields this says what
the next moment of such a specification is: the first moment after `now` that the entry admits
(`next_cron_isLeast`).
-/

namespace TriggerScript.Schedule

open Calendar Text

/-! ### Words and gaps -/

/-- What stands between fields. -/
structure Gap where
  blanks : List Char
  ne_nil : blanks ≠ []
  isBlank_of_mem : ∀ c ∈ blanks, isBlank c = true

def Gap.space : Gap := ⟨[' '], by decide, List.all_eq_true.1 rfl⟩

/-- A word: not empty, and without a blank. -/
structure Solid (cs : List Char) : Prop where
  ne_nil : cs ≠ []
  isBlank_of_mem : ∀ c ∈ cs, isBlank c = false

theorem Form.solid_text {low high : Nat} (f : Form low high) : Solid f.text := by
  cases f with
  | every =>
    show Solid Field.star
    exact ⟨by decide, List.forall_mem_singleton.2 rfl⟩
  | listed first rest =>
    refine ⟨?_, fun c hc ↦ ?_⟩
    · cases rest with
      | nil => exact first.text_ne_nil
      | cons j rest => simp [text, listText]
    · by_contra hblank
      rw [Bool.not_eq_false] at hblank
      refine ne_of_mem_listText hc (not_isDigit_of_isBlank hblank) ?_ ?_ rfl
      all_goals rintro rfl; exact absurd hblank (by decide)

theorem scanSolid_gap {word : List Char} (h : Solid word) (g : Gap) (rest : List Char) :
    scanSolid (word ++ (g.blanks ++ rest)) = some (word, g.blanks ++ rest) := by
  have hsolid : ∀ c ∈ word, (! isBlank c) = true := fun c hc ↦ by simp [h.isBlank_of_mem c hc]
  obtain ⟨blanks, hne, hblank⟩ := g
  obtain ⟨c, blanks, rfl⟩ := List.exists_cons_of_ne_nil hne
  have hc : isBlank c = true := hblank c (by simp)
  simp [scanSolid, List.takeWhile_append_of_pos hsolid, List.dropWhile_append_of_pos hsolid, hc,
    h.ne_nil]

theorem scanSolid_end {word : List Char} (h : Solid word) : scanSolid word = some (word, []) := by
  have hsolid : ∀ c ∈ word, (! isBlank c) = true := fun c hc ↦ by simp [h.isBlank_of_mem c hc]
  rw [scanSolid, List.takeWhile_eq_self_iff.2 hsolid, List.dropWhile_eq_nil_iff.2 hsolid,
    if_neg (by simpa using h.ne_nil)]

theorem scanBlanks_gap (g : Gap) {word : List Char} (h : Solid word) (rest : List Char) :
    scanBlanks (g.blanks ++ (word ++ rest)) = some (word ++ rest) := by
  obtain ⟨blanks, hne, hblank⟩ := g
  obtain ⟨d, word, rfl⟩ := List.exists_cons_of_ne_nil h.ne_nil
  obtain ⟨c, blanks, rfl⟩ := List.exists_cons_of_ne_nil hne
  have hd : isBlank d = false := h.isBlank_of_mem d (by simp)
  have hc : isBlank c = true := hblank c (by simp)
  rw [List.cons_append, scanBlanks, if_pos hc, dropBlanks, ← List.cons_append,
    List.dropWhile_append_of_pos hblank]
  simp [hd]

theorem after?_eq_some_iff {start cs rest : List Char} : after? start cs = some rest ↔
    cs = start ++ rest := by
  induction start generalizing cs with
  | nil => simp [after?, eq_comm]
  | cons p start ih =>
    cases cs with
    | nil => simp [after?]
    | cons c cs => grind [after?]

theorem after?_append (start rest : List Char) : after? start (start ++ rest) = some rest :=
  after?_eq_some_iff.2 rfl

theorem after?_of_not_mem {start cs : List Char} {c : Char} (hc : c ∈ start) (h : c ∉ cs) :
    after? start cs = none := by
  rw [Option.eq_none_iff_forall_ne_some]
  rintro rest hrest
  rw [after?_eq_some_iff.1 hrest, List.mem_append, not_or] at h
  exact h.1 hc

theorem after?_of_opening {name word cs suffix : List Char} (hs : suffix <:+ word ++ '(' :: cs)
    (hword : '(' ∉ word) (hcs : '(' ∉ cs) (hname : ¬ name <:+ word) :
    after? (name ++ ['(']) suffix = none := by
  rw [Option.eq_none_iff_forall_ne_some]
  intro rest hrest
  obtain ⟨front, hfront⟩ := hs
  rw [after?_eq_some_iff.1 hrest, List.append_assoc, ← List.append_assoc] at hfront
  exact hname ⟨front, ((List.append_cons_inj_of_notMem hword hcs).1 hfront.symm).1.symm⟩

theorem cutAtLast?_append_singleton (sep : Char) (cs : List Char) :
    cutAtLast? sep (cs ++ [sep]) = some (cs, []) := by
  induction cs with
  | nil => simp [cutAtLast?]
  | cons c cs ih => rw [List.cons_append, cutAtLast?, ih]

/-! ### The written entry -/

/-- An entry whose fields are words. -/
structure Cron.Legible (k : Cron) : Prop where
  minute : Solid k.minute
  hour : Solid k.hour
  day : Solid k.day
  month : Solid k.month
  weekday : Solid k.weekday

namespace Cron

variable {k : Cron} (a b c d : Gap)

def written (k : Cron) : String :=
  String.ofList ("cron(".toList ++ (k.minute ++ (a.blanks ++ (k.hour ++ (b.blanks ++ (k.day ++
    (c.blanks ++ (k.month ++ (d.blanks ++ (k.weekday ++ [')']))))))))))

theorem scanCron_written (h : k.Legible) : scanCron (k.written a b c d).toList = some (k, []) := by
  have hlast : Solid (k.weekday ++ [')']) := by
    refine ⟨by simp, fun e he ↦ ?_⟩
    rcases List.mem_append.1 he with he | he
    · exact h.weekday.isBlank_of_mem e he
    · rw [List.mem_singleton.1 he]
      decide
  have hclose := scanBlanks_gap d hlast []
  rw [List.append_nil] at hclose
  unfold written scanCron
  simp only [String.toList_ofList, after?_append, Option.bind_eq_bind, Option.bind_some,
    scanSolid_gap h.minute, scanBlanks_gap a h.hour, scanSolid_gap h.hour, scanBlanks_gap b h.day,
    scanSolid_gap h.day, scanBlanks_gap c h.month, scanSolid_gap h.month, hclose,
      scanSolid_end hlast,
    cutAtLast?_append_singleton]
  rw [if_neg (by simpa using h.weekday.ne_nil)]
  rfl

theorem sole?_written (h : k.Legible) : sole? scanCron (k.written a b c d).toList = some k := by
  rw [sole?, occurrences.eq_def]
  simp only [scanCron_written a b c d h]
  cases (k.written a b c d).toList.length <;> rfl

theorem ofText_written (h : k.Legible) : Entry.ofText (k.written a b c d) = .cron k := by
  rw [Entry.ofText, sole?_written a b c d h]

end Cron

namespace CronForm

def written (f : CronForm) (a b c d : Gap) : String := f.cron.written a b c d

theorem legible (f : CronForm) : f.cron.Legible :=
  ⟨f.minute.solid_text, f.hour.solid_text, f.day.solid_text, f.month.solid_text,
    f.weekday.solid_text⟩

theorem ofText_written (f : CronForm) (a b c d : Gap) :
    Entry.ofText (f.written a b c d) = .cron f.cron :=
  Cron.ofText_written a b c d f.legible

theorem next_written (sun : Sun) (f : CronForm) (a b c d : Gap) {now : Moment}
    {answer : Option Moment} (h : f.cron.next now = pure answer)
    (hlater : ∀ t, answer = some t → now < t) :
    next sun [.text (f.written a b c d)] now = pure answer := by
  have hentry : nextOfEntry sun now none (f.written a b c d) = pure answer := by
    rw [nextOfEntry, f.ofText_written a b c d]
    simp only [h, pure_bind]
    cases answer with
    | none => rfl
    | some t => simp only [sooner_of_lt (hlater t rfl)]
  rw [next, nextFrom, hentry, pure_bind, nextFrom]

theorem Dateless.not_admits {f : CronForm} (h : f.Dateless) (t : Moment) : ¬ f.Admits t := by
  intro ht
  have := h t.year t.month t.dayOfMonth ht.month ht.day
  have := t.dayOfMonth_bounds.2
  omega

end CronForm

/-- **The next moment of a cron specification** with a star for its day or its weekday, and numbers
of at most `Number.digitLimit` digits, is given exactly when the entry admits one after `now`, and
then it is the first of them. Otherwise no month of the entry ever has one of its days. -/
theorem next_cron_isLeast (sun : Sun) (f : CronForm) (a b c d : Gap)
    (hstar : f.day = .every ∨ f.weekday = .every) (now : Moment) (hyear : now.year ≤ 9990) :
    ∃ answer, next sun [.text (f.written a b c d)] now = pure answer ∧
      (∀ t, answer = some t → IsLeast {t | now < t ∧ f.Admits t} t) ∧
      (answer = none ↔ ∀ t, now < t → ¬ f.Admits t) ∧ (answer = none ↔ f.Dateless) := by
  rcases CronForm.next_text hstar now hyear with ⟨hrun, hnever⟩ | ⟨t, hrun, ht, hlt, hleast⟩
  · refine ⟨none, f.next_written sun a b c d hrun ?_, ?_, ?_, ?_⟩
    · rintro t ⟨⟩
    · rintro t ⟨⟩
    · exact iff_of_true rfl fun t _ ↦ hnever.not_admits t
    · exact iff_of_true rfl hnever
  · refine ⟨some t, f.next_written sun a b c d hrun ?_, ?_, ?_, ?_⟩
    · rintro _ ⟨rfl⟩
      exact hlt
    · rintro _ ⟨rfl⟩
      exact ⟨⟨hlt, ht⟩, fun u hu ↦ hleast u hu.2 hu.1⟩
    · exact iff_of_false (Option.some_ne_none t) fun h ↦ h t hlt ht
    · exact iff_of_false (Option.some_ne_none t) fun h ↦ h.not_admits t ht

def figure {low high : Nat} (digits : List Char)
    (h : (digits ≠ [] ∧ digits.all isDigit = true ∧ digits.length ≤ Number.digitLimit) ∧
      low ≤ (Number.Numeral.mk digits).value ∧ (Number.Numeral.mk digits).value ≤ high) :
    Figure low high :=
  ⟨⟨digits⟩, h.1.1, List.all_eq_true.1 h.1.2.1, h.1.2.2, h.2.1, h.2.2⟩

def leapDays : CronForm where
  minute := .listed (.number (figure ['0'] (by decide))) []
  hour := .listed (.number (figure ['1', '2'] (by decide))) [.number (figure ['0'] (by decide))]
  day := .listed (.range (figure ['2', '9'] (by decide)) (figure ['3', '1'] (by decide))
    (by decide)) []
  month := .listed (.number (figure ['2'] (by decide))) []
  weekday := .every

def leapDayEnd : Moment := ⟨66116995199000001, by decide⟩

theorem next_cron_isLeast_leapDays :
    leapDays.written .space .space .space .space = "cron(0 12,0 29-31 2 *)" ∧
    (leapDays.day = .every ∨ leapDays.weekday = .every) ∧ leapDayEnd.year ≤ 9990 ∧
    ∃ answer, next {} [.text (leapDays.written .space .space .space .space)] leapDayEnd =
        pure answer ∧
      (∀ t, answer = some t → IsLeast {t | leapDayEnd < t ∧ leapDays.Admits t} t) ∧
      (answer = none ↔ ∀ t, leapDayEnd < t → ¬ leapDays.Admits t) ∧
      (answer = none ↔ leapDays.Dateless) :=
  ⟨by decide, .inr rfl, by decide, next_cron_isLeast {} leapDays .space .space .space .space
    (.inr rfl) leapDayEnd (by decide)⟩

def longFive : Number.Numeral := ⟨List.replicate 4301 '0' ++ ['5']⟩

def longMinute : Cron := ⟨longFive.digits, Field.star, Field.star, Field.star, Field.star⟩

/-- **Five past each hour is refused** if the five is written with too many zeros in front. -/
theorem next_long_minute : (∀ c ∈ longFive.digits, isDigit c = true) ∧ longFive.value = 5 ∧
    ∀ answer,
    next {} [.text (longMinute.written .space .space .space .space)] leapDayEnd ≠ pure answer := by
  have hdigit : ∀ c ∈ longFive.digits, isDigit c = true := by
    intro c hc
    rcases List.mem_append.1 hc with hc | hc
    · exact List.eq_of_mem_replicate hc ▸ by decide
    · exact List.mem_singleton.1 hc ▸ by decide
  have hsolid : Solid longFive.digits := by
    refine ⟨List.append_ne_nil_of_right_ne_nil _ (List.cons_ne_nil _ _), fun c hc ↦ ?_⟩
    by_contra hblank
    have hnot := not_isDigit_of_isBlank (Bool.not_eq_false _ ▸ hblank)
    rw [hdigit c hc] at hnot
    cases hnot
  have hstar : Solid Field.star := ⟨by decide, List.forall_mem_singleton.2 rfl⟩
  refine ⟨hdigit, by decide +kernel, fun answer h ↦ ?_⟩
  have hentry := Cron.ofText_written .space .space .space .space
    (show longMinute.Legible from ⟨hsolid, hstar, hstar, hstar, hstar⟩)
  rw [next, nextFrom, nextOfEntry, hentry] at h
  simp only [Cron.next, longMinute, atLeast_of_digitLimit_lt hdigit (by decide +kernel)] at h
  cases congrFun h []

end TriggerScript.Schedule
