import TriggerScript.Proofs.Schedule.TimeOfDay

/-!
# Named days in date-time texts

The reader finds the parts of a text again (`TimedForm.ofText_append`, `StampForm.ofText_text`). A
date names the day with these numbers, in the year of `now` if it has no year (`moment_of_date`),
and a weekday the first such day from that of `now` on (`moment_of_weekday`).
-/

namespace TriggerScript.Schedule

open Calendar Text
open DateTime
open Number (Numeral)

/-! ### What follows a space -/

section Space

variable {p : Char → Bool} (h : p ' ' = false) (cs rest : List Char)

include h

theorem takeWhile_append_space : (cs ++ ' ' :: rest).takeWhile p = cs.takeWhile p := by
  induction cs with
  | nil => simp [h]
  | cons c cs ih => grind [List.takeWhile_cons]

theorem dropWhile_append_space :
    (cs ++ ' ' :: rest).dropWhile p = cs.dropWhile p ++ ' ' :: rest := by
  induction cs with
  | nil => simp [h]
  | cons c cs ih => grind [List.dropWhile_cons]

end Space

namespace DateTime

variable (cs rest : List Char)

theorem digits?_append_space :
    digits? (cs ++ ' ' :: rest) = (digits? cs).map fun r ↦ (r.1, r.2 ++ ' ' :: rest) := by
  have hspace : isDigit ' ' = false := by decide
  unfold digits?
  simp only [takeWhile_append_space hspace, dropWhile_append_space hspace]
  split <;> rfl

theorem dateMark?_append_space :
    dateMark? (cs ++ ' ' :: rest) = (dateMark? cs).map (· ++ ' ' :: rest) := by
  cases cs with
  | nil => rfl
  | cons c cs =>
    by_cases hdash : c = '-'
    · subst hdash
      rfl
    by_cases hslash : c = '/'
    · subst hslash
      rfl
    have hnone (cs : List Char) : dateMark? (c :: cs) = none := by
      unfold dateMark?
      split <;> simp_all
    rw [List.cons_append, hnone, hnone, Option.map_none]

theorem readDate?_append_space : readDate? (cs ++ ' ' :: rest) = readDate? cs := by
  have hnumber (cs : List Char) : (dateMark? (cs ++ ' ' :: rest)).bind digits? =
      ((dateMark? cs).bind digits?).map fun r ↦ (r.1, r.2 ++ ' ' :: rest) := by
    rw [dateMark?_append_space]
    cases dateMark? cs with
    | none => rfl
    | some cs => exact digits?_append_space cs rest
  rw [readDate?, digits?_append_space, readDate?]
  cases digits? cs with
  | none => rfl
  | some a =>
    simp only [Option.map_some, Option.bind_eq_bind, Option.bind_some, hnumber]
    cases (dateMark? a.2).bind digits? with
    | none => rfl
    | some b =>
      simp only [Option.map_some, Option.bind_some, hnumber]
      cases (dateMark? b.2).bind digits? <;> rfl

theorem readDay_append_space : readDay (cs ++ ' ' :: rest) = readDay cs := by
  rw [readDay, readDate?_append_space, takeWhile_append_space (by decide), readDay]

theorem afterSpace_append {cs : List Char} (h : ' ' ∉ cs) (n : Nat) (rest : List Char) :
    afterSpace (cs ++ ' ' :: (List.replicate n ' ' ++ rest)) = strip rest := by
  have hblanks : ∀ c ∈ List.replicate n ' ', isBlank c = true := fun c hc ↦
    List.eq_of_mem_replicate hc ▸ by decide
  have hdrop : dropBlanks (List.replicate n ' ' ++ rest) = dropBlanks rest :=
    List.dropWhile_append_of_pos hblanks
  rw [afterSpace, cutAt?_append h]
  dsimp only
  rw [strip, hdrop, strip]

end DateTime

/-! ### Dates -/

/-- What stands between the numbers of a date. -/
inductive DateMark where
  | slash
  | dash

def DateMark.char : DateMark → Char
  | slash => '/'
  | dash => '-'

/-- A date, with or without its year. -/
structure DateForm where
  year : Option (Padded 1 9999 × DateMark)
  month : Padded 1 12
  mark : DateMark
  day : Padded 1 31

namespace DateMark

theorem isDigit_char (m : DateMark) : isDigit m.char = false := by
  cases m <;> decide

theorem dateMark?_char (m : DateMark) (cs : List Char) : dateMark? (m.char :: cs) = some cs := by
  cases m <;> rfl

end DateMark

namespace DateForm

variable (d : DateForm)

def monthText : List Char := d.month.text ++ d.mark.char :: d.day.text

def text : List Char := d.year.elim d.monthText fun y ↦ y.1.text ++ y.2.char :: d.monthText

def part : DayPart := .date (d.year.map (·.1.numeral)) d.month.numeral d.day.numeral

def date (now : Moment) : Date := ⟨d.year.elim now.year (·.1.value), d.month.value, d.day.value⟩

theorem mem_text {c : Char} (hc : c ∈ d.text) : isDigit c = true ∨ ∃ m : DateMark, c = m.char := by
  unfold text monthText at hc
  have := d.month.isDigit_of_mem
  have := d.day.isDigit_of_mem
  cases hyear : d.year with
  | none => grind
  | some y => grind [y.1.isDigit_of_mem]

theorem lower_text : lower d.text = d.text := by
  refine lower_of_forall fun c hc ↦ ?_
  rcases d.mem_text hc with hdigit | ⟨m, rfl⟩
  · exact lowerChar_of_isDigit hdigit
  · cases m <;> decide

theorem readDate?_text : readDate? d.text = some d.part := by
  have hmark (m : DateMark) (cs : List Char) : ∀ c ∈ (m.char :: cs).head?, isDigit c = false := by
    simp [m.isDigit_char]
  have hend : dateMark? [] = none := rfl
  unfold readDate? text part monthText
  cases d.year with
  | none =>
    simp only [Option.elim_none, d.month.digits?_append (hmark _ _), Option.bind_eq_bind,
      Option.bind_some,
      DateMark.dateMark?_char, d.day.digits?_text, hend, Option.bind_none, Option.map_none]
  | some y =>
    simp only [Option.elim_some, y.1.digits?_append (hmark _ _), Option.bind_eq_bind,
      Option.bind_some,
      DateMark.dateMark?_char, d.month.digits?_append (hmark _ _), d.day.digits?_text,
        Option.map_some]

end DateForm

/-! ### Weekdays -/

def weekdayName : Fin 7 → String
  | 0 => "sunday"
  | 1 => "monday"
  | 2 => "tuesday"
  | 3 => "wednesday"
  | 4 => "thursday"
  | 5 => "friday"
  | 6 => "saturday"

/-- A weekday, in full or by three letters, in capitals or not. -/
structure DayName where
  weekday : Fin 7
  word : List Char
  spelled : word.map Char.toLower ∈ [(weekdayName weekday).toList,
    (weekdayName weekday).toList.take 3]

def isPlain (word : List Char) : Bool :=
  word.all fun c ↦ isWord c && (97 ≤ c.toNat && c.toNat ≤ 122)

theorem mem_plain {word : List Char} (h : isPlain word = true) (c : Char) (hc : c ∈ word) :
    isWord c = true ∧ 97 ≤ c.toNat ∧ c.toNat ≤ 122 := by
  simpa using List.all_eq_true.1 h c hc

theorem weekdayName_spec :
    ∀ n : Fin 7, ∀ word ∈ [(weekdayName n).toList, (weekdayName n).toList.take 3],
    weekdayNamed? word = some n.val ∧ word ≠ [] ∧ isPlain word = true := by
  decide

theorem isDigit_of_letter {c : Char} (h : 97 ≤ c.toNat ∧ c.toNat ≤ 122) : isDigit c = false := by
  rw [isDigit, digit?, if_pos (by omega), if_neg (by omega)]
  rfl

theorem isBlank_of_letter {c : Char} (h : 65 ≤ c.toNat ∧ c.toNat ≤ 122) : isBlank c = false := by
  cases hblank : isBlank c with
  | false => rfl
  | true =>
    simp only [isBlank, Bool.or_eq_true, Bool.and_eq_true, decide_eq_true_eq, beq_iff_eq] at hblank
    omega

theorem lowerChar_of_letter {c : Char} (h : 97 ≤ c.toNat ∧ c.toNat ≤ 122) : lowerChar c = [c] := by
  rw [lowerChar, if_pos (by omega)]
  delta Char.toLower
  rw [dif_neg]
  rintro ⟨-, hle⟩
  have : c.toNat ≤ 90 := hle
  omega

theorem toNat_bounds_of_toLower {c : Char} (h : 97 ≤ c.toLower.toNat ∧ c.toLower.toNat ≤ 122) :
    65 ≤ c.toNat ∧ c.toNat ≤ 122 := by
  delta Char.toLower at h
  split at h
  · rename_i hupper
    have hlow : 65 ≤ c.toNat := hupper.1
    have hhigh : c.toNat ≤ 90 := hupper.2
    omega
  · omega

section Letters

variable {word : List Char} (h : ∀ c ∈ word.map Char.toLower, 97 ≤ c.toNat ∧ c.toNat ≤ 122)

include h

theorem toNat_bounds_of_letters {c : Char} (hc : c ∈ word) : 65 ≤ c.toNat ∧ c.toNat ≤ 122 :=
  toNat_bounds_of_toLower (h _ (List.mem_map_of_mem hc))

theorem lower_of_letters : lower word = word.map Char.toLower := by
  have hlower : word.map lowerChar = word.map fun c ↦ [c.toLower] := by
    refine List.map_congr_left fun c hc ↦ ?_
    have := toNat_bounds_of_letters h hc
    rw [lowerChar, if_pos (by omega)]
  rw [lower, List.map_eq_flatMap, List.flatMap_def, List.flatMap_def, hlower]

end Letters

theorem DayName.letters (w : DayName) : ∀ c ∈ w.word.map Char.toLower, 97 ≤ c.toNat ∧
    c.toNat ≤ 122 :=
  fun c hc ↦ (mem_plain (weekdayName_spec _ _ w.spelled).2.2 c hc).2

/-! ### Days -/

/-- A day: a date or a weekday. -/
inductive DayForm where
  | date (d : DateForm)
  | weekday (w : DayName)

namespace DayForm

def text : DayForm → List Char
  | date d => d.text
  | weekday w => w.word

def part : DayForm → DayPart
  | date d => d.part
  | weekday w => .weekday w.weekday

def dayFrom (now : Moment) : DayForm → Nat
  | date d => (d.date now).toDay
  | weekday w => now.dayCount + (w.weekday + 7 - now.weekday) % 7

def Exists (now : Moment) : DayForm → Prop
  | date d => (d.date now).Valid
  | weekday _ => True

variable (d : DayForm)

theorem mem_text {c : Char} (hc : c ∈ d.text) :
    isDigit c = true ∨ (∃ m : DateMark, c = m.char) ∨ 65 ≤ c.toNat ∧ c.toNat ≤ 122 := by
  cases d with
  | date d => exact (d.mem_text hc).imp_right .inl
  | weekday w => exact .inr (.inr (toNat_bounds_of_letters w.letters hc))

theorem not_mem_text {c : Char} (hdigit : isDigit c = false) (hmark : ∀ m : DateMark, c ≠ m.char)
    (hletter : c.toNat < 65) : c ∉ d.text := by
  grind [d.mem_text]

theorem solid_text : Solid d.text where
  ne_nil := by
    cases d with
    | date d =>
      show d.text ≠ []
      unfold DateForm.text DateForm.monthText
      cases d.year with
      | none => simp
      | some y => simp
    | weekday w =>
      intro h
      exact (weekdayName_spec _ _ w.spelled).2.1 (by rw [show w.word = [] from h]; rfl)
  isBlank_of_mem c hc := by
    rcases d.mem_text hc with h | ⟨m, rfl⟩ | h
    · exact isBlank_of_isDigit h
    · cases m <;> decide
    · exact isBlank_of_letter h

theorem space_not_mem_lower : ' ' ∉ lower d.text := by
  cases d with
  | date d =>
    rw [text, d.lower_text]
    intro hmem
    cases (date d).solid_text.isBlank_of_mem ' ' hmem
  | weekday w =>
    rw [text, lower_of_letters w.letters]
    intro hmem
    exact absurd (w.letters ' ' hmem).1 (by decide)

theorem readDay_lower : readDay (lower d.text) = d.part := by
  cases d with
  | date d =>
    rw [text, d.lower_text, readDay, d.readDate?_text]
    rfl
  | weekday w =>
    obtain ⟨hnamed, hne, hplain⟩ := weekdayName_spec _ _ w.spelled
    rw [text, lower_of_letters w.letters]
    generalize w.word.map Char.toLower = word at *
    obtain ⟨c, word, rfl⟩ := List.exists_cons_of_ne_nil hne
    have hdate : readDate? (c :: word) = none := by
      have hdigit := isDigit_of_letter (mem_plain hplain c List.mem_cons_self).2
      rw [readDate?, digits?, List.takeWhile_cons_of_neg (by simp [hdigit])]
      rfl
    rw [readDay, hdate]
    dsimp only
    rw [List.takeWhile_eq_self_iff.2 fun c hc ↦ (mem_plain hplain c hc).1, hnamed]
    rfl

theorem part_ne_unstated : d.part ≠ .unstated := by
  cases d <;> exact DayPart.noConfusion

theorem resolveDay_part {now : Moment} (h : d.Exists now) (shift : Days) :
    resolveDay d.part shift now = Moment.reach (d.dayFrom now * Calendar.day) := by
  cases d with
  | date d =>
    rw [dayFrom, ← Moment.midnightOf_of_valid h]
    have hmidnight (y m d : Int) : (do
        let t ← Moment.midnightOf y m d
        if (Days.whole 0).isZero then pure t else t.add (← (Days.whole 0).toDuration)) =
          Moment.midnightOf y m d := by
      cases Moment.midnightOf y m d <;> rfl
    unfold resolveDay part DateForm.part DateForm.date
    dsimp only
    rw [d.month.read_numeral, d.day.read_numeral]
    cases d.year with
    | none => exact hmidnight _ _ _
    | some y =>
      dsimp only [Option.map_some]
      rw [y.1.read_numeral]
      exact hmidnight _ _ _
  | weekday w =>
    have hnow : now.weekday < 7 := Nat.mod_lt _ (by decide)
    have hlt := w.weekday.isLt
    have hshift : (if now.weekday ≤ w.weekday.val then (w.weekday.val : Int) - now.weekday
        else 7 + w.weekday.val - now.weekday) = ((w.weekday + 7 - now.weekday) % 7 : Nat) := by
      split <;> omega
    have hresolve : resolveDay (part (weekday w)) shift now = resolveDay .unstated
        (.whole (if now.weekday ≤ w.weekday.val then (w.weekday.val : Int) - now.weekday
          else 7 + w.weekday.val - now.weekday)) now := rfl
    rw [hresolve, hshift, resolveDay_unstated (by omega), dayFrom, Int.natCast_add]

end DayForm

/-! ### Texts that name a time -/

/-- The words for a time of day. -/
inductive TimeWord where
  | sunrise
  | sunset
  | noon
  | midnight

namespace TimeWord

def name : TimeWord → List Char
  | sunrise => "sunrise".toList
  | sunset => "sunset".toList
  | noon => "noon".toList
  | midnight => "midnight".toList

def part (text : List Char) : TimeWord → ClockPart
  | sunrise => .sunrise text
  | sunset => .sunset text
  | noon => .noon
  | midnight => .midnight

theorem name_spec (w : TimeWord) :
    readDay w.name = .unstated ∧ w.name ≠ [] ∧ isPlain w.name = true := by
  cases w <;> decide

theorem letters (w : TimeWord) (c : Char) (hc : c ∈ w.name) : 97 ≤ c.toNat ∧ c.toNat ≤ 122 :=
  (mem_plain w.name_spec.2.2 c hc).2

theorem readClock_append (w : TimeWord) {rest : List Char} (h : ':' ∉ rest) :
    readClock (w.name ++ rest) = w.part (w.name ++ rest) := by
  have hnone : sole? scanClock (w.name ++ rest) = none := by
    refine sole?_eq_none fun suffix hs ↦ scanClock_eq_none fun hmem ↦ ?_
    rcases List.mem_append.1 (hs.subset hmem) with hname | hrest
    · exact absurd (w.letters _ hname) (by decide)
    · exact h hrest
  rw [readClock, hnone]
  cases w <;> rfl

end TimeWord

/-- A time of day, in numbers or by a word. -/
inductive TimeName where
  | clock (f : TimeForm)
  | word (w : TimeWord) (letters : List Char) (spelled : letters.map Char.toLower = w.name)

namespace TimeName

def text : TimeName → List Char
  | clock f => f.text
  | word _ letters _ => letters

def small : TimeName → List Char
  | clock f => f.text
  | word w _ _ => w.name

def part (rest : List Char) : TimeName → ClockPart
  | clock f => f.part
  | word w _ _ => w.part (w.name ++ rest)

/-- If the text names a time of the sun, there is one. -/
def Defined (sun : Sun) : TimeName → Prop
  | word .sunrise _ _ => sun.sunrise ≠ none
  | word .sunset _ _ => sun.sunset ≠ none
  | _ => True

variable (t : TimeName)

theorem lower_text : lower t.text = t.small := by
  cases t with
  | clock f => exact f.lower_text
  | word w letters spelled => exact (lower_of_letters (spelled ▸ w.letters)).trans spelled

theorem mem_text {c : Char} (hc : c ∈ t.text) : isDigit c = true ∨ c = ':' ∨ 65 ≤ c.toNat ∧
    c.toNat ≤ 122 := by
  cases t with
  | clock f => exact (f.mem_text hc).imp_right .inl
  | word w letters spelled =>
    exact .inr (.inr (toNat_bounds_of_letters (spelled ▸ w.letters) hc))

theorem solid_text : Solid t.text := by
  cases t with
  | clock f => exact f.solid_text
  | word w letters spelled =>
    have hletters : ∀ c ∈ letters.map Char.toLower, 97 ≤ c.toNat ∧ c.toNat ≤ 122 :=
      spelled ▸ w.letters
    refine ⟨?_, fun c hc ↦ isBlank_of_letter (toNat_bounds_of_letters hletters hc)⟩
    rintro rfl
    exact w.name_spec.2.1 spelled.symm

theorem solid_small : Solid t.small := by
  cases t with
  | clock f => exact f.solid_text
  | word w letters spelled =>
    exact ⟨w.name_spec.2.1, fun c hc ↦
      isBlank_of_letter ((w.letters c hc).imp_left (Nat.le_trans (by decide)))⟩

theorem part_ne_unstated {rest : List Char} : t.part rest ≠ .unstated := by
  cases t with
  | clock f => exact ClockPart.noConfusion
  | word w letters spelled => cases w <;> exact ClockPart.noConfusion

theorem space_not_mem_small : ' ' ∉ t.small := by
  cases t with
  | clock f => exact f.not_mem_text (by decide) (by decide)
  | word w letters spelled =>
    intro hmem
    exact absurd (w.letters _ hmem) (by decide)

theorem readDay_small : readDay t.small = .unstated := by
  cases t with
  | clock f => exact f.readDay_text
  | word w letters spelled => exact w.name_spec.1

theorem readClock_append {rest : List Char} (hspace : ∀ c ∈ rest.head?, c = ' ')
    (hcolon : ':' ∉ rest) : readClock (t.small ++ rest) = t.part rest := by
  cases t with
  | clock f => exact f.readClock_append hspace hcolon
  | word w letters spelled => exact w.readClock_append hcolon

end TimeName

/-- What may follow a time of day. -/
structure Following (rest : List Char) : Prop where
  space : ∀ c ∈ rest.head?, c = ' '
  lower_eq : lower rest = rest
  colon_not_mem : ':' ∉ rest
  isBlank_last : ∀ c ∈ rest.getLast?, isBlank c = false

namespace Following

theorem nil : Following [] := ⟨by simp, rfl, by simp, by simp⟩

variable {rest : List Char} (h : Following rest)

include h

theorem readDay_append (cs : List Char) : readDay (cs ++ rest) = readDay cs := by
  cases rest with
  | nil => rw [List.append_nil]
  | cons c rest =>
    obtain rfl := h.space c rfl
    exact readDay_append_space cs rest

theorem afterSpace_append {cs : List Char} (hcs : ' ' ∉ cs) :
    afterSpace (cs ++ rest) = afterSpace rest := by
  cases rest with
  | nil =>
    rw [List.append_nil, afterSpace, cutAt?_of_not_mem hcs]
    rfl
  | cons c rest =>
    obtain rfl := h.space c rfl
    rw [afterSpace, cutAt?_append hcs]
    rfl

end Following

/-- A text that names a day, with the spaces after it. -/
structure LeadingDay where
  text : List Char
  moreSpaces : Nat
  solid : Solid text
  space_not_mem : ' ' ∉ lower text
  readDay_ne : readDay (lower text) ≠ .unstated

def DayForm.leading (d : DayForm) (moreSpaces : Nat) : LeadingDay :=
  ⟨d.text, moreSpaces, d.solid_text, d.space_not_mem_lower, d.readDay_lower ▸ d.part_ne_unstated⟩

theorem DateTime.ofText_of_clock {text : String} {cs left : List Char} {day : DayPart}
    {clock : ClockPart} (hcs : lower (strip text.toList) = cs) (hday : readDay cs = day)
    (hleft : (if day = .unstated then cs else afterSpace cs) = left)
    (hclock : readClock left = clock)
    (hne : clock ≠ .unstated) : ofText text = ⟨day, clock, readOffset (afterSpace left)⟩ := by
  unfold ofText
  simp only [hcs, hday, hleft, hclock]

/-- A time of day, perhaps after a day. -/
structure TimedForm where
  day : Option LeadingDay
  time : TimeName

namespace TimedForm

variable (f : TimedForm)

def text : List Char :=
  f.day.elim f.time.text fun d ↦ d.text ++ ' ' :: (List.replicate d.moreSpaces ' ' ++ f.time.text)

def dayPart : DayPart := f.day.elim .unstated fun d ↦ readDay (lower d.text)

theorem ofText_append {rest : List Char} (h : Following rest) :
    ofText (String.ofList (f.text ++ rest)) =
      ⟨f.dayPart, f.time.part rest, readOffset (afterSpace rest)⟩ := by
  have hclock := f.time.readClock_append h.space h.colon_not_mem
  have hspace := h.afterSpace_append f.time.space_not_mem_small
  have hlower (cs : List Char) : lower (cs ++ (f.time.text ++ rest)) = lower cs ++
      (f.time.small ++ rest) := by
    rw [lower_append, lower_append, h.lower_eq, f.time.lower_text]
  have hstrip : strip (f.time.small ++ rest) = f.time.small ++ rest :=
    strip_append_of_solid f.time.solid_small h.isBlank_last
  rw [← hspace]
  unfold text dayPart
  cases f.day with
  | none =>
    have hcs : lower (strip (String.ofList (f.time.text ++ rest)).toList) = f.time.small ++
        rest := by
      rw [String.toList_ofList, strip_append_of_solid f.time.solid_text h.isBlank_last]
      exact hlower []
    have hday : readDay (f.time.small ++ rest) = .unstated := by
      rw [h.readDay_append, f.time.readDay_small]
    exact ofText_of_clock hcs hday (if_pos rfl) hclock f.time.part_ne_unstated
  | some d =>
    have hcs : lower (strip (String.ofList (d.text ++
        ' ' :: (List.replicate d.moreSpaces ' ' ++ f.time.text) ++
        rest)).toList) = lower d.text ++ ' ' :: (List.replicate d.moreSpaces ' ' ++ (f.time.small ++
          rest)) := by
      have hspaces : lower (' ' :: List.replicate d.moreSpaces ' ') =
          ' ' :: List.replicate d.moreSpaces ' ' :=
        lower_of_forall fun c hc ↦ List.eq_of_mem_replicate (n := d.moreSpaces + 1) hc ▸ by decide
      have hlast := isBlank_getLast?_append f.time.solid_text h.isBlank_last
        (' ' :: List.replicate d.moreSpaces ' ')
      rw [String.toList_ofList, List.append_assoc, List.cons_append, List.append_assoc,
        ← List.cons_append, strip_append_of_solid d.solid hlast, lower_append, hlower, hspaces]
      rfl
    have hday : readDay (lower d.text ++ ' ' :: (List.replicate d.moreSpaces ' ' ++
        (f.time.small ++ rest))) = readDay (lower d.text) := readDay_append_space _ _
    refine ofText_of_clock hcs hday ((if_neg d.readDay_ne).trans ?_) hclock f.time.part_ne_unstated
    rw [afterSpace_append d.space_not_mem, hstrip]

end TimedForm

/-! ### Days with a time of day -/

/-- A time of day with the spaces before it. -/
structure SpacedTime where
  moreSpaces : Nat
  time : TimeForm

/-- A day, perhaps with a time of day after it. -/
structure StampForm where
  day : DayForm
  time : Option SpacedTime

namespace StampForm

variable (f : StampForm)

def timeText : List Char :=
  f.time.elim [] fun t ↦ ' ' :: (List.replicate t.moreSpaces ' ' ++ t.time.text)

def text : List Char := f.day.text ++ f.timeText

def micros : Nat := f.time.elim 0 (·.time.micros)

def clock : ClockPart := f.time.elim .unstated (·.time.part)

theorem micros_lt : f.micros < Calendar.day := by
  unfold micros
  cases f.time with
  | none => decide
  | some t =>
    rw [Option.elim_some]
    exact t.time.micros_lt

theorem mem_timeText {c : Char} (hc : c ∈ f.timeText) : c = ' ' ∨ isDigit c = true ∨ c = ':' := by
  unfold timeText at hc
  cases htime : f.time with
  | none => simp [htime] at hc
  | some t =>
    rw [htime, Option.elim_some, List.mem_cons, List.mem_append, List.mem_replicate] at hc
    grind [t.time.mem_text]

theorem strip_text : strip f.text = f.text := by
  refine strip_append_of_solid f.day.solid_text ?_
  unfold timeText
  cases f.time with
  | none => simp
  | some t =>
    rw [Option.elim_some, ← List.cons_append]
    exact isBlank_getLast? t.time.solid_text _

theorem ofText_text : ofText (String.ofList f.text) = ⟨f.day.part, f.clock, none⟩ := by
  obtain ⟨day, time⟩ := f
  cases time with
  | none =>
    have hlower : lower (strip (String.ofList (text ⟨day, none⟩)).toList) = lower day.text := by
      rw [String.toList_ofList, strip_text, text]
      exact congrArg _ (List.append_nil _)
    unfold ofText
    simp only [hlower, day.readDay_lower, if_neg day.part_ne_unstated, afterSpace,
      cutAt?_of_not_mem day.space_not_mem_lower]
    rfl
  | some t =>
    have htimed := TimedForm.ofText_append ⟨some (day.leading t.moreSpaces), .clock t.time⟩ .nil
    rw [List.append_nil, TimedForm.dayPart, Option.elim_some, DayForm.leading,
      day.readDay_lower] at htimed
    exact htimed

def ticks (now : Moment) : Int := f.day.dayFrom now * Calendar.day + f.micros

theorem moment_text (sun : Sun) (shift : Days) {now : Moment} (h : f.day.Exists now) :
    moment sun shift now (String.ofList f.text) = Reading.lift (Moment.reach (f.ticks now)) := by
  have hclock : resolveClock sun f.clock = pure (some (f.micros : Int)) := by
    unfold clock micros
    cases f.time with
    | none => rfl
    | some t =>
      rw [Option.elim_some, Option.elim_some]
      exact t.time.resolveClock_part sun
  rw [moment, f.ofText_text, ticks]
  exact resolve_of_reach (f.day.resolveDay_part h shift) hclock f.micros_lt

theorem exists_reach_ticks {now : Moment} (h : f.day.dayFrom now < Date.lastDay) :
    ∃ t, Moment.reach (f.ticks now) = .ok t ∧ t.dayCount = f.day.dayFrom now ∧
      t.timeOfDay = f.micros := by
  rw [ticks]
  exact Moment.reach_dayCount h f.micros_lt

theorem outside_ticks {now : Moment} (h : Date.lastDay ≤ f.day.dayFrom now) :
    Moment.Outside (f.ticks now) :=
  (Moment.outside_iff f.micros_lt).2 (.inr (Int.ofNat_le.2 h))

end StampForm

theorem DateForm.dayFrom_lt {d : DateForm} {now : Moment} (h : (d.date now).Valid) :
    DayForm.dayFrom now (.date d) < Date.lastDay := by
  obtain ⟨hyear, hyear', -, hmonth, hday, hday'⟩ := h
  exact Date.toDay_lt_lastDay hyear hyear' hmonth hday hday'

theorem DateForm.date_of_dayCount {d : DateForm} {now t : Moment} (h : (d.date now).Valid)
    (ht : t.dayCount = DayForm.dayFrom now (.date d)) : t.date = d.date now := by
  obtain ⟨hyear, -, hmonth, hmonth', hday, hday'⟩ := h
  rw [Moment.date, ht]
  exact Date.ofDay_toDay hyear hmonth hmonth' hday hday'

theorem DayName.isLeast_dayFrom (w : DayName) (now : Moment) :
    IsLeast {k | now.dayCount ≤ k ∧ weekdayOfDay k = w.weekday} (DayForm.dayFrom now (.weekday w)) ∧
      DayForm.dayFrom now (.weekday w) ≤ now.dayCount + 6 := by
  have hlt := w.weekday.isLt
  have hnow := now.weekday_eq
  refine ⟨⟨⟨?_, ?_⟩, ?_⟩, ?_⟩ <;> simp [DayForm.dayFrom, weekdayOfDay, lowerBounds] <;> omega

/-- **A date names its day.** With slashes or dashes and any number of zeros in front of each
number, it names the moment with that date and with the time of day after it, or midnight if there
is none. The year of `now` stands in for one that is left out. Nothing else matters, and nothing is
warned of. -/
theorem moment_of_date (sun : Sun) (shift : Days) (now : Moment) (d : DateForm)
    (time : Option SpacedTime) (hvalid : (d.date now).Valid) :
    ∃ t, DateTime.moment sun shift now (String.ofList (StampForm.text ⟨.date d, time⟩)) = pure t ∧
      t.date = d.date now ∧ t.timeOfDay = StampForm.micros ⟨.date d, time⟩ := by
  obtain ⟨t, ht, hday, htime⟩ :=
    StampForm.exists_reach_ticks ⟨.date d, time⟩ (DateForm.dayFrom_lt hvalid)
  refine ⟨t, ?_, DateForm.date_of_dayCount hvalid hday, htime⟩
  rw [StampForm.moment_text ⟨.date d, time⟩ sun shift hvalid, ht, Reading.lift_ok]

def leapDay : DateForm :=
  ⟨none, ⟨1, figure "2".toList (by decide)⟩, .dash, ⟨2, figure "29".toList (by decide)⟩⟩

def afterSeven : SpacedTime :=
  ⟨2, ⟨0, figure ['7'] (by decide)⟩, ⟨1, figure ['5'] (by decide)⟩,
    some ⟨0, figure ['0', '9'] (by decide)⟩⟩

theorem moment_of_date_leapDay :
    String.ofList (StampForm.text ⟨.date leapDay, some afterSeven⟩) = "02-0029   7:05:09" ∧
    (leapDay.date leapDayEnd).Valid ∧
    ∃ t, DateTime.moment {} (.whole 5) leapDayEnd
        (String.ofList (StampForm.text ⟨.date leapDay, some afterSeven⟩)) = pure t ∧
      t.date = leapDay.date leapDayEnd ∧
        t.timeOfDay = StampForm.micros ⟨.date leapDay, some afterSeven⟩ :=
  ⟨by decide, by decide,
    moment_of_date {} (.whole 5) leapDayEnd leapDay (some afterSeven) (by decide)⟩

/-- **A weekday names the first such day from today on**, by its English name or the first three
letters of it in any letter case, at the time of day after it or midnight. Nothing else matters, and
nothing is warned of. -/
theorem moment_of_weekday (sun : Sun) (shift : Days) (now : Moment) (hyear : now.year ≤ 9990)
    (w : DayName) (time : Option SpacedTime) :
    ∃ t, DateTime.moment sun shift now (String.ofList (StampForm.text ⟨.weekday w, time⟩)) =
      pure t ∧ IsLeast {k | now.dayCount ≤ k ∧ weekdayOfDay k = w.weekday} t.dayCount ∧
      t.dayCount ≤ now.dayCount + 6 ∧ t.timeOfDay = StampForm.micros ⟨.weekday w, time⟩ := by
  obtain ⟨hleast, hweek⟩ := w.isLeast_dayFrom now
  have hlt : DayForm.dayFrom now (.weekday w) < Date.lastDay := by
    have := Moment.dayCount_add_lt hyear
    omega
  obtain ⟨t, ht, hday, htime⟩ := StampForm.exists_reach_ticks ⟨.weekday w, time⟩ hlt
  rw [← hday] at hleast hweek
  refine ⟨t, ?_, hleast, hweek, htime⟩
  rw [StampForm.moment_text ⟨.weekday w, time⟩ sun shift trivial, ht, Reading.lift_ok]

def tuesday : DayName := ⟨2, ['t', 'U', 'e'], by decide⟩

theorem moment_of_weekday_tuesday :
    leapDayEnd.weekday = 3 ∧ leapDayEnd.year ≤ 9990 ∧
    ∃ t, DateTime.moment {} (.whole 1) leapDayEnd
        (String.ofList (StampForm.text ⟨.weekday tuesday, some afterSeven⟩)) = pure t ∧
      IsLeast {k | leapDayEnd.dayCount ≤ k ∧ weekdayOfDay k = tuesday.weekday} t.dayCount ∧
      t.dayCount ≤ leapDayEnd.dayCount + 6 ∧
      t.timeOfDay = StampForm.micros ⟨.weekday tuesday, some afterSeven⟩ :=
  ⟨by decide, by decide,
    moment_of_weekday {} (.whole 1) leapDayEnd (by decide) tuesday (some afterSeven)⟩

end TriggerScript.Schedule
