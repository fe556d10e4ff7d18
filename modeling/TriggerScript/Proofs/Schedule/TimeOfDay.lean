import TriggerScript.Proofs.Schedule.Next

/-!
# Times of day in date-time texts

A text of hours and minutes names no day and has no offset, so its moment lies as many days from the
day of `now` as the caller asks for, at that time of day (`TimeForm.moment_text`).
-/

namespace TriggerScript

open Calendar Text Schedule Moment Reading Duration
open DateTime

/-! ### Characters -/

namespace Text

theorem digitRuns_lowerRuns_apart :
    ∀ r ∈ digitRuns.toList, (∀ s ∈ lowerRuns.toList, r.2 < s.first ∨ s.last < r.1) ∧
      ∀ s ∈ lowerLong.toList, r.2 < s.1 ∨ s.1 < r.1 := by
  decide +kernel

variable {c sep : Char} {cs : List Char}

theorem exists_digitRun (h : isDigit c = true) (hascii : ¬ c.toNat < 128) :
    ∃ r ∈ digitRuns.toList, r.1 ≤ c.toNat ∧ c.toNat ≤ r.2 := by
  rw [isDigit, digit?, if_neg hascii, Option.isSome_map] at h
  obtain ⟨r, hr⟩ := Option.isSome_iff_exists.1 h
  refine ⟨r, Array.mem_toList_iff.2 (Array.mem_of_find?_eq_some hr), ?_⟩
  simpa using Array.find?_some hr

theorem lowerChar_of_isDigit (h : isDigit c = true) : lowerChar c = [c] := by
  by_cases hascii : c.toNat < 128
  · rw [lowerChar, if_pos hascii]
    delta Char.toLower
    rw [dif_neg]
    rw [isDigit, digit?, if_pos hascii] at h
    split at h
    · rename_i hdigit
      rintro ⟨hle, -⟩
      have : 65 ≤ c.toNat := hle
      omega
    · cases h
  · obtain ⟨r, hr, hle, hge⟩ := exists_digitRun h hascii
    obtain ⟨hruns, hlong⟩ := digitRuns_lowerRuns_apart r hr
    have hnolong : (lowerLong.find? fun e ↦ e.1 == c.toNat) = none := by
      rw [Array.find?_eq_none]
      intro s hs heq
      have := hlong s (Array.mem_toList_iff.2 hs)
      rw [beq_iff_eq] at heq
      omega
    have hnorun : (lowerRuns.find? fun r ↦ r.first ≤ c.toNat && c.toNat ≤ r.last &&
        (c.toNat - r.first) % r.step == 0) = none := by
      rw [Array.find?_eq_none]
      intro s hs hin
      have := hruns s (Array.mem_toList_iff.2 hs)
      simp only [Bool.and_eq_true, decide_eq_true_eq] at hin
      omega
    rw [lowerChar, if_neg hascii, mapCase, hnolong]
    dsimp only
    rw [hnorun]

theorem lower_of_forall (h : ∀ c ∈ cs, lowerChar c = [c]) : lower cs = cs := by
  rw [lower]
  induction cs with
  | nil => rfl
  | cons c cs ih => grind

theorem lower_append (cs rest : List Char) : lower (cs ++ rest) = lower cs ++ lower rest :=
  List.flatMap_append

theorem dropBlanks_of_head (h : ∀ c ∈ cs.head?, isBlank c = false) : dropBlanks cs = cs := by
  cases cs with
  | nil => rfl
  | cons c cs => rw [dropBlanks, List.dropWhile_cons_of_neg (by simp [h c rfl])]

theorem strip_of_ends (hhead : ∀ c ∈ cs.head?, isBlank c = false)
    (hlast : ∀ c ∈ cs.getLast?, isBlank c = false) : strip cs = cs := by
  rw [strip, dropBlanks_of_head hhead, dropBlanks_of_head (by rwa [List.head?_reverse]),
    List.reverse_reverse]

theorem strip_of_solid (h : Solid cs) : strip cs = cs :=
  strip_of_ends (fun c hc ↦ h.isBlank_of_mem c (List.mem_of_head? hc))
    fun c hc ↦ h.isBlank_of_mem c (List.mem_of_getLast? hc)

section Solid

variable {word rest : List Char} (hword : Solid word)
    (hlast : ∀ c ∈ rest.getLast?, isBlank c = false)

include hword

theorem isBlank_getLast? (cs : List Char) : ∀ c ∈ (cs ++ word).getLast?, isBlank c = false := by
  intro c hc
  rw [List.getLast?_append] at hc
  rcases Option.or_eq_some_iff.1 hc with hc | ⟨hnone, -⟩
  · exact hword.isBlank_of_mem c (List.mem_of_getLast? hc)
  · exact absurd (List.getLast?_eq_none_iff.1 hnone) hword.ne_nil

include hlast

theorem isBlank_getLast?_append (cs : List Char) : ∀ c ∈ (cs ++ (word ++ rest)).getLast?,
    isBlank c = false := by
  intro c hc
  rw [← List.append_assoc, List.getLast?_append] at hc
  rcases Option.or_eq_some_iff.1 hc with hc | ⟨-, hc⟩
  · exact hlast c hc
  · exact isBlank_getLast? hword cs c hc

theorem strip_append_of_solid : strip (word ++ rest) = word ++ rest := by
  refine strip_of_ends (fun c hc ↦ ?_) (isBlank_getLast?_append hword hlast [])
  obtain ⟨d, word, rfl⟩ := List.exists_cons_of_ne_nil hword.ne_nil
  cases hc
  exact hword.isBlank_of_mem _ List.mem_cons_self

end Solid

theorem cutAt?_of_not_mem (h : sep ∉ cs) : cutAt? sep cs = none := by
  induction cs with
  | nil => rfl
  | cons c cs ih =>
    obtain ⟨hne, hrest⟩ := not_or.1 (List.mem_cons.not.1 h)
    rw [cutAt?, if_neg (Ne.symm hne), ih hrest, Option.map_none]

theorem cutAt?_append (h : sep ∉ cs) (rest : List Char) :
    cutAt? sep (cs ++ sep :: rest) = some (cs, rest) := by
  induction cs with
  | nil => rw [List.nil_append, cutAt?, if_pos rfl]
  | cons c cs ih =>
    obtain ⟨hne, hrest⟩ := not_or.1 (List.mem_cons.not.1 h)
    rw [List.cons_append, cutAt?, if_neg (Ne.symm hne), ih hrest, Option.map_some]

end Text

/-! ### Moments by their tick count -/

namespace Calendar.Moment

def Outside (ticks : Int) : Prop := ticks < 0 ∨ (Date.lastDay * day : Nat) ≤ ticks

instance (ticks : Int) : Decidable (Outside ticks) := inferInstanceAs (Decidable (_ ∨ _))

def reach (ticks : Int) : Except Fault Moment := (ofTicks? ticks).elim (.error .dateOutOfRange) .ok

variable {ticks : Int}

theorem reach_of_outside (h : Outside ticks) : reach ticks = .error .dateOutOfRange := by
  have hnot : ¬ (0 ≤ ticks ∧ ticks < Date.lastDay * day) := by
    rw [Outside] at h
    omega
  rw [reach, ofTicks?, dif_neg hnot]
  rfl

theorem reach_of_not_outside (h : ¬ Outside ticks) :
    ∃ m, reach ticks = .ok m ∧ (m.ticks : Int) = ticks := by
  have hin : 0 ≤ ticks ∧ ticks < Date.lastDay * day := by
    rw [Outside] at h
    omega
  refine ⟨_, by rw [reach, ofTicks?, dif_pos hin]; rfl, ?_⟩
  exact Int.toNat_of_nonneg hin.1

theorem outside_iff {d : Int} {x : Nat} (hx : x < day) : Outside (d * day + x) ↔
    d < 0 ∨ Date.lastDay ≤ d := by
  rw [Outside]
  simp only [day_eq] at *
  omega

theorem outside_midnight_iff {d : Int} : Outside (d * day) ↔ d < 0 ∨ Date.lastDay ≤ d := by
  simpa using outside_iff (d := d) (x := 0) (by decide)

variable (m : Moment)

theorem not_outside_ticks : ¬ Outside m.ticks := by
  have := m.ticks_lt
  rw [Outside]
  omega

theorem reach_ticks : reach m.ticks = .ok m := by
  obtain ⟨t, ht, hticks⟩ := reach_of_not_outside m.not_outside_ticks
  rw [ht, le_antisymm (show t.ticks ≤ m.ticks by omega) (show m.ticks ≤ t.ticks by omega)]

theorem add_eq_reach (d : Duration) : m.add d = reach (m.ticks + d) := by
  rw [add, add?, reach]
  cases ofTicks? (m.ticks + d) <;> rfl

def midnight (m : Moment) : Moment :=
  ⟨m.dayCount * day, Nat.mul_lt_mul_of_pos_right m.dayCount_lt (by decide)⟩

theorem ticks_eq_dayCount : m.ticks = m.dayCount * day + m.timeOfDay :=
  (Nat.div_add_mod' m.ticks day).symm

theorem timeOfDay_lt : m.timeOfDay < day := Nat.mod_lt _ (by decide)

theorem eq_of_dayCount {m t : Moment} (hday : m.dayCount = t.dayCount)
    (htime : m.timeOfDay = t.timeOfDay) : m = t := by
  have hticks : m.ticks = t.ticks := by rw [m.ticks_eq_dayCount, t.ticks_eq_dayCount, hday, htime]
  exact le_antisymm (show m.ticks ≤ t.ticks from hticks.le) (show t.ticks ≤ m.ticks from hticks.ge)

theorem eq_of_timeOfDay {now t u : Moment} (ht : now < t) (ht' : t.ticks ≤ now.ticks + day)
    (hu : now < u) (hu' : u.ticks ≤ now.ticks + day) (h : u.timeOfDay = t.timeOfDay) : u = t := by
  refine eq_of_dayCount ?_ h
  have hlt : now.ticks < t.ticks := ht
  have hlt' : now.ticks < u.ticks := hu
  simp only [timeOfDay, dayCount, day_eq] at *
  omega

theorem reach_dayCount {k micros : Nat} (hk : k < Date.lastDay) (hlt : micros < day) :
    ∃ t, reach (k * day + micros) = .ok t ∧ t.dayCount = k ∧ t.timeOfDay = micros := by
  obtain ⟨t, ht, hticks⟩ := reach_of_not_outside ((outside_iff (d := k) hlt).not.2 (by omega))
  refine ⟨t, ht, ?_, ?_⟩
  all_goals
    simp only [dayCount, timeOfDay, day_eq] at *
    omega

theorem midnightOf_of_valid {x : Date} (h : x.Valid) :
    midnightOf x.year x.month x.day = reach (x.toDay * day) := by
  obtain ⟨y, m, d⟩ := x
  obtain ⟨hyear, hyear', hmonth, hmonth', hday, hday'⟩ := h
  obtain ⟨t, ht, hshows⟩ :=
    exists_ofFields hyear hyear' hmonth hmonth' hday hday' (show 0 < 24 by decide)
    (show 0 < 60 by decide)
  have hticks : (t.ticks : Int) = Date.toDay ⟨y, m, d⟩ * day := by
    rw [t.ticks_eq, hshows.dayCount, hshows.hourOfDay, hshows.minuteOfHour, hshows.onMinute.1,
      hshows.onMinute.2]
    simp only [day_eq]
    omega
  rw [← hticks, reach_ticks]
  exact ht

theorem midnightOf_date : midnightOf m.year m.month m.dayOfMonth = .ok m.midnight := by
  have hticks : (m.date.toDay : Int) * day = m.midnight.ticks := by
    rw [m.toDay_date]
    rfl
  rw [← m.midnight.reach_ticks, ← hticks]
  exact midnightOf_of_valid m.valid_date

end Calendar.Moment

theorem Calendar.Duration.checked_of_le {micros : Int} (h : micros.natAbs ≤ 999999999 * day) :
    checked micros = .ok micros := by
  have hdays : -999999999 ≤ micros.fdiv day ∧ micros.fdiv day ≤ 999999999 := by grind
  unfold checked
  rw [if_neg (by omega), if_neg (by omega)]

namespace Number.Numeral

theorem digitsValue_dropZeros (ds : List Char) : digitsValue (dropZeros ds) = digitsValue ds := by
  fun_induction dropZeros ds with
  | case1 d ds ih => exact ih
  | case2 ds _ => rfl

theorem length_dropZeros_le (ds : List Char) : (dropZeros ds).length ≤ ds.length := by
  fun_induction dropZeros ds with
  | case1 d ds ih => exact Nat.le_succ_of_le ih
  | case2 ds _ => exact Nat.le_refl _

theorem dropZeros_replicate {ds : List Char} (h : ds ≠ []) (n : Nat) :
    dropZeros (List.replicate n '0' ++ ds) = dropZeros ds := by
  induction n with
  | zero => rfl
  | succ n ih =>
    have hne : List.replicate n '0' ++ ds ≠ [] := fun hnil ↦ h (List.append_eq_nil_iff.1 hnil).2
    obtain ⟨d, rest, hcons⟩ := List.exists_cons_of_ne_nil hne
    rw [List.replicate_succ, List.cons_append, hcons, dropZeros, ← hcons, ih]

end Number.Numeral

namespace Schedule

open Number (Numeral)

/-! ### Runs of digits -/

theorem isBlank_of_isDigit {c : Char} (h : isDigit c = true) : isBlank c = false := by
  cases hblank : isBlank c with
  | false => rfl
  | true => exact absurd h (by simp [not_isDigit_of_isBlank hblank])

section Digits

variable {ds rest : List Char} (hds : ∀ c ∈ ds, isDigit c = true)
    (hrest : ∀ c ∈ rest.head?, isDigit c = false)

include hds hrest

theorem takeWhile_isDigit_append : (ds ++ rest).takeWhile isDigit = ds := by
  rw [List.takeWhile_append_of_pos hds]
  cases rest with
  | nil => simp
  | cons c rest => rw [List.takeWhile_cons_of_neg (by simp [hrest c rfl]), List.append_nil]

theorem dropWhile_isDigit_append : (ds ++ rest).dropWhile isDigit = rest := by
  rw [List.dropWhile_append_of_pos hds]
  cases rest with
  | nil => rfl
  | cons c rest => rw [List.dropWhile_cons_of_neg (by simp [hrest c rfl])]

theorem scanNumber_append (hne : ds ≠ []) (hend : ∀ c ∈ rest.head?, c ≠ '.' ∧ c ≠ 'e' ∧ c ≠ 'E') :
    Offset.scanNumber (ds ++ rest) = some (ds, rest) := by
  have hsome : ds.isEmpty = false := by simpa using hne
  unfold Offset.scanNumber
  simp only [takeWhile_isDigit_append hds hrest, dropWhile_isDigit_append hds hrest]
  cases rest with
  | nil => simp [hsome, Offset.scanExponent]
  | cons c rest =>
    obtain ⟨hpoint, hexp, hexp'⟩ := hend c rfl
    simp [hsome, Offset.scanExponent, hpoint, hexp, hexp']

end Digits

/-- A number with zeros in front. -/
structure Padded (low high : Nat) where
  zeros : Nat
  figure : Figure low high

namespace Padded

variable {low high : Nat} (p : Padded low high)

def text : List Char := List.replicate p.zeros '0' ++ p.figure.numeral.digits

def value : Nat := p.figure.numeral.value

def numeral : Numeral := ⟨Numeral.dropZeros p.text⟩

theorem low_le : low ≤ p.value := p.figure.low_le

theorem le_high : p.value ≤ high := p.figure.le_high

theorem text_ne_nil : p.text ≠ [] := fun h ↦ p.figure.digits_ne_nil (List.append_eq_nil_iff.1 h).2

theorem isDigit_of_mem (c : Char) (hc : c ∈ p.text) : isDigit c = true := by
  rcases List.mem_append.1 hc with hc | hc
  · rw [List.eq_of_mem_replicate hc]
    decide
  · exact p.figure.isDigit_of_mem c hc

theorem numeral_digits : p.numeral.digits = Numeral.dropZeros p.figure.numeral.digits :=
  Numeral.dropZeros_replicate p.figure.digits_ne_nil p.zeros

theorem digitsValue_text : digitsValue p.text = p.value := by
  rw [← Numeral.digitsValue_dropZeros]
  show digitsValue p.numeral.digits = p.value
  rw [p.numeral_digits, Numeral.digitsValue_dropZeros]
  rfl

theorem read_numeral : p.numeral.read = .ok p.value := by
  have hlength : p.numeral.length ≤ Number.digitLimit := by
    rw [Numeral.length, p.numeral_digits]
    exact Nat.le_trans (Numeral.length_dropZeros_le _) p.figure.length_le
  rw [Numeral.read_of_length_le hlength, Numeral.value, numeral, Numeral.digitsValue_dropZeros,
    p.digitsValue_text]

theorem digits?_append {rest : List Char} (h : ∀ c ∈ rest.head?, isDigit c = false) :
    digits? (p.text ++ rest) = some (p.numeral, rest) := by
  rw [digits?, takeWhile_isDigit_append p.isDigit_of_mem h,
    dropWhile_isDigit_append p.isDigit_of_mem h, if_neg (by simpa using p.text_ne_nil)]
  rfl

theorem digits?_text : digits? p.text = some (p.numeral, []) := by
  have := @digits?_append _ _ p [] (by simp)
  rwa [List.append_nil] at this

end Padded

section Forms

variable {α : Type} {scan : List Char → Option (α × List Char)} {cs : List Char}

theorem occurrences_eq_nil (h : ∀ suffix, suffix <:+ cs → scan suffix = none) (n : Nat) :
    occurrences scan n cs = [] := by
  induction n generalizing cs with
  | zero => rfl
  | succ n ih =>
    have hhere : scan cs = none := h cs (List.suffix_refl cs)
    cases cs with
    | nil => simp only [occurrences, hhere]
    | cons c cs =>
      simp only [occurrences, hhere]
      exact ih fun suffix hs ↦ h suffix (hs.trans (List.suffix_cons c cs))

theorem sole?_eq_none (h : ∀ suffix, suffix <:+ cs → scan suffix = none) :
    sole? scan cs = none := by
  rw [sole?, occurrences_eq_nil h]

theorem sole?_of_scan_append {a : α} {rest : List Char} (h : scan cs = some (a, rest))
    (hrest : ∀ suffix, suffix <:+ rest → scan suffix = none) : sole? scan cs = some a := by
  simp only [sole?, occurrences, h, occurrences_eq_nil hrest]

theorem sole?_of_scan {a : α} (h : scan cs = some (a, [])) (hnil : scan [] = none) :
    sole? scan cs = some a :=
  sole?_of_scan_append h fun _ hs ↦ List.suffix_nil.1 hs ▸ hnil

end Forms

theorem Reading.lift_ok {α : Type} (a : α) : lift (.ok a) = pure a := rfl

variable {k : Int} {word : List Char} {now : Moment}

theorem DateTime.resolveDay_unstated (hk : k.natAbs ≤ 999999999) (now : Moment) :
    resolveDay .unstated (.whole k) now = reach ((now.dayCount + k) * Calendar.day) := by
  have hmidnight : (now.dayCount + k) * Calendar.day = (now.midnight.ticks : Int) +
      k * Calendar.day := by
    rw [Int.add_mul]
    rfl
  rw [resolveDay]
  dsimp only
  rw [now.midnightOf_date, hmidnight]
  by_cases hzero : k = 0
  · subst hzero
    rw [Int.zero_mul, Int.add_zero, reach_ticks]
    rfl
  · have hshift : (Days.whole k).toDuration = .ok (k * Calendar.day) := by
      rw [Days.toDuration, ofWhole, checked_of_le]
      rw [Int.natAbs_mul]
      exact Nat.mul_le_mul_right _ hk
    have hisZero : (Days.whole k).isZero = false := by simpa [Days.isZero] using hzero
    rw [← add_eq_reach]
    show (if (Days.whole k).isZero = true then _ else _) = _
    rw [if_neg (by simp [hisZero]), hshift]
    rfl

/-! ### The text of a time of day -/

/-- Hours and minutes, and perhaps whole seconds. -/
structure TimeForm where
  hour : Padded 0 23
  minute : Padded 0 59
  second : Option (Padded 0 59)

theorem ne_of_isDigit (h : ∀ c ∈ word, isDigit c = true) {name : String}
    (hname : name.toList.all isDigit = false) : word ≠ name.toList := by
  rintro rfl
  rw [List.all_eq_true.2 h] at hname
  cases hname

theorem weekdayNamed?_of_isDigit (h : ∀ c ∈ word, isDigit c = true) :
    weekdayNamed? word = none := by
  have hne {name : String} (hname : name.toList.all isDigit = false) : String.ofList word ≠ name :=
    fun heq ↦ ne_of_isDigit h hname (by rw [← heq, String.toList_ofList])
  unfold weekdayNamed?
  split
  case h_15 => rfl
  all_goals
    rename_i heq
    exact absurd heq (hne (by decide))

theorem DateTime.scanClock_eq_none {cs : List Char} (h : ':' ∉ cs) : scanClock cs = none := by
  rw [scanClock, digits?]
  split
  · rfl
  · have hnone : after? [':'] (cs.dropWhile isDigit) = none :=
      after?_of_not_mem (List.mem_singleton_self ':') fun hmem ↦
        h ((List.dropWhile_sublist _).subset hmem)
    simp only [Option.bind_eq_bind, Option.bind_some, hnone, Option.bind_none]

namespace TimeForm

variable (f : TimeForm)

def secondText : List Char := f.second.elim [] fun s ↦ ':' :: s.text

def seconds : Nat := f.second.elim 0 Padded.value

def text : List Char := f.hour.text ++ ':' :: (f.minute.text ++ f.secondText)

def micros : Nat :=
  f.hour.value * Calendar.hour + f.minute.value * Calendar.minute + f.seconds * Calendar.second

def part : ClockPart := .clock f.hour.numeral f.minute.numeral (.whole f.seconds)

theorem seconds_le : f.seconds ≤ 59 := by
  unfold seconds
  cases f.second with
  | none => decide
  | some s => exact s.le_high

theorem micros_lt : f.micros < Calendar.day := by
  have := f.hour.le_high
  have := f.minute.le_high
  have := f.seconds_le
  simp only [micros, Calendar.day, Calendar.hour, Calendar.minute, Calendar.second]
  omega

variable {c : Char}

theorem mem_text (hc : c ∈ f.text) : isDigit c = true ∨ c = ':' := by
  rcases List.mem_append.1 hc with hc | hc
  · exact .inl (f.hour.isDigit_of_mem c hc)
  rcases List.mem_cons.1 hc with rfl | hc
  · exact .inr rfl
  rcases List.mem_append.1 hc with hc | hc
  · exact .inl (f.minute.isDigit_of_mem c hc)
  unfold secondText at hc
  cases hsecond : f.second with
  | none =>
    rw [hsecond] at hc
    cases hc
  | some s =>
    rw [hsecond] at hc
    rcases List.mem_cons.1 hc with rfl | hc
    · exact .inr rfl
    · exact .inl (s.isDigit_of_mem c hc)

theorem not_mem_text (hdigit : isDigit c = false) (hcolon : c ≠ ':') : c ∉ f.text := by
  intro hc
  rcases f.mem_text hc with h | h
  · rw [hdigit] at h
    cases h
  · exact hcolon h

theorem solid_text : Solid f.text where
  ne_nil := by simp [text]
  isBlank_of_mem c hc := by
    rcases f.mem_text hc with hdigit | rfl
    · exact isBlank_of_isDigit hdigit
    · decide

theorem lower_text : lower f.text = f.text := by
  refine lower_of_forall fun c hc ↦ ?_
  rcases f.mem_text hc with hdigit | rfl
  · exact lowerChar_of_isDigit hdigit
  · decide

theorem afterSpace_text : afterSpace f.text = [] := by
  rw [afterSpace, cutAt?_of_not_mem (f.not_mem_text (by decide) (by decide))]

theorem readDay_text : readDay f.text = .unstated := by
  have hdate : readDate? f.text = none := by
    rw [readDate?, text, f.hour.digits?_append (by simp [show isDigit ':' = false by decide])]
    rfl
  -- a word at the start ends before the colon
  have hword : ∀ c ∈ f.text.takeWhile isWord, isDigit c = true := by
    intro c hc
    have hcolon : isWord ':' = false := by decide
    have hisWord : isWord c = true := List.mem_takeWhile_imp hc
    rcases f.mem_text ((List.takeWhile_sublist _).subset hc) with hdigit | rfl
    · exact hdigit
    · rw [hcolon] at hisWord
      cases hisWord
  rw [readDay, hdate]
  dsimp only
  rw [weekdayNamed?_of_isDigit hword]
  dsimp only
  rw [if_neg (ne_of_isDigit hword (by decide)), if_neg (ne_of_isDigit hword (by decide))]

theorem readSeconds_text (s : Padded 0 59) : readSeconds s.text = .whole s.value := by
  have hlt : s.value < Number.twoTo 53 := Nat.lt_of_le_of_lt s.le_high (by decide)
  have hall : s.text.all isDigit = true := List.all_eq_true.2 s.isDigit_of_mem
  rw [readSeconds, s.digitsValue_text, if_pos (by simp [hall, hlt])]

section Append

variable {rest : List Char} (hspace : ∀ c ∈ rest.head?, c = ' ')

include hspace

theorem scanClock_append : scanClock (f.text ++ rest) = some (f.part, rest) := by
  have hcolon (cs : List Char) : ∀ c ∈ (':' :: cs).head?, isDigit c = false := by
    simp [show isDigit ':' = false by decide]
  have hdigit : ∀ c ∈ rest.head?, isDigit c = false := fun c hc ↦ hspace c hc ▸ by decide
  have hend : after? [':'] rest = none := by
    cases rest with
    | nil => rfl
    | cons c rest =>
      obtain rfl := hspace c rfl
      rfl
  rw [scanClock, text, part]
  unfold secondText seconds
  simp only [List.append_assoc, List.cons_append, f.hour.digits?_append (hcolon _),
    Option.bind_eq_bind, Option.bind_some, after?, if_true]
  cases f.second with
  | none =>
    simp only [Option.elim_none, List.nil_append, f.minute.digits?_append hdigit, Option.bind_some,
      hend, Option.bind_none]
  | some s =>
    have hnumber : Offset.scanNumber (s.text ++ rest) = some (s.text, rest) :=
      scanNumber_append s.isDigit_of_mem hdigit s.text_ne_nil fun c hc ↦ hspace c hc ▸ by decide
    simp only [Option.elim_some, List.cons_append, f.minute.digits?_append (hcolon _),
      Option.bind_some, after?, if_true, hnumber, readSeconds_text]

theorem readClock_append (hcolon : ':' ∉ rest) : readClock (f.text ++ rest) = f.part := by
  rw [readClock, sole?_of_scan_append (f.scanClock_append hspace) fun suffix hs ↦
    scanClock_eq_none fun hmem ↦ hcolon (hs.subset hmem)]

end Append

theorem readClock_text : readClock f.text = f.part := by
  have := f.readClock_append (show ∀ c ∈ [].head?, c = ' ' by simp) List.not_mem_nil
  rwa [List.append_nil] at this

theorem ofText_text : ofText (String.ofList f.text) = ⟨.unstated, f.part, none⟩ := by
  have hlower : lower (strip (String.ofList f.text).toList) = f.text := by
    rw [String.toList_ofList, strip_of_solid f.solid_text, f.lower_text]
  unfold ofText
  simp only [hlower, f.readDay_text, if_true, f.readClock_text, part, f.afterSpace_text, readOffset]

theorem resolveClock_part (sun : Sun) : resolveClock sun f.part = pure (some (f.micros : Int)) := by
  have hlt := f.micros_lt
  have hsince : sinceMidnight f.hour.value f.minute.value (.whole f.seconds) =
      .ok (f.micros : Int) := by
    have hmicros : ((f.seconds + 60 * (f.minute.value + 60 * f.hour.value) : Nat) : Int) *
        Calendar.second = f.micros := by
      simp only [micros, Calendar.hour, Calendar.minute, Calendar.second]
      omega
    rw [sinceMidnight, ofWhole, hmicros, checked_of_le]
    simp only [Calendar.day_eq] at hlt ⊢
    omega
  rw [part, resolveClock, f.hour.read_numeral, f.minute.read_numeral, lift_ok, pure_bind,
    lift_ok, pure_bind, hsince, lift_ok, pure_bind]

end TimeForm

theorem DateTime.resolve_of_reach {sun : Sun} {shift : Days} {day : DayPart} {clock : ClockPart}
    {micros : Nat} (hday : resolveDay day shift now = reach (k * Calendar.day))
    (hclock : resolveClock sun clock = pure (some (micros : Int))) (hlt : micros < Calendar.day) :
    resolve sun shift now ⟨day, clock, none⟩ = lift (reach (k * Calendar.day + micros)) := by
  rw [resolve, hday]
  by_cases hout : Moment.Outside (k * Calendar.day)
  · have hout' : Moment.Outside (k * Calendar.day + micros) := by
      rw [Moment.Outside] at hout ⊢
      simp only [Calendar.day_eq] at *
      omega
    rw [reach_of_outside hout, reach_of_outside hout']
    rfl
  · obtain ⟨m, hm, hticks⟩ := reach_of_not_outside hout
    rw [hm, lift_ok, pure_bind, hclock, pure_bind]
    dsimp only
    rw [add_eq_reach, hticks]
    exact bind_pure _

theorem TimeForm.moment_text (f : TimeForm) (sun : Sun) (hk : k.natAbs ≤ 999999999) (now : Moment) :
    moment sun (.whole k) now (String.ofList f.text) =
      lift (reach ((now.dayCount + k) * Calendar.day + f.micros)) := by
  rw [moment, f.ofText_text]
  exact resolve_of_reach (resolveDay_unstated hk now) (f.resolveClock_part sun) f.micros_lt

theorem TimeForm.exists_moment_text (f : TimeForm) (sun : Sun) (k : Nat) (hk : k ≤ 999999999)
    (hlt : now.dayCount + k < Date.lastDay) :
    ∃ t, moment sun (.whole k) now (String.ofList f.text) = pure t ∧ t.dayCount = now.dayCount + k ∧
      t.timeOfDay = f.micros := by
  obtain ⟨t, ht, hfields⟩ := reach_dayCount hlt f.micros_lt
  refine ⟨t, ?_, hfields⟩
  rw [f.moment_text sun (by simpa using hk), ← Int.natCast_add, ht, lift_ok]

/-- Hours and minutes, without zeros in front. -/
structure ClockForm where
  hour : Figure 0 23
  minute : Figure 0 59

namespace ClockForm

variable (f : ClockForm)

def text : List Char := f.hour.numeral.digits ++ ':' :: f.minute.numeral.digits

def micros : Nat := f.hour.numeral.value * Calendar.hour + f.minute.numeral.value * Calendar.minute

def toTime : TimeForm := ⟨⟨0, f.hour⟩, ⟨0, f.minute⟩, none⟩

theorem text_toTime : f.toTime.text = f.text := by
  simp [toTime, TimeForm.text, TimeForm.secondText, Padded.text, text]

theorem micros_toTime : f.toTime.micros = f.micros := by
  simp [toTime, TimeForm.micros, TimeForm.seconds, Padded.value, micros]

theorem micros_lt : f.micros < Calendar.day := f.micros_toTime ▸ f.toTime.micros_lt

theorem not_mem_text {c : Char} (hdigit : isDigit c = false) (hcolon : c ≠ ':') : c ∉ f.text :=
  f.text_toTime ▸ f.toTime.not_mem_text hdigit hcolon

theorem solid_text : Solid f.text := f.text_toTime ▸ f.toTime.solid_text

theorem moment_text (sun : Sun) {k : Int} (hk : k.natAbs ≤ 999999999) (now : Moment) :
    moment sun (.whole k) now (String.ofList f.text) =
      lift (reach ((now.dayCount + k) * Calendar.day + f.micros)) := by
  rw [← f.text_toTime, ← f.micros_toTime]
  exact f.toTime.moment_text sun hk now

end ClockForm

end Schedule

end TriggerScript
