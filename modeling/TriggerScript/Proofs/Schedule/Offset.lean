import TriggerScript.Proofs.Schedule.NamedDay

/-!
# Offsets in date-time texts

A text that names a time goes on with an offset after a space, which is added to the moment that the
text names without it (`moment_shifted`). The reader knows a unit by a list of words, in which
`minute` and `hour` are missing. These count seconds.
-/

namespace TriggerScript.Schedule

open Calendar Text Number Reading
open DateTime hiding day

/-! ### Numbers -/

theorem digitRun_of_isDigit {cs : List Char} (h : ∀ c ∈ cs, isDigit c = true) :
    digitRun digit? cs = (cs.filterMap digit?, []) := by
  induction cs with
  | nil => rfl
  | cons c cs ih =>
    obtain ⟨d, hd⟩ := Option.isSome_iff_exists.1 (h c List.mem_cons_self)
    have hrest := ih fun e he ↦ h e (List.mem_cons_of_mem _ he)
    rw [digitRun, hd]
    dsimp only
    rw [List.filterMap_cons_some hd]
    split
    · cases h '_' (List.mem_cons_of_mem _ List.mem_cons_self)
    · rw [hrest]

/-- The sign of an offset. -/
inductive Sign where
  | plus
  | minus
  deriving DecidableEq

def signText : Option Sign → List Char
  | none => []
  | some .plus => ['+']
  | some .minus => ['-']

namespace Figure

variable {low high : Nat} (f : Figure low high)

theorem exists_digits : ∃ d ds, f.numeral.digits = d :: ds ∧ isDigit d = true := by
  obtain ⟨d, ds, hdigits⟩ := List.exists_cons_of_ne_nil f.digits_ne_nil
  exact ⟨d, ds, hdigits, f.isDigit_of_mem d (hdigits ▸ List.mem_cons_self)⟩

theorem solid_digits : Solid f.numeral.digits where
  ne_nil := f.digits_ne_nil
  isBlank_of_mem c hc := isBlank_of_isDigit (f.isDigit_of_mem c hc)

theorem signed_digits (sign : Option Sign) :
    signed (signText sign ++ f.numeral.digits) =
      (decide (sign = some .minus), f.numeral.digits) := by
  cases sign with
  | some s => cases s <;> rfl
  | none =>
    obtain ⟨d, ds, hdigits, hd⟩ := f.exists_digits
    rw [hdigits]
    show signed (d :: ds) = (false, d :: ds)
    unfold signed
    split
    · rename_i heq
      obtain ⟨rfl, -⟩ := List.cons.inj heq
      cases hd
    · rename_i heq
      obtain ⟨rfl, -⟩ := List.cons.inj heq
      cases hd
    · rfl

theorem exists_readFloat? (sign : Option Sign) :
    ∃ x, readFloat? (signText sign ++ f.numeral.digits) = some x := by
  obtain ⟨d, ds, hdigits, hd⟩ := f.exists_digits
  obtain ⟨n, hn⟩ := Option.isSome_iff_exists.1 hd
  have hpart : decimalPart f.numeral.digits =
      some (ofDigits 10 (f.numeral.digits.filterMap digit?), 0, []) := by
    unfold decimalPart
    simp only [digitRun_of_isDigit f.isDigit_of_mem]
    rw [if_neg (by simp [hdigits, hn]), List.append_nil]
    rfl
  have hsolid : Solid (signText sign ++ f.numeral.digits) := by
    refine ⟨by simp [f.digits_ne_nil], fun c hc ↦ ?_⟩
    rcases List.mem_append.1 hc with hc | hc
    · rcases sign with _ | _ | _ <;> simp [signText] at hc <;> subst hc <;> decide
    · exact f.solid_digits.isBlank_of_mem c hc
  unfold readFloat?
  simp only [strip_of_solid hsolid, f.signed_digits, hpart]
  exact ⟨_, rfl⟩

end Figure

theorem head?_replicate_append {n : Nat} {cs : List Char} {c : Char}
    (h : c ∈ (List.replicate n ' ' ++ cs).head?) : c = ' ' ∨ c ∈ cs.head? := by
  cases n with
  | zero => exact .inr h
  | succ n => exact .inl (Option.some.inj h).symm

section Blanks

variable {cs : List Char} (h : ∀ c ∈ cs.head?, isBlank c = false) (n : Nat)

include h

theorem takeWhile_isBlank_replicate :
    (List.replicate n ' ' ++ cs).takeWhile isBlank = List.replicate n ' ' := by
  induction n with
  | zero =>
    cases cs with
    | nil => rfl
    | cons c cs => simp [h c rfl]
  | succ n ih =>
    rw [List.replicate_succ, List.cons_append, List.takeWhile_cons_of_pos (by decide), ih]

theorem dropWhile_isBlank_replicate : (List.replicate n ' ' ++ cs).dropWhile isBlank = cs := by
  induction n with
  | zero => exact dropBlanks_of_head h
  | succ n ih =>
    rw [List.replicate_succ, List.cons_append, List.dropWhile_cons_of_pos (by decide), ih]

end Blanks

/-! ### Units -/

/-- What an amount counts. -/
inductive TimeUnit where
  | second
  | minute
  | hour
  | day
  | week

namespace TimeUnit

def length : TimeUnit → Nat
  | second => 1
  | minute => 60
  | hour => 3600
  | day => 86400
  | week => 604800

def words : TimeUnit → List String
  | second => ["s", "sec", "second", "seconds"]
  | minute => ["m", "min", "minute", "minutes"]
  | hour => ["h", "hr", "hour", "hours"]
  | day => ["d", "day", "days"]
  | week => ["w", "week", "weeks"]

end TimeUnit

/-- A unit with one of its words. -/
structure UnitName where
  unit : TimeUnit
  word : String
  mem_words : word ∈ unit.words

namespace UnitName

def unlisted : List String := ["minute", "hour"]

def counted (u : UnitName) : Nat := if u.word ∈ unlisted then 1 else u.unit.length

theorem word_spec (u : UnitName) :
    Offset.unitSeconds u.word.toList = u.counted ∧ u.word.toList ≠ [] ∧ u.counted ≤ 604800 ∧
      isPlain u.word.toList = true ∧ u.word.toList.head? ≠ some 'e' := by
  have hall (unit : TimeUnit) : ∀ word ∈ unit.words,
      Offset.unitSeconds word.toList = (if word ∈ unlisted then 1 else unit.length) ∧
        word.toList ≠ [] ∧
      (if word ∈ unlisted then 1 else unit.length) ≤ 604800 ∧
      isPlain word.toList = true ∧ word.toList.head? ≠ some 'e' := by
    cases unit <;> decide
  exact hall u.unit u.word u.mem_words

theorem counted_pos (u : UnitName) : 0 < u.counted := by
  unfold counted
  split
  · decide
  · cases u.unit <;> decide

theorem solid_word (u : UnitName) : Solid u.word.toList :=
  ⟨u.word_spec.2.1, fun c hc ↦
    isBlank_of_letter ((mem_plain u.word_spec.2.2.2.1 c hc).2.imp_left (Nat.le_trans (by decide)))⟩

end UnitName

/-! ### Amounts -/

/-- An amount of time: a number and a unit, with spaces between them. -/
structure QuantityForm (low high : Nat) where
  number : Figure low high
  spaces : Nat
  unit : UnitName

namespace QuantityForm

variable {low high : Nat} (q : QuantityForm low high)

def text : List Char :=
  q.number.numeral.digits ++ (List.replicate q.spaces ' ' ++ q.unit.word.toList)

def counted : Nat := q.number.numeral.value * q.unit.counted

theorem counted_le : q.counted ≤ high * 604800 :=
  Nat.mul_le_mul q.number.le_high q.unit.word_spec.2.2.1

theorem low_le_counted : low ≤ q.counted :=
  Nat.le_trans q.number.low_le (Nat.le_mul_of_pos_right _ q.unit.counted_pos)

theorem mem_text {c : Char} (hc : c ∈ q.text) : isDigit c = true ∨ c = ' ' ∨ 97 ≤ c.toNat ∧
    c.toNat ≤ 122 := by
  rcases List.mem_append.1 hc with hc | hc
  · exact .inl (q.number.isDigit_of_mem c hc)
  rcases List.mem_append.1 hc with hc | hc
  · exact .inr (.inl (List.eq_of_mem_replicate hc))
  · exact .inr (.inr (mem_plain q.unit.word_spec.2.2.2.1 c hc).2)

theorem isBlank_last (cs : List Char) : ∀ c ∈ (cs ++ q.text).getLast?, isBlank c = false := by
  rw [text, ← List.append_assoc, ← List.append_assoc]
  exact isBlank_getLast? q.unit.solid_word _

theorem scanNumber_text : Offset.scanNumber q.text =
    some (q.number.numeral.digits, List.replicate q.spaces ' ' ++ q.unit.word.toList) := by
  obtain ⟨-, -, -, hplain, hexp⟩ := q.unit.word_spec
  have hhead : ∀ c ∈ (List.replicate q.spaces ' ' ++ q.unit.word.toList).head?,
      isDigit c = false ∧ c ≠ '.' ∧ c ≠ 'e' ∧ c ≠ 'E' := by
    intro c hc
    rcases head?_replicate_append hc with rfl | hc
    · decide
    · have hbounds := (mem_plain hplain c (List.mem_of_head? hc)).2
      refine ⟨isDigit_of_letter hbounds, ?_, fun h ↦ hexp (h ▸ hc), ?_⟩
      all_goals
        rintro rfl
        exact absurd hbounds (by decide)
  exact scanNumber_append q.number.isDigit_of_mem (fun c hc ↦ (hhead c hc).1) q.number.digits_ne_nil
    fun c hc ↦ (hhead c hc).2

theorem scan_text (sign : Option Sign) (gap : Nat) :
    Offset.scan (signText sign ++ (List.replicate gap ' ' ++ q.text)) =
      some (⟨signText sign, List.replicate gap ' ', q.number.numeral.digits, q.unit.word.toList⟩,
        []) := by
  obtain ⟨-, -, -, hplain, -⟩ := q.unit.word_spec
  obtain ⟨d, ds, hdigits, hd⟩ := q.number.exists_digits
  have hnumber : ∀ c ∈ q.text.head?, isBlank c = false ∧ c ≠ '-' ∧ c ≠ '+' := by
    rw [text, hdigits]
    rintro c ⟨⟩
    refine ⟨isBlank_of_isDigit hd, ?_, ?_⟩
    all_goals
      rintro rfl
      cases hd
  have hunit : ∀ c ∈ q.unit.word.toList.head?, isBlank c = false := fun c hc ↦
    q.unit.solid_word.isBlank_of_mem c (List.mem_of_head? hc)
  have hword : ∀ c ∈ q.unit.word.toList, isWord c = true := fun c hc ↦ (mem_plain hplain c hc).1
  unfold Offset.scan
  split
  rename_i s cs heq
  have hsign : s = signText sign ∧ cs = List.replicate gap ' ' ++ q.text := by
    rcases sign with _ | _ | _
    · have hhead : ∀ c ∈ (List.replicate gap ' ' ++ q.text).head?, c ≠ '-' ∧ c ≠ '+' := by
        intro c hc
        rcases head?_replicate_append hc with rfl | hc
        · decide
        · exact (hnumber c hc).2
      rw [signText, List.nil_append] at heq
      split at heq
      · rename_i hminus
        exact absurd rfl (hhead '-' (by rw [hminus]; rfl)).1
      · rename_i hplus
        exact absurd rfl (hhead '+' (by rw [hplus]; rfl)).2
      · cases heq
        exact ⟨rfl, rfl⟩
    · cases heq
      exact ⟨rfl, rfl⟩
    · cases heq
      exact ⟨rfl, rfl⟩
  obtain ⟨rfl, rfl⟩ := hsign
  rw [takeWhile_isBlank_replicate fun c hc ↦ (hnumber c hc).1,
    dropWhile_isBlank_replicate fun c hc ↦ (hnumber c hc).1, q.scanNumber_text]
  dsimp only
  rw [dropWhile_isBlank_replicate hunit, List.takeWhile_eq_self_iff.2 hword,
    List.dropWhile_eq_nil_iff.2 hword]

theorem read?_text (sign : Option Sign) (gap : Nat) (hlt : q.counted < twoTo 53) :
    Offset.read? (signText sign ++ (List.replicate gap ' ' ++ q.text)) =
      .ok (some (.whole (sign = some .minus) q.counted)) := by
  obtain ⟨x, hx⟩ := q.number.exists_readFloat? sign
  have hfilter : (signText sign ++ List.replicate gap ' ' ++ q.number.numeral.digits).filter
      (· ≠ ' ') = signText sign ++ q.number.numeral.digits := by
    have hdigits : q.number.numeral.digits.filter (· ≠ ' ') = q.number.numeral.digits := by
      refine List.filter_eq_self.2 fun c hc ↦ ?_
      have hne : c ≠ ' ' := by
        rintro rfl
        cases q.number.isDigit_of_mem _ hc
      simpa using hne
    rw [List.filter_append, List.filter_append, hdigits]
    rcases sign with _ | _ | _ <;> simp [signText]
  have hminus : decide (signText sign = ['-']) = decide (sign = some .minus) := by
    rcases sign with _ | _ | _ <;> decide
  unfold Offset.read?
  rw [sole?_of_scan (q.scan_text sign gap) rfl]
  unfold Offset.Scan.offset
  simp only [hfilter, hx, q.unit.word_spec.1, hminus]
  rw [if_pos]
  · rfl
  · simpa using ⟨q.number.isDigit_of_mem, hlt⟩

end QuantityForm

/-- A sign and an amount, with spaces between them. -/
structure OffsetForm where
  sign : Sign
  gap : Nat
  amount : QuantityForm 0 999999

namespace OffsetForm

variable (o : OffsetForm)

def text : List Char := signText (some o.sign) ++ (List.replicate o.gap ' ' ++ o.amount.text)

def duration (seconds : Nat) : Duration :=
  (if o.sign = .minus then -(seconds : Int) else seconds) * second

theorem read?_text :
    Offset.read? o.text = .ok (some (.whole (o.sign = .minus) o.amount.counted)) := by
  have hlt : o.amount.counted < twoTo 53 := Nat.lt_of_le_of_lt o.amount.counted_le (by decide)
  rw [text, o.amount.read?_text _ _ hlt]
  simp only [Option.some_inj]

theorem toDuration_counted :
    Offset.toDuration (.whole (o.sign = .minus) o.amount.counted) =
      .ok (o.duration o.amount.counted) := by
  have hle := o.amount.counted_le
  unfold Offset.toDuration Duration.ofWhole duration
  simp only [decide_eq_true_eq]
  rw [Duration.checked_of_le]
  simp only [day_eq, second]
  split <;> omega

theorem strip_text : strip o.text = o.text := by
  have hsign : Solid (signText (some o.sign)) := by
    cases o.sign with
    | plus => exact ⟨by decide, List.forall_mem_singleton.2 (by decide)⟩
    | minus => exact ⟨by decide, List.forall_mem_singleton.2 (by decide)⟩
  exact strip_append_of_solid hsign (o.amount.isBlank_last _)

theorem resolve_offset {sun : Sun} {shift : Days} {now : Moment} {day : DayPart}
    {clock clock' : ClockPart} {x : Reading Duration} (h : resolveClock sun clock = some <$> x)
    (h' : resolveClock sun clock' = some <$> x) :
    resolve sun shift now ⟨day, clock', some o.text⟩ =
      resolve sun shift now ⟨day, clock, none⟩ >>= fun m ↦
        lift (m.add (o.duration o.amount.counted)) := by
  unfold resolve
  simp only [h, h', bind_assoc, bind_map_left]
  refine bind_congr fun midnight ↦ bind_congr fun c ↦ bind_congr fun m ↦ ?_
  rw [o.read?_text, lift_ok, pure_bind, pure_bind]
  dsimp only
  rw [o.toDuration_counted]
  rfl

end OffsetForm

/-! ### Texts with an offset -/

namespace DateTime

variable {event : Option Moment}

theorem exists_sunEvent (h : event ≠ none) :
    ∃ x : Reading Duration, ∀ text, resolveClock.sunEvent event text = some <$> x := by
  obtain ⟨m, rfl⟩ := Option.ne_none_iff_exists'.1 h
  refine ⟨lift (sunClock m), fun text ↦ ?_⟩
  rw [map_eq_pure_bind]
  rfl

theorem sunEvent_of_not (h : ¬ event ≠ none) (text : List Char) :
    resolveClock.sunEvent event text = (do
    warn ("'" ++ String.ofList text ++ "' not defined at this latitude")
    pure none) := by
  rw [not_ne_iff.1 h]
  rfl

end DateTime

namespace TimeName

variable (t : TimeName)

theorem exists_resolveClock {sun : Sun} (h : t.Defined sun) :
    ∃ x : Reading Duration, ∀ rest, resolveClock sun (t.part rest) = some <$> x := by
  cases t with
  | clock f => exact ⟨pure f.micros, fun rest ↦ f.resolveClock_part sun⟩
  | word w letters spelled =>
    cases w with
    | sunrise => exact (exists_sunEvent h).imp fun x hx rest ↦ hx _
    | sunset => exact (exists_sunEvent h).imp fun x hx rest ↦ hx _
    | noon => exact ⟨pure (12 * Calendar.hour : Nat), fun rest ↦ rfl⟩
    | midnight => exact ⟨pure 0, fun rest ↦ rfl⟩

theorem resolveClock_of_not_defined {sun : Sun} (h : ¬ t.Defined sun) (rest : List Char) :
    resolveClock sun (t.part rest) = (do
      warn ("'" ++ String.ofList (t.small ++ rest) ++ "' not defined at this latitude")
      pure none) := by
  cases t with
  | clock f => exact absurd trivial h
  | word w letters spelled =>
    cases w with
    | sunrise => exact sunEvent_of_not h _
    | sunset => exact sunEvent_of_not h _
    | noon => exact absurd trivial h
    | midnight => exact absurd trivial h

end TimeName

theorem OffsetForm.mem_text {o : OffsetForm} {c : Char} (hc : c ∈ ' ' :: o.text) :
    c ∈ [' ', '+', '-'] ∨ isDigit c = true ∨ 97 ≤ c.toNat ∧ c.toNat ≤ 122 := by
  have hsign : ∀ s : Sign, ∀ c ∈ signText (some s), c ∈ [' ', '+', '-'] := by
    intro s
    cases s <;> simp [signText]
  grind [text, o.amount.mem_text]

theorem OffsetForm.following (o : OffsetForm) : Following (' ' :: o.text) := by
  refine ⟨by simp, lower_of_forall fun c hc ↦ ?_, fun hc ↦ ?_, ?_⟩
  · rcases mem_text hc with hc | hc | hc
    · simp only [List.mem_cons, List.not_mem_nil, or_false] at hc
      rcases hc with rfl | rfl | rfl <;> decide
    · exact lowerChar_of_isDigit hc
    · exact lowerChar_of_letter hc
  · rcases mem_text hc with hc | hc | hc <;> exact absurd hc (by decide)
  · rw [text, ← List.cons_append, ← List.append_assoc]
    exact o.amount.isBlank_last _

namespace TimedForm

variable (f : TimedForm)

theorem moment_offset {sun : Sun} (h : f.time.Defined sun) (shift : Days) (now : Moment)
    (o : OffsetForm) : moment sun shift now (String.ofList (f.text ++ ' ' :: o.text)) =
      moment sun shift now (String.ofList f.text) >>= fun m ↦
        lift (m.add (o.duration o.amount.counted)) := by
  obtain ⟨x, hx⟩ := f.time.exists_resolveClock h
  have hplain := f.ofText_append .nil
  rw [List.append_nil] at hplain
  have hoffset : readOffset (afterSpace (' ' :: o.text)) = some o.text := by
    show readOffset (strip o.text) = some o.text
    rw [o.strip_text]
    obtain ⟨sign, gap, amount⟩ := o
    cases sign <;> rfl
  rw [moment, f.ofText_append o.following, hoffset, moment, hplain]
  exact o.resolve_offset (hx _) (hx _)

end TimedForm

/-- **An offset is added to the moment that is named without it.** The text names a time, with or
without a day in front, and goes on with a space, a sign and an amount. Every word for a unit means
its length but two: `minute` and `hour` mean one second. -/
theorem moment_shifted (sun : Sun) (shift : Days) (now : Moment) (f : TimedForm)
    (hdefined : f.time.Defined sun) (o : OffsetForm) :
    moment sun shift now (String.ofList (f.text ++ ' ' :: o.text)) = (do
      let m ← moment sun shift now (String.ofList f.text)
      lift (m.add (o.duration (o.amount.number.numeral.value *
        if o.amount.unit.word ∈ ["minute", "hour"] then 1 else o.amount.unit.unit.length)))) :=
  f.moment_offset hdefined shift now o

def tuesdaySunset : TimedForm :=
  ⟨some (DayForm.leading (.weekday tuesday) 1),
    .word .sunset ['S', 'u', 'n', 'S', 'e', 't'] (by decide)⟩

def sevenWeeks : OffsetForm :=
  ⟨.minus, 1, figure ['0', '7'] (by decide), 2, .week, "weeks", by decide⟩

theorem moment_shifted_sevenWeeks :
    String.ofList (tuesdaySunset.text ++ ' ' :: sevenWeeks.text) = "tUe  SunSet - 07  weeks" ∧
    tuesdaySunset.time.Defined ⟨none, some leapDayEnd⟩ ∧
    moment ⟨none, some leapDayEnd⟩ (.whole 0) leapDayEnd
        (String.ofList (tuesdaySunset.text ++ ' ' :: sevenWeeks.text)) = (do
      let m ← moment ⟨none, some leapDayEnd⟩ (.whole 0) leapDayEnd
        (String.ofList tuesdaySunset.text)
      lift (m.add (sevenWeeks.duration (sevenWeeks.amount.number.numeral.value *
        if sevenWeeks.amount.unit.word ∈ ["minute", "hour"] then 1
          else sevenWeeks.amount.unit.unit.length)))) :=
  ⟨by decide, Option.some_ne_none leapDayEnd,
    moment_shifted ⟨none, some leapDayEnd⟩ (.whole 0) leapDayEnd
    tuesdaySunset (Option.some_ne_none leapDayEnd) sevenWeeks⟩

def julyMidnight : Moment := ⟨63729158400000000, by decide⟩

def julyNoon : Moment := ⟨julyMidnight.ticks + 12 * hour, by decide⟩

/-- Five minutes and one hour after noon are read as the fifth and the first second after it. -/
theorem singular_unit_counts_seconds :
    ((moment {} (.whole 0) julyMidnight "12:00").run.run []).run = (.ok julyNoon, []) ∧
    ((moment {} (.whole 0) julyMidnight "12:00 + 5 minute").run.run []).run.1.map
      Moment.ticks = .ok (julyNoon.ticks + 5 * second) ∧
    ((moment {} (.whole 0) julyMidnight "12:00 + 1 hour").run.run []).run.1.map
      Moment.ticks = .ok (julyNoon.ticks + second) :=
  ⟨by decide, by decide, by decide⟩

end TriggerScript.Schedule
