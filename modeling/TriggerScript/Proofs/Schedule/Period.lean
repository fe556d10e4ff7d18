import TriggerScript.Proofs.Schedule.Offset
import TriggerScript.Proofs.Schedule.Once

/-!
# A specification with one period

The moments of `period(s, p sec, e)` are, for every day, the rounds `s`, `s + p`, `s + 2 p`, … that
are not after the end of the window opened on that day (`Admits`). The search looks at one window
only, that of `seen now`, and then at tomorrow's opening. This gives the least moment after `now`
except in the morning of a window over midnight that is still open and has no round left (`Skips`).
What is outside the calendar is refused (`Raises`).
-/

namespace TriggerScript.Schedule

open Calendar Text Reading Moment Duration
open Number (Numeral)

/-! ### Forms in a text -/

theorem cutComma_append {cs : List Char} (h : ',' ∉ cs) (rest : List Char) :
    cutComma (cs ++ ',' :: rest) = (cs, ',' :: rest) := by
  have hne : ∀ c ∈ cs, decide (c ≠ ',') = true := fun c hc ↦ by
    simpa using fun heq : c = ',' ↦ h (heq ▸ hc)
  rw [cutComma, List.takeWhile_append_of_pos hne, List.dropWhile_append_of_pos hne]
  simp

theorem cutComma_of_not_mem {cs : List Char} (h : ',' ∉ cs) : cutComma cs = (cs, []) := by
  have hne : ∀ c ∈ cs, decide (c ≠ ',') = true := fun c hc ↦ by
    simpa using fun heq : c = ',' ↦ h (heq ▸ hc)
  rw [cutComma, List.takeWhile_eq_self_iff.2 hne, List.dropWhile_eq_nil_iff.2 hne]

/-! ### The written entry -/

/-- An enclosed text that may stand between commas. -/
structure Listed (cs : List Char) : Prop extends Enclosed cs where
  comma_not_mem : ',' ∉ cs

theorem QuantityForm.listed {low high : Nat} (q : QuantityForm low high) : Listed q.text where
  parenthesis_not_mem h := by rcases q.mem_text h with h | h | h <;> exact absurd h (by decide)
  lineFeed_not_mem h := by rcases q.mem_text h with h | h | h <;> exact absurd h (by decide)
  strip_eq := strip_append_of_solid q.number.solid_digits (isBlank_getLast? q.unit.solid_word _)
  comma_not_mem h := by rcases q.mem_text h with h | h | h <;> exact absurd h (by decide)

def periodText (start interval : List Char) (stop : Option (List Char)) : String :=
  String.ofList ("period(".toList ++ (start ++ ',' :: (' ' :: interval ++
    (stop.elim [] (fun cs ↦ ',' :: ' ' :: cs) ++ [')']))))

theorem toList_periodText (start interval : List Char) (stop : Option (List Char)) :
    (periodText start interval stop).toList = "period(".toList ++ (start ++
      ',' :: (' ' :: interval ++ (stop.elim [] (fun cs ↦ ',' :: ' ' :: cs) ++ [')']))) := by
  unfold periodText
  exact String.toList_ofList

theorem trimmed_space {cs : List Char} (h : strip cs = cs) :
    trimmed (' ' :: cs) = String.ofList cs := by
  have hstrip : strip (' ' :: cs) = strip cs := rfl
  rw [trimmed, hstrip, h]

section Listed

variable {start interval : List Char} {stop : Option (List Char)} (hstart : Listed start)
  (hinterval : Listed interval) (hstop : ∀ cs ∈ stop, Listed cs)

include hstart hinterval hstop

theorem scanPeriod_periodText : scanPeriod (periodText start interval stop).toList =
    some (⟨start, ' ' :: interval, stop.map (' ' :: ·)⟩, []) := by
  have hspaced {cs : List Char} (h : Listed cs) : ',' ∉ ' ' :: cs := by simpa using h.comma_not_mem
  have hlast {cs : List Char} (h : Listed cs) : ',' ∉ ' ' :: cs ++ [')'] := by
    simpa using h.comma_not_mem
  unfold scanPeriod
  simp only [toList_periodText, after?_append, Option.bind_eq_bind, Option.bind_some,
    cutAt?_append hstart.comma_not_mem]
  cases stop with
  | none =>
    simp only [Option.elim_none, List.nil_append, cutComma_of_not_mem (hlast hinterval),
      cutAtLast?_append_singleton, Option.map_some, Option.map_none, List.append_nil]
  | some cs =>
    have hsecond : cutComma (' ' :: interval ++ (',' :: ' ' :: cs ++ [')'])) =
        (' ' :: interval, ',' :: (' ' :: cs ++ [')'])) := cutComma_append (hspaced hinterval) _
    simp only [Option.elim_some, hsecond, cutComma_of_not_mem (hlast (hstop cs rfl)),
      cutAtLast?_append_singleton, Option.map_some, List.append_nil]

theorem ofText_periodText : Entry.ofText (periodText start interval stop) =
    .period (String.ofList start) (String.ofList interval) (stop.map String.ofList) := by
  have hopen : '(' ∉ start ++
      ',' :: (' ' :: interval ++ (stop.elim [] (fun cs ↦ ',' :: ' ' :: cs) ++ [')'])) := by
    have := hstart.parenthesis_not_mem
    have := hinterval.parenthesis_not_mem
    cases stop with
    | none => simp_all
    | some cs =>
      have := (hstop cs rfl).parenthesis_not_mem
      simp_all
  have hcron : sole? scanCron (periodText start interval stop).toList = none := by
    rw [toList_periodText]
    exact @sole?_scanCron_of_opening "period".toList _ (by decide) hopen (by decide)
  have honce : sole? scanOnce (periodText start interval stop).toList = none := by
    rw [toList_periodText]
    refine sole?_eq_none fun suffix hs ↦ ?_
    rw [scanOnce, show after? "once(".toList suffix = none from
      @after?_of_opening "once".toList "period".toList _ _ hs (by decide) hopen (by decide)]
    rfl
  have hmap : (stop.map (' ' :: ·)).map trimmed = stop.map String.ofList := by
    cases stop with
    | none => rfl
    | some cs => exact congrArg some (trimmed_space (hstop cs rfl).strip_eq)
  unfold Entry.ofText
  simp only [hcron, honce, sole?_of_scan (scanPeriod_periodText hstart hinterval hstop) rfl, hmap,
    trimmed_space hinterval.strip_eq]
  rw [trimmed, hstart.strip_eq]

theorem next_periodText (sun : Sun) (now : Moment) :
    next sun [.text (periodText start interval stop)] now =
      nextOfPeriod sun now (String.ofList start)
      (String.ofList interval) (stop.map String.ofList) none := by
  rw [next, nextFrom, nextOfEntry, ofText_periodText hstart hinterval hstop]
  exact bind_pure _

end Listed

theorem ClockForm.listed_text (c : ClockForm) : Listed c.text where
  parenthesis_not_mem := c.not_mem_text (by decide) (by decide)
  lineFeed_not_mem := c.not_mem_text (by decide) (by decide)
  strip_eq := strip_of_solid c.solid_text
  comma_not_mem := c.not_mem_text (by decide) (by decide)

/-- A start, an interval in seconds and an end. -/
structure PeriodForm where
  start : ClockForm
  interval : Figure 1 9007199254740991
  stop : ClockForm

namespace PeriodForm

variable (f : PeriodForm)

def intervalText : List Char := f.interval.numeral.digits ++ " sec".toList

def written : String :=
  String.ofList ("period(".toList ++ (f.start.text ++ ',' :: (' ' :: f.intervalText ++ ',' ::
    (' ' :: f.stop.text ++ [')']))))

def amount : QuantityForm 1 9007199254740991 := ⟨f.interval, 1, .second, "sec", by decide⟩

theorem written_eq : f.written = periodText f.start.text f.amount.text (some f.stop.text) := by
  have hunit : " sec".toList = List.replicate 1 ' ' ++ "sec".toList := by decide
  unfold written periodText intervalText
  rw [hunit]
  rfl

def offset : Offset := .whole false f.interval.numeral.value

theorem read?_amount : Offset.read? f.amount.text = .ok (some f.offset) := by
  have hcounted : f.amount.counted = f.interval.numeral.value := Nat.mul_one _
  have hlt : f.amount.counted < Number.twoTo 53 :=
    hcounted ▸ Nat.lt_of_le_of_lt f.interval.le_high (by decide)
  have hread := f.amount.read?_text none 0 hlt
  rwa [hcounted] at hread

/-! ### Windows and their rounds -/

def step : Nat := f.interval.numeral.value * second

def opening (d : Int) : Int := d * day + f.start.micros

def closing (d : Int) : Int :=
  (if f.stop.micros < f.start.micros then d + 1 else d) * day + f.stop.micros

def round (d : Int) (k : Nat) : Int := f.opening d + k * f.step

/-- The moment is one of the rounds of some day. -/
def Admits (t : Moment) : Prop := ∃ d k : Nat, (t.ticks : Int) = f.round d k ∧
    f.round d k ≤ f.closing d

def Over (now : Moment) (d : Int) : Prop := ∀ k, (now.ticks : Int) < f.round d k →
    f.closing d < f.round d k

def seen (now : Moment) : Int :=
  if f.stop.micros < f.start.micros ∧ now.timeOfDay < f.stop.micros then now.dayCount - 1
    else now.dayCount

/-- After midnight, before the end, no round of yesterday is left. -/
def Skips (now : Moment) : Prop :=
  f.stop.micros < f.start.micros ∧ now.timeOfDay < f.stop.micros ∧ f.Over now (now.dayCount - 1)

/-- Some moment that is asked for lies outside the calendar. -/
def Raises (now : Moment) : Prop :=
  Outside (f.opening (f.seen now)) ∨ Outside (f.closing (f.seen now)) ∨
    (∀ k, (now.ticks : Int) < f.round (f.seen now) k → Outside (f.round (f.seen now) k)) ∨
    f.Over now (f.seen now) ∧ Outside (f.opening (now.dayCount + 1))

theorem step_pos : 0 < f.step := Nat.mul_pos f.interval.low_le (by decide)

theorem opening_le_closing (d : Int) : f.opening d ≤ f.closing d := by
  have := f.start.micros_lt
  simp only [opening, closing]
  split <;> simp only [day_eq] at * <;> omega

theorem closing_lt_opening {d d' : Int} (h : d < d') : f.closing d < f.opening d' := by
  have := f.stop.micros_lt
  simp only [opening, closing]
  split <;> simp only [day_eq] at * <;> omega

theorem opening_le_round (d : Int) (k : Nat) : f.opening d ≤ f.round d k := by
  have : (0 : Int) ≤ k * f.step := Int.mul_nonneg (Int.natCast_nonneg k) (Int.natCast_nonneg f.step)
  rw [round]
  omega

theorem round_mono (d : Int) {j k : Nat} (h : j ≤ k) : f.round d j ≤ f.round d k := by
  have : (j : Int) * f.step ≤ k * f.step :=
    Int.mul_le_mul_of_nonneg_right (Int.ofNat_le.2 h) (Int.natCast_nonneg f.step)
  rw [round, round]
  omega

theorem exists_round (now : Moment) (d : Int) :
    ∃ k, (now.ticks : Int) < f.round d k ∧ ∀ j, (now.ticks : Int) < f.round d j → k ≤ j := by
  have hsome : ∃ k, (now.ticks : Int) < f.round d k := by
    refine ⟨(now.ticks - f.opening d).toNat + 1, ?_⟩
    have hstep : (1 : Int) ≤ f.step := Int.ofNat_le.2 f.step_pos
    have hmul : (((now.ticks - f.opening d).toNat + 1 : Nat) : Int) * 1 ≤
        ((now.ticks - f.opening d).toNat + 1 : Nat) * f.step :=
      Int.mul_le_mul_of_nonneg_left hstep (Int.natCast_nonneg _)
    rw [round]
    omega
  exact ⟨Nat.find hsome, Nat.find_spec hsome, fun j hj ↦ Nat.find_min' hsome hj⟩

variable {f} {now : Moment}

theorem closing_le_of_lt_seen {d : Int} (h : d < f.seen now) : f.closing d ≤ now.ticks := by
  have hticks := now.ticks_eq_dayCount
  have := f.stop.micros_lt
  rw [seen] at h
  rw [closing]
  simp only [day_eq] at *
  split at h <;> split <;> omega

theorem lt_opening_seen : (now.ticks : Int) < f.opening (f.seen now + 1) := by
  have hticks := now.ticks_eq_dayCount
  have := now.timeOfDay_lt
  rw [opening, seen]
  simp only [day_eq] at *
  split <;> omega

theorem Admits.cases {t : Moment} (ht : f.Admits t) (hlt : now < t) :
    (∃ k, (t.ticks : Int) = f.round (f.seen now) k ∧
      f.round (f.seen now) k ≤ f.closing (f.seen now)) ∨ f.opening (f.seen now + 1) ≤ t.ticks := by
  obtain ⟨d, k, hticks, hle⟩ := ht
  have hlt : now.ticks < t.ticks := hlt
  rcases Int.lt_trichotomy d (f.seen now) with hd | hd | hd
  · have := closing_le_of_lt_seen hd
    omega
  · exact .inl ⟨k, hd ▸ hticks, hd ▸ hle⟩
  · have hopen := f.opening_le_round d k
    have hmono : f.opening (f.seen now + 1) ≤ f.opening d := by
      simp only [opening, day_eq]
      omega
    exact .inr (by omega)

theorem isLeast_of_round {t : Moment} {k : Nat} (hseen : 0 ≤ f.seen now)
    (ht : (t.ticks : Int) = f.round (f.seen now) k)
    (hclosing : f.round (f.seen now) k ≤ f.closing (f.seen now))
    (hlt : now < t) (hfirst : ∀ j, (now.ticks : Int) < f.round (f.seen now) j → k ≤ j) :
    IsLeast {t | now < t ∧ f.Admits t} t := by
  have hnat : ((f.seen now).toNat : Int) = f.seen now := Int.toNat_of_nonneg hseen
  refine ⟨⟨hlt, (f.seen now).toNat, k, hnat.symm ▸ ht, hnat.symm ▸ hclosing⟩, fun u hu ↦ ?_⟩
  show t.ticks ≤ u.ticks
  have hult : now.ticks < u.ticks := hu.1
  rcases hu.2.cases hu.1 with ⟨j, hj, -⟩ | hopen
  · have := f.round_mono (f.seen now) (hfirst j (by omega))
    omega
  · have := f.closing_lt_opening (Int.lt_succ (f.seen now))
    omega

theorem isLeast_of_over {t : Moment} (hover : f.Over now (f.seen now)) (hseen : 0 ≤ f.seen now + 1)
    (ht : (t.ticks : Int) = f.opening (f.seen now + 1)) : IsLeast {t | now < t ∧ f.Admits t} t := by
  have hnat : ((f.seen now + 1).toNat : Int) = f.seen now + 1 := Int.toNat_of_nonneg hseen
  have hround : f.round (f.seen now + 1) 0 = f.opening (f.seen now + 1) := by simp [round]
  have hlt : now.ticks < t.ticks := by
    have := @lt_opening_seen f now
    omega
  refine ⟨⟨hlt, (f.seen now + 1).toNat, 0, ?_, ?_⟩, fun u hu ↦ ?_⟩
  · rw [hnat, hround, ht]
  · rw [hnat, hround]
    exact f.opening_le_closing _
  · show t.ticks ≤ u.ticks
    have hult : now.ticks < u.ticks := hu.1
    rcases hu.2.cases hu.1 with ⟨j, hj, hle⟩ | hopen
    · have := hover j (by omega)
      omega
    · omega

end PeriodForm

/-! ### The round after a moment -/

theorem eq_of_checked {micros d : Int} (h : checked micros = .ok d) : d = micros := by
  unfold checked at h
  dsimp only at h
  split at h
  · cases h
  · split at h
    · cases h
    · cases h
      rfl

theorem exists_fdiv {elapsed step : Int} (h : 0 ≤ elapsed) (hstep : 0 < step) :
    ∃ k : Nat, elapsed.fdiv step = k ∧ k * step ≤ elapsed ∧ elapsed < (k + 1) * step := by
  rw [Int.fdiv_eq_ediv_of_nonneg _ (Int.le_of_lt hstep)]
  obtain ⟨k, hk⟩ := Int.eq_ofNat_of_zero_le (Int.ediv_nonneg h (Int.le_of_lt hstep))
  refine ⟨k, hk, hk ▸ Int.ediv_mul_le _ (Int.ne_of_gt hstep),
    hk ▸ Int.lt_ediv_add_one_mul_self _ hstep⟩

theorem checked_bind_add {start : Moment} {amount : Int} (hamount : 0 ≤ amount) :
    (Outside (start.ticks + amount) → ∃ fault, checked amount >>= start.add = .error fault) ∧
    (¬ Outside (start.ticks + amount) →
      ∃ t, checked amount >>= start.add = .ok t ∧ (t.ticks : Int) = start.ticks + amount) := by
  refine ⟨fun hout ↦ ?_, fun hin ↦ ?_⟩
  · cases hchecked : checked amount with
    | error fault => exact ⟨fault, rfl⟩
    | ok d =>
      obtain rfl := eq_of_checked hchecked
      exact ⟨.dateOutOfRange, (start.add_eq_reach d).trans (reach_of_outside hout)⟩
  · obtain ⟨t, ht, hticks⟩ := reach_of_not_outside hin
    -- what stays in the calendar is not too long to be counted
    have hchecked : checked amount = .ok amount := by
      refine checked_of_le ?_
      rw [Outside] at hin
      simp only [Date.lastDay, day_eq] at hin ⊢
      omega
    refine ⟨t, ?_, hticks⟩
    rw [hchecked, ← ht]
    exact start.add_eq_reach amount

theorem nextRound_whole {start now : Moment} {p : Nat} (hp : 0 < p) (hle : start ≤ now)
    (hnear : now.since start < (Number.twoTo 32 * second : Nat)) :
    ∃ k : Nat, (start.ticks : Int) + k * (p * second : Nat) ≤ now.ticks ∧
      (now.ticks : Int) < start.ticks + (k + 1 : Nat) * (p * second : Nat) ∧
      (Outside (start.ticks + (k + 1 : Nat) * (p * second : Nat)) →
        ∃ fault, nextRound start now (.whole false p) = .error fault) ∧
      (¬ Outside (start.ticks + (k + 1 : Nat) * (p * second : Nat)) →
        ∃ t, nextRound start now (.whole false p) = .ok t ∧
          (t.ticks : Int) = start.ticks + (k + 1 : Nat) * (p * second : Nat)) := by
  have hle : start.ticks ≤ now.ticks := hle
  have hsince : now.since start = now.ticks - start.ticks := rfl
  obtain ⟨k, hk, hbelow, habove⟩ := exists_fdiv (show 0 ≤ now.since start by omega)
    (Int.ofNat_lt.2 (Nat.mul_pos hp (show 0 < second by decide)))
  have hamount : ((p : Int) * (1 + (now.since start).fdiv (p * second : Nat))) * second =
      (k + 1 : Nat) * (p * second : Nat) := by
    rw [hk]
    push_cast
    ring
  have hround : nextRound start now (.whole false p) =
      checked ((k + 1 : Nat) * (p * second : Nat)) >>= start.add := by
    unfold nextRound
    dsimp only
    rw [if_pos hnear, ← hamount]
    rfl
  have hpassed : (now.since start) < (k + 1 : Nat) * (p * second : Nat) := by
    rw [Int.natCast_add]
    exact habove
  rw [hround]
  exact ⟨k, by omega, by omega, checked_bind_add (by omega)⟩

namespace PeriodForm

variable {f : PeriodForm} {now : Moment}

theorem nextRound_seen {start : Moment} (hstart : (start.ticks : Int) = f.opening (f.seen now))
    (hle : start ≤ now) {k : Nat} (hk : (now.ticks : Int) < f.round (f.seen now) k)
    (hfirst : ∀ j, (now.ticks : Int) < f.round (f.seen now) j → k ≤ j) :
    (Outside (f.round (f.seen now) k) → ∃ fault, nextRound start now f.offset = .error fault) ∧
    (¬ Outside (f.round (f.seen now) k) →
      ∃ t, nextRound start now f.offset = .ok t ∧ (t.ticks : Int) = f.round (f.seen now) k) := by
  have hnear : now.since start < (Number.twoTo 32 * second : Nat) := by
    have hticks := now.ticks_eq_dayCount
    have htime := now.timeOfDay_lt
    have hbound : (2 * day : Nat) < Number.twoTo 32 * second := by decide
    rw [since, hstart, opening, seen]
    simp only [day_eq] at *
    split <;> omega
  obtain ⟨j, hpassed, hnext, hround⟩ :=
    nextRound_whole (p := f.interval.numeral.value) f.interval.low_le hle hnear
  rw [hstart] at hpassed hnext hround
  obtain rfl : k = j + 1 := by
    refine Nat.le_antisymm (hfirst (j + 1) hnext) (Nat.lt_of_not_le fun hkj ↦ ?_)
    exact Int.not_lt.2 (Int.le_trans (f.round_mono (f.seen now) hkj) hpassed) hk
  exact hround

theorem periodWindow_eq (sun : Sun) (f : PeriodForm) (now : Moment) :
    periodWindow sun now (String.ofList f.start.text) (some (String.ofList f.stop.text)) =
      lift (do
        let start ← reach (f.opening (f.seen now))
        let stop ← reach (f.closing (f.seen now))
        pure (start, some stop)) := by
  have hday := now.dayCount_lt
  have htime := now.ticks_eq_dayCount
  have htoday {x : Nat} (hx : x < day) : ¬ Outside (now.dayCount * day + x) :=
    (outside_iff hx).not.2 (by omega)
  obtain ⟨start, hstart, hstartTicks⟩ := reach_of_not_outside (htoday f.start.micros_lt)
  obtain ⟨stop, hstop, hstopTicks⟩ := reach_of_not_outside (htoday f.stop.micros_lt)
  have hlt : stop < start ↔ f.stop.micros < f.start.micros := by
    show stop.ticks < start.ticks ↔ _
    omega
  have hle : stop ≤ now ↔ ¬ now.timeOfDay < f.stop.micros := by
    show stop.ticks ≤ now.ticks ↔ _
    omega
  unfold periodWindow
  rw [f.start.moment_text sun (by decide), Int.add_zero, hstart, lift_ok, pure_bind]
  dsimp only
  rw [f.stop.moment_text sun (by decide), Int.add_zero, hstop, lift_ok, pure_bind]
  by_cases hmidnight : f.stop.micros < f.start.micros
  · rw [if_pos (hlt.2 hmidnight), closing, if_pos hmidnight]
    by_cases hopen : now.timeOfDay < f.stop.micros
    · -- the window of yesterday closes today
      have hyesterday : (now.dayCount : Int) + -1 = now.dayCount - 1 := rfl
      rw [if_neg fun h ↦ hle.1 h hopen, f.start.moment_text sun (by decide), hyesterday, seen,
        if_pos ⟨hmidnight, hopen⟩, Int.sub_add_cancel, hstop, opening]
      cases reach ((now.dayCount - 1) * day + f.start.micros) <;> rfl
    · -- the window of today closes tomorrow
      rw [if_pos (hle.2 hopen), f.stop.moment_text sun (by decide), seen, if_neg fun h ↦
        hopen h.2, opening, hstart]
      cases reach ((now.dayCount + 1) * day + f.stop.micros) <;> rfl
  · rw [if_neg fun h ↦ hmidnight (hlt.1 h), closing, if_neg hmidnight, seen, if_neg fun h ↦
      hmidnight h.1, opening, hstart, hstop]
    rfl

theorem joinRound_eq (sun : Sun) (f : PeriodForm) {now t : Moment} (stop : Moment) (hlt : now < t) :
    joinRound sun now (String.ofList f.start.text) (some stop) none t =
      lift (if t ≤ stop then .ok (some t)
        else some <$> reach (f.opening (now.dayCount + 1))) := by
  have hlt' : now.ticks < t.ticks := hlt
  unfold joinRound
  dsimp only
  by_cases hle : t ≤ stop
  · have hle' : t.ticks ≤ stop.ticks := hle
    have hopen : ¬ stop ≤ now := by
      show ¬ stop.ticks ≤ now.ticks
      omega
    rw [if_pos hle, if_pos hle, sooner_of_lt hlt, if_neg (by simp [hopen])]
    rfl
  · rw [if_neg hle, if_neg hle, if_pos (.inl rfl), f.start.moment_text sun (by decide)]
    show (lift (reach (f.opening (now.dayCount + 1))) >>= _) = _
    by_cases hout : Outside (f.opening (now.dayCount + 1))
    · rw [reach_of_outside hout]
      rfl
    · obtain ⟨u, hu, hticks⟩ := reach_of_not_outside hout
      have hlater : now < u := by
        have htime := now.ticks_eq_dayCount
        have := now.timeOfDay_lt
        show now.ticks < u.ticks
        rw [opening] at hticks
        simp only [day_eq] at *
        omega
      rw [hu, lift_ok, pure_bind, sooner_of_lt hlater]
      rfl

theorem next_written (sun : Sun) (f : PeriodForm) (now : Moment) :
    next sun [.text f.written] now = nextOfPeriod sun now (String.ofList f.start.text)
      (String.ofList f.amount.text) (some (String.ofList f.stop.text)) none := by
  rw [f.written_eq]
  exact next_periodText f.start.listed_text f.amount.listed (fun cs h ↦
    Option.some.inj h ▸ f.stop.listed_text) sun now

theorem next_eq (sun : Sun) {f : PeriodForm} {now start stop : Moment}
    (hstart : reach (f.opening (f.seen now)) = .ok start)
    (hstop : reach (f.closing (f.seen now)) = .ok stop)
    (hlater : ¬ now < start → ∀ t, nextRound start now f.offset = .ok t → now < t) :
    next sun [.text f.written] now =
      if now < start then pure (some start)
      else lift (do
        let t ← nextRound start now f.offset
        if t ≤ stop then .ok (some t)
          else some <$> reach (f.opening (now.dayCount + 1))) := by
  have hpositive : isPositive f.offset = true := by
    have hlow := f.interval.low_le
    simp [offset, isPositive]
    omega
  rw [f.next_written]
  unfold nextOfPeriod
  rw [f.periodWindow_eq, hstart, hstop]
  show (lift (Offset.read? (String.ofList f.amount.text).toList) >>= _) = _
  rw [String.toList_ofList, f.read?_amount, lift_ok, pure_bind]
  unfold joinRounds
  by_cases hlt : now < start
  · have hnot : ¬ (start ≤ now ∧ isPositive f.offset = true) :=
      fun h ↦ Nat.not_le.2 hlt h.1
    rw [if_pos hlt, sooner_of_lt hlt]
    dsimp only
    rw [if_neg hnot]
  · rw [if_neg hlt, sooner_of_not_lt hlt]
    dsimp only
    rw [if_pos ⟨Nat.not_lt.1 hlt, hpositive⟩]
    cases hround : nextRound start now f.offset with
    | error fault => rfl
    | ok t =>
      rw [lift_ok, pure_bind, f.joinRound_eq sun stop (hlater hlt t hround)]
      rfl

/-! ### The next moment -/

section First

variable {d : Int} {k : Nat} (hk : (now.ticks : Int) < f.round d k)
  (hfirst : ∀ j, (now.ticks : Int) < f.round d j → k ≤ j)

include hk hfirst

theorem over_iff : f.Over now d ↔ f.closing d < f.round d k :=
  ⟨fun h ↦ h k hk, fun h j hj ↦ Int.lt_of_lt_of_le h (f.round_mono d (hfirst j hj))⟩

theorem forall_outside_iff :
    (∀ j, (now.ticks : Int) < f.round d j → Outside (f.round d j)) ↔ Outside (f.round d k) := by
  refine ⟨fun h ↦ h k hk, fun h j hj ↦ ?_⟩
  have hmono := f.round_mono d (hfirst j hj)
  rw [Outside] at h ⊢
  omega

end First

theorem seen_nonneg (h : ¬ Outside (f.opening (f.seen now))) : 0 ≤ f.seen now := by
  have := (outside_iff f.start.micros_lt).not.1 h
  omega

section Open

variable (sun : Sun) {start stop : Moment}
  (hstart : reach (f.opening (f.seen now)) = .ok start)
  (hstop : reach (f.closing (f.seen now)) = .ok stop)

include hstart hstop

theorem next_of_lt (h : now < start) : next sun [.text f.written] now = pure (some start) := by
  rw [next_eq sun hstart hstop fun hopened ↦ absurd h hopened, if_pos h]

variable {k : Nat} (hk : (now.ticks : Int) < f.round (f.seen now) k)
  (hfirst : ∀ j, (now.ticks : Int) < f.round (f.seen now) j → k ≤ j)
  (hstartTicks : (start.ticks : Int) = f.opening (f.seen now)) (hopened : ¬ now < start)

include hk hfirst hstartTicks hopened

theorem next_of_outside (hout : Outside (f.round (f.seen now) k)) :
    ∃ fault, next sun [.text f.written] now = throw fault := by
  obtain ⟨fault, hfault⟩ := (nextRound_seen hstartTicks (Nat.not_lt.1 hopened) hk hfirst).1 hout
  have hlater : ∀ t, nextRound start now f.offset = .ok t → now < t := by
    intro t ht
    rw [hfault] at ht
    cases ht
  refine ⟨fault, ?_⟩
  rw [next_eq sun hstart hstop fun _ ↦ hlater, if_neg hopened, hfault]
  rfl

theorem next_of_inside (hin : ¬ Outside (f.round (f.seen now) k)) :
    ∃ t : Moment, (t.ticks : Int) = f.round (f.seen now) k ∧ now < t ∧
      next sun [.text f.written] now = lift (if t ≤ stop then .ok (some t)
        else some <$> reach (f.opening (now.dayCount + 1))) := by
  obtain ⟨t, ht, hticks⟩ := (nextRound_seen hstartTicks (Nat.not_lt.1 hopened) hk hfirst).2 hin
  have hlt : now < t := by
    show now.ticks < t.ticks
    omega
  have hlater : ∀ u, nextRound start now f.offset = .ok u → now < u := by
    intro u hu
    obtain rfl : t = u := Except.ok.inj (ht.symm.trans hu)
    exact hlt
  refine ⟨t, hticks, hlt, ?_⟩
  rw [next_eq sun hstart hstop fun _ ↦ hlater, if_neg hopened, ht]
  rfl

end Open

theorem next_outcome (sun : Sun) (f : PeriodForm) (now : Moment) :
    (f.Raises now → ∃ fault, next sun [.text f.written] now = throw fault) ∧
    (¬ f.Raises now → ∃ t, next sun [.text f.written] now = pure (some t) ∧
      (f.Over now (f.seen now) ∧ (t.ticks : Int) = f.opening (now.dayCount + 1) ∨
        ¬ f.Over now (f.seen now) ∧ IsLeast {t | now < t ∧ f.Admits t} t)) := by
  obtain ⟨k, hk, hfirst⟩ := f.exists_round now (f.seen now)
  rw [Raises, forall_outside_iff hk hfirst, over_iff hk hfirst]
  by_cases hstart : Outside (f.opening (f.seen now))
  · refine ⟨fun _ ↦ ⟨.dateOutOfRange, ?_⟩, fun h ↦ absurd (.inl hstart) h⟩
    rw [f.next_written]
    unfold nextOfPeriod
    rw [f.periodWindow_eq, reach_of_outside hstart]
    rfl
  obtain ⟨start, hreach, hstartTicks⟩ := reach_of_not_outside hstart
  by_cases hstop : Outside (f.closing (f.seen now))
  · refine ⟨fun _ ↦ ⟨.dateOutOfRange, ?_⟩, fun h ↦ absurd (.inr (.inl hstop)) h⟩
    rw [f.next_written]
    unfold nextOfPeriod
    rw [f.periodWindow_eq, hreach, reach_of_outside hstop]
    rfl
  obtain ⟨stop, hreach', hstopTicks⟩ := reach_of_not_outside hstop
  rw [or_iff_right hstart, or_iff_right hstop]
  by_cases hopened : now < start
  · -- the first round is the opening
    have hlt : now.ticks < start.ticks := hopened
    have hzero : f.round (f.seen now) 0 = start.ticks := by simp [round, hstartTicks]
    obtain rfl : k = 0 := Nat.le_zero.1 (hfirst 0 (by omega))
    have hclosing : f.round (f.seen now) 0 ≤ f.closing (f.seen now) := by
      rw [hzero, hstartTicks]
      exact f.opening_le_closing _
    have hover : ¬ f.closing (f.seen now) < f.round (f.seen now) 0 := Int.not_lt.2 hclosing
    refine ⟨?_, fun _ ↦ ⟨start, next_of_lt sun hreach hreach' hopened, .inr ⟨hover,
      isLeast_of_round (seen_nonneg hstart) hzero.symm hclosing hopened hfirst⟩⟩⟩
    rintro (h | h)
    · exact absurd (hzero ▸ h) start.not_outside_ticks
    · exact absurd h.1 hover
  by_cases hout : Outside (f.round (f.seen now) k)
  · exact ⟨fun _ ↦ next_of_outside sun hreach hreach' hk hfirst hstartTicks hopened hout,
      fun h ↦ absurd (.inl hout) h⟩
  obtain ⟨t, hticks, hlt, heq⟩ :=
    next_of_inside sun hreach hreach' hk hfirst hstartTicks hopened hout
  rw [heq]
  by_cases hclosing : f.round (f.seen now) k ≤ f.closing (f.seen now)
  · have hle : t ≤ stop := by
      show t.ticks ≤ stop.ticks
      omega
    have hover : ¬ f.closing (f.seen now) < f.round (f.seen now) k := Int.not_lt.2 hclosing
    rw [if_pos hle]
    have hleast := isLeast_of_round (seen_nonneg hstart) hticks hclosing hlt hfirst
    refine ⟨?_, fun _ ↦ ⟨t, rfl, .inr ⟨hover, hleast⟩⟩⟩
    rintro (h | h)
    · exact absurd h hout
    · exact absurd h.1 hover
  · have hle : ¬ t ≤ stop := by
      show ¬ t.ticks ≤ stop.ticks
      omega
    have hover : f.closing (f.seen now) < f.round (f.seen now) k := Int.not_le.1 hclosing
    rw [if_neg hle]
    by_cases htomorrow : Outside (f.opening (now.dayCount + 1))
    · rw [reach_of_outside htomorrow]
      exact ⟨fun _ ↦ ⟨.dateOutOfRange, rfl⟩, fun h ↦ absurd (.inr ⟨hover, htomorrow⟩) h⟩
    · obtain ⟨u, hu, huTicks⟩ := reach_of_not_outside htomorrow
      rw [hu]
      refine ⟨?_, fun _ ↦ ⟨u, rfl, .inl ⟨hover, huTicks⟩⟩⟩
      rintro (h | h)
      · exact absurd h hout
      · exact absurd h.2 htomorrow

theorem isLeast_of_skips (h : f.Skips now) {t : Moment}
    (ht : (t.ticks : Int) = f.opening now.dayCount) : IsLeast {t | now < t ∧ f.Admits t} t := by
  have hseen : f.seen now = now.dayCount - 1 := if_pos ⟨h.1, h.2.1⟩
  have hnext : f.seen now + 1 = now.dayCount := by omega
  refine isLeast_of_over (hseen ▸ h.2.2) (by omega) ?_
  rw [hnext, ht]

theorem skips_iff : f.Skips now ↔ f.Over now (f.seen now) ∧ f.seen now ≠ now.dayCount := by
  unfold Skips seen
  split
  · rename_i h
    exact ⟨fun hs ↦ ⟨hs.2.2, by omega⟩, fun hs ↦ ⟨h.1, h.2, hs.1⟩⟩
  · rename_i h
    exact ⟨fun hs ↦ absurd ⟨hs.1, hs.2.1⟩ h, fun hs ↦ absurd rfl hs.2⟩

theorem not_outside_opening {d : Nat} (h : ¬ Outside (f.opening (d + 1))) :
    ¬ Outside (f.opening d) := by
  have hiff {d : Int} : Outside (f.opening d) ↔ _ := outside_iff f.start.micros_lt
  rw [hiff] at h ⊢
  omega

end PeriodForm

/-- The answer is the least moment of the period after `now` unless the window of last night is
still open without a round left, when it is a day late, or the calendar does not have what is looked
at. -/
theorem next_period_isLeast_iff (sun : Sun) (f : PeriodForm) (now : Moment) :
    ((∃ t, next sun [.text f.written] now = pure (some t) ∧ IsLeast {t | now < t ∧ f.Admits t} t) ↔
      ¬ f.Skips now ∧ ¬ f.Raises now) ∧
    (f.Skips now → ¬ f.Raises now → ∃ t u, next sun [.text f.written] now = pure (some t) ∧
      IsLeast {t | now < t ∧ f.Admits t} u ∧ t.ticks = u.ticks + day) ∧
    (f.Raises now → ∃ fault, next sun [.text f.written] now = throw fault) := by
  obtain ⟨hraises, hanswer⟩ := f.next_outcome sun now
  have hlate (hs : f.Skips now) (hr : ¬ f.Raises now) :
      ∃ t u, next sun [.text f.written] now = pure (some t) ∧
        IsLeast {t | now < t ∧ f.Admits t} u ∧ t.ticks = u.ticks + day := by
    have hover := (PeriodForm.skips_iff.1 hs).1
    obtain ⟨t, ht, ⟨-, hticks⟩ | ⟨hleft, -⟩⟩ := hanswer hr
    · have htomorrow : ¬ Outside (f.opening (now.dayCount + 1)) := fun hout ↦
        hr (.inr (.inr (.inr ⟨hover, hout⟩)))
      obtain ⟨u, -, hu⟩ := reach_of_not_outside (PeriodForm.not_outside_opening htomorrow)
      refine ⟨t, u, ht, PeriodForm.isLeast_of_skips hs hu, ?_⟩
      have : f.opening (now.dayCount + 1) = f.opening now.dayCount + day := by
        rw [PeriodForm.opening, PeriodForm.opening, Int.add_mul]
        omega
      omega
    · exact absurd hover hleft
  refine ⟨⟨?_, ?_⟩, hlate, hraises⟩
  · rintro ⟨t, ht, hleast⟩
    have hr : ¬ f.Raises now := by
      intro hr
      obtain ⟨fault, hfault⟩ := hraises hr
      cases congrArg outcome (hfault.symm.trans ht)
    refine ⟨fun hs ↦ ?_, hr⟩
    -- the answer is a day after the least moment, so it is not that moment
    obtain ⟨t', u, ht', hu, hday⟩ := hlate hs hr
    obtain rfl : t' = t := Option.some.inj (Except.ok.inj (congrArg outcome (ht'.symm.trans ht)))
    have hle : t'.ticks ≤ u.ticks := hleast.2 hu.1
    simp only [day_eq] at hday
    omega
  · rintro ⟨hs, hr⟩
    obtain ⟨t, ht, ⟨hover, hticks⟩ | ⟨-, hleast⟩⟩ := hanswer hr
    · have hseen : f.seen now = now.dayCount := by
        by_contra hne
        exact hs (PeriodForm.skips_iff.2 ⟨hover, hne⟩)
      exact ⟨t, ht, PeriodForm.isLeast_of_over hover (by omega) (hseen.symm ▸ hticks)⟩
    · exact ⟨t, ht, hleast⟩

def nightWatch : PeriodForm where
  start := ⟨figure "22".toList (by decide), figure "00".toList (by decide)⟩
  interval := figure "10800".toList (by decide)
  stop := ⟨figure "2".toList (by decide), figure "00".toList (by decide)⟩

def julyNight : Moment := ⟨63729163800000000, by decide⟩

def firstEvening : Moment := ⟨63729237600000000, by decide⟩

def secondEvening : Moment := ⟨63729324000000000, by decide⟩

/-- After the last round of a night the coming evening is passed over. -/
theorem evening_passed_over :
    nightWatch.written = "period(22:00, 10800 sec, 2:00)" ∧
      ((next {} [.text "period(22:00, 10800 sec, 2:00)"] julyNight).run.run []).run =
        (.ok (some secondEvening), []) ∧
      nightWatch.Admits firstEvening ∧ julyNight < firstEvening ∧ firstEvening < secondEvening := by
  refine ⟨by decide, by decide, ⟨737606, 0, ?_, ?_⟩, by decide, by decide⟩
  · decide
  · decide

end TriggerScript.Schedule
