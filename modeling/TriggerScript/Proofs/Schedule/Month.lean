import TriggerScript.Proofs.Calendar.Clock
import TriggerScript.Proofs.Schedule.Field

/-!
# The search for a month

The months of a month field are gone through in order until one is long enough for a given day.
Every step goes at least one month ahead and passes over no month of the field (`nextMonth_least`),
so a search that fails has seen all candidates of eight years (`Cron.seekMonth_text`). These hold a
leap year (`exists_longMonth`).
-/

namespace TriggerScript.Schedule

open Calendar

theorem Picks.of_emod_add {S : Int → Prop} {radix start n k : Int} (hS : ∀ x, S x → k ≤ x)
    (hradix : start = radix → ∀ x, S x → x < radix + k) (h0 : 0 ≤ start) (h1 : start ≤ radix)
    (h : Picks S (start % radix + k) n) : Picks S (start + k) n := by
  rcases eq_or_lt_of_le h1 with rfl | hlt
  · rw [Int.emod_self, zero_add] at h
    exact ⟨h.mem, .inr fun x hx ↦ ⟨hradix rfl x hx, h.le_of_bound hx hS⟩⟩
  · rwa [Int.emod_eq_of_lt h0 hlt] at h

theorem Picks.of_emod {S : Int → Prop} {radix start n : Int} (hS : ∀ x, S x → 0 ≤ x ∧ x < radix)
    (h0 : 0 ≤ start) (h1 : start ≤ radix) (h : Picks S (start % radix) n) : Picks S start n := by
  simpa using of_emod_add (fun x hx ↦ (hS x hx).1) (fun _ x hx ↦ by simpa using (hS x hx).2) h0 h1
    (by simpa using h)

/-! ### One month further -/

theorem nextMonth_least {S : Int → Prop} (year : Int) (hS : ∀ x, S x → 1 ≤ x ∧ x ≤ 12)
    {month next : Int} (hm : 1 ≤ month) (hm' : month ≤ 12) (h : Picks S (month % 12 + 1) next) :
    12 * year + month < 12 * (if next ≤ month then year + 1 else year) + next ∧
      ∀ z k, S k → 12 * year + month < 12 * z + k →
        12 * (if next ≤ month then year + 1 else year) + next ≤ 12 * z + k := by
  have hpick : Picks S (month + 1) next :=
    h.of_emod_add (fun x hx ↦ (hS x hx).1) (fun _ x hx ↦ Int.lt_add_one_of_le (hS x hx).2)
      (by omega) hm'
  have hnext := hS next hpick.mem
  split
  · rename_i hle
    refine ⟨by omega, fun z k hk hlt ↦ ?_⟩
    have hwrap := hpick.of_lt (by omega) hk
    have hbounds := hS k hk
    omega
  · rename_i hgt
    refine ⟨by omega, fun z k hk hlt ↦ ?_⟩
    have hbounds := hS k hk
    rcases le_or_gt (month + 1) k with hle | hlt'
    · have := hpick.le_of_le hk hle
      omega
    · omega

namespace Cron

theorem daysInMonth_eq {month : Nat} (year : Nat) (h1 : 1 ≤ month) (h2 : month ≤ 12) :
    daysInMonth month year = pure (monthLength year month : Int) := by
  have hlength : daysInMonth? month year = some (monthLength year month) := by
    simp only [daysInMonth?, monthLength, monthLengths]
    interval_cases month <;> cases isLeapYear year <;> simp
  simp only [daysInMonth, hlength]

theorem seekMonth_text {c : Cron} {f : Form 1 12} (hc : c.month = f.text) (mday : Int) (n : Nat)
    {month year : Nat} (hm : 1 ≤ month) (hm' : month ≤ 12) :
    (c.seekMonth mday n month year = pure none ∧
        ∀ z k : Nat, f.Admits k → mday ≤ monthLength z k → 12 * year + month < 12 * z + k →
          12 * year + month + n < 12 * z + k) ∨
      ∃ y m : Nat, c.seekMonth mday n month year = pure (some ((m : Int), (y : Int))) ∧
        f.Admits m ∧ mday ≤ monthLength y m ∧ 12 * year + month < 12 * y + m ∧
        ∀ z k : Nat, f.Admits k → mday ≤ monthLength z k → 12 * year + month < 12 * z + k →
          12 * y + m ≤ 12 * z + k := by
  induction n generalizing month year with
  | zero => exact .inl ⟨rfl, fun z k _ _ h ↦ h⟩
  | succ n ih =>
    obtain ⟨next, hread, hpick⟩ :=
      f.atLeast_text (by decide) ((month : Int) % 12 + 1) (by omega) (by omega)
    obtain ⟨k, rfl⟩ : ∃ k : Nat, next = k := ⟨next.toNat, by have := f.bounds hpick.mem; omega⟩
    obtain ⟨y, hy⟩ : ∃ y : Nat, (if (k : Int) ≤ month then (year : Int) + 1 else year) = y := by
      split
      · exact ⟨year + 1, by omega⟩
      · exact ⟨year, rfl⟩
    have hk := f.bounds hpick.mem
    obtain ⟨hlater, hleast⟩ :=
      nextMonth_least (year : Int) (fun x hx ↦ f.bounds hx) (by omega) (by omega) hpick
    rw [hy] at hlater hleast
    have hstep : c.seekMonth mday (n + 1) month year =
        if mday ≤ (monthLength y k : Int) then pure (some ((k : Int), (y : Int)))
        else c.seekMonth mday n k y := by
      simp only [seekMonth, hc, hread, pure_bind, hy,
        daysInMonth_eq y (show 1 ≤ k by omega) (show k ≤ 12 by omega)]
    rw [hstep]
    by_cases hfits : mday ≤ (monthLength y k : Int)
    · rw [if_pos hfits]
      refine .inr ⟨y, k, rfl, hpick.mem, hfits, by omega, fun z j hj _ hlt ↦ ?_⟩
      have := hleast z j hj (by omega)
      omega
    · rw [if_neg hfits]
      -- a month that is long enough is not the one just seen, so it comes after it
      have hskip : ∀ z j : Nat, f.Admits j → mday ≤ monthLength z j →
          12 * year + month < 12 * z + j → 12 * y + k < 12 * z + j := by
        intro z j hj hlong hlt
        have hle := hleast z j hj (by omega)
        have hb := f.bounds hj
        rcases lt_or_eq_of_le hle with h | h
        · omega
        · obtain ⟨rfl, rfl⟩ : j = k ∧ z = y := by omega
          exact absurd hlong hfits
      rcases @ih k y (by omega) (by omega) with ⟨hnone, hbeyond⟩ |
        ⟨y', m, hsome, hadmits, hlong, hafter, hfirst⟩
      · refine .inl ⟨hnone, fun z j hj hlong hlt ↦ ?_⟩
        have := hbeyond z j hj hlong (hskip z j hj hlong hlt)
        omega
      · refine .inr ⟨y', m, hsome, hadmits, hlong, by omega, fun z j hj hlong' hlt ↦ ?_⟩
        exact hfirst z j hj hlong' (hskip z j hj hlong' hlt)

end Cron

/-! ### Eight years are enough -/

theorem exists_leapYear (year : Nat) : ∃ i, i < 8 ∧ isLeapYear (year + i : Nat) = true := by
  simp only [isLeapYear_iff]
  rcases Nat.lt_or_ge 0 ((year + (4 - year % 4) % 4) % 100) with h | h
  · exact ⟨(4 - year % 4) % 4, by omega, .inl ⟨by omega, by omega⟩⟩
  · exact ⟨(4 - year % 4) % 4 + 4, by omega, .inl ⟨by omega, by omega⟩⟩

theorem exists_longMonth {z k year month : Nat} {mday : Int} (hm' : month ≤ 12) (hm : 1 ≤ month)
    (hk : 1 ≤ k) (hk' : k ≤ 12) (h : mday ≤ monthLength z k) :
    ∃ y, mday ≤ monthLength y k ∧ 12 * year + month < 12 * y + k ∧
      12 * y + k ≤ 12 * year + month + 96 := by
  -- the first of the eight years is this one unless its month has passed
  obtain ⟨first, hfirst⟩ : ∃ first, first = if k ≤ month then year + 1 else year := ⟨_, rfl⟩
  obtain ⟨i, hi, hleap⟩ := exists_leapYear first
  refine ⟨first + i, ?_, ?_, ?_⟩
  · by_cases h2 : k = 2
    · subst h2
      rw [monthLength_two, if_pos hleap]
      rw [monthLength_two] at h
      split at h <;> omega
    · rwa [monthLength_eq_of_ne_two _ z h2]
  all_goals split at hfirst <;> omega

end TriggerScript.Schedule
