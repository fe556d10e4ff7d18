import Mathlib.Data.List.TakeWhile
import Mathlib.Order.Bounds.Basic
import Mathlib.Tactic.Push
import TriggerScript.Schedule.Cron

/-!
# The numbers of a cron field

A field has a text and a set of numbers. A pick from the text answers with the least number of the
set from the asked one on or, when there is none, with the least number of the set
(`Form.atLeast_text`). A list may also be asked for a number that lies outside the field
(`Form.list_pick_isLeast`).
-/

namespace TriggerScript.Schedule

open Text Schedule.Field

/-! ### Picks from a set -/

/-- The least number of `S` from `start` on or, when there is none, the least of all. -/
structure Picks (S : Int → Prop) (start n : Int) : Prop where
  mem : S n
  least : (start ≤ n ∧ ∀ x, S x → start ≤ x → n ≤ x) ∨ ∀ x, S x → x < start ∧ n ≤ x

namespace Picks

variable {S : Int → Prop} {start n k x : Int}

theorem of_mem (h : S start) : Picks S start start := ⟨h, .inl ⟨le_rfl, fun _ _ h ↦ h⟩⟩

variable (h : Picks S start n)

include h

theorem le_of_le (hx : S x) (hle : start ≤ x) : start ≤ n ∧ n ≤ x := by
  rcases h.least with ⟨h1, h2⟩ | h2
  · exact ⟨h1, h2 x hx hle⟩
  · have := (h2 x hx).1
    omega

theorem of_lt (hlt : n < start) (hx : S x) : x < start ∧ n ≤ x := by
  rcases h.least with ⟨h1, -⟩ | h2
  · omega
  · exact h2 x hx

theorem eq_iff : n = start ↔ S start := by
  constructor
  · rintro rfl
    exact h.mem
  · intro hs
    have := h.le_of_le hs le_rfl
    omega

theorem le_of_bound (hx : S x) (hbound : ∀ x, S x → start ≤ x) : n ≤ x :=
  (h.le_of_le hx (hbound x hx)).2

theorem isLeast_from (hx : ∃ x, S x ∧ start ≤ x) : IsLeast {x | S x ∧ start ≤ x} n := by
  obtain ⟨x, hx, hle⟩ := hx
  exact ⟨⟨h.mem, (h.le_of_le hx hle).1⟩, fun _ hy ↦ (h.le_of_le hy.1 hy.2).2⟩

theorem isLeast_all (hx : ¬ ∃ x, S x ∧ start ≤ x) : IsLeast {x | S x} n :=
  ⟨h.mem, fun _ hy ↦ (h.of_lt (not_le.1 fun hle ↦ hx ⟨n, h.mem, hle⟩) hy).2⟩

theorem unique (hk : Picks S start k) : n = k := by
  by_cases hx : ∃ x, S x ∧ start ≤ x
  · exact (h.isLeast_from hx).unique (hk.isLeast_from hx)
  · exact (h.isLeast_all hx).unique (hk.isLeast_all hx)

end Picks

/-! ### Forms of fields -/

/-- A number as it is written, in digits of any script. It has `digitLimit` digits at most: a longer
one is not read as a number at all. -/
structure Figure (low high : Nat) where
  numeral : Number.Numeral
  digits_ne_nil : numeral.digits ≠ []
  isDigit_of_mem : ∀ c ∈ numeral.digits, isDigit c = true
  length_le : numeral.length ≤ Number.digitLimit
  low_le : low ≤ numeral.value
  le_high : numeral.value ≤ high

/-- A number, or a range between two. -/
inductive Item (low high : Nat) where
  | number (n : Figure low high)
  | range (first last : Figure low high) (le : first.numeral.value ≤ last.numeral.value)

/-- A field: a star, or a comma list of numbers and ranges. -/
inductive Form (low high : Nat) where
  | every
  | listed (first : Item low high) (rest : List (Item low high))

variable {low high : Nat}

namespace Item

def text : Item low high → List Char
  | number n => n.numeral.digits
  | range first last _ => first.numeral.digits ++ '-' :: last.numeral.digits

def Admits : Item low high → Int → Prop
  | number n, x => x = n.numeral.value
  | range first last _, x => first.numeral.value ≤ x ∧ x ≤ last.numeral.value

def least : Item low high → Int
  | number n => n.numeral.value
  | range first _ _ => first.numeral.value

instance : ∀ (i : Item low high) (x : Int), Decidable (i.Admits x)
  | number _, _ => inferInstanceAs (Decidable (_ = _))
  | range _ _ _, _ => inferInstanceAs (Decidable (_ ∧ _))

def element : Item low high → Element
  | number n => .one n.numeral.value
  | range first last _ => .span first.numeral.value last.numeral.value

theorem admits_least (i : Item low high) : i.Admits i.least := by
  cases i with
  | number n => rfl
  | range first last le => exact ⟨le_rfl, Int.ofNat_le.2 le⟩

variable {x : Int} {i : Item low high}

theorem least_le (h : i.Admits x) : i.least ≤ x := by
  cases i with
  | number n => exact le_of_eq h.symm
  | range first last le => exact h.1

theorem bounds (h : i.Admits x) : (low : Int) ≤ x ∧ x ≤ high := by
  cases i with
  | number n =>
    have h1 := n.low_le
    have h2 := n.le_high
    have h3 : x = n.numeral.value := h
    omega
  | range first last le =>
    have h1 := first.low_le
    have h2 := last.le_high
    obtain ⟨h3, h4⟩ := h
    omega

end Item

namespace Form

def listText (i : Item low high) : List (Item low high) → List Char
  | [] => i.text
  | j :: rest => i.text ++ ',' :: listText j rest

def text : Form low high → Field
  | every => star
  | listed first rest => listText first rest

def Admits : Form low high → Int → Prop
  | every, x => (low : Int) ≤ x ∧ x ≤ high
  | listed first rest, x => ∃ i ∈ first :: rest, i.Admits x

instance : ∀ (f : Form low high) (x : Int), Decidable (f.Admits x)
  | every, _ => inferInstanceAs (Decidable (_ ∧ _))
  | listed _ _, _ => inferInstanceAs (Decidable (∃ i ∈ _, _))

theorem bounds {f : Form low high} {x : Int} (h : f.Admits x) : (low : Int) ≤ x ∧ x ≤ high := by
  cases f with
  | every => exact h
  | listed first rest =>
    obtain ⟨i, -, hi⟩ := h
    exact i.bounds hi

end Form

/-! ### Characters -/

variable {c sep : Char} {start : Int} {items : List (Item low high)}

theorem not_isDigit_of_isBlank (h : isBlank c = true) : isDigit c = false := by
  have hcodes : c.toNat ∈ [9, 10, 11, 12, 13, 28, 29, 30, 31, 32, 133, 160, 5760, 8192, 8193, 8194,
      8195, 8196, 8197, 8198, 8199, 8200, 8201, 8202, 8232, 8233, 8239, 8287, 12288] := by
    simp [isBlank] at h ⊢
    omega
  simp only [isDigit, digit?]
  generalize c.toNat = n at hcodes
  revert n
  decide

/-! ### Reading the text of a form -/

theorem digits?_digits {n : Number.Numeral} (hne : n.digits ≠ [])
    (hdigit : ∀ c ∈ n.digits, isDigit c = true) : Element.digits? n.digits = some (n, none) := by
  simp [Element.digits?, List.takeWhile_eq_self_iff.2 hdigit, List.dropWhile_eq_nil_iff.2 hdigit,
    hne, atElementEnd]

theorem ne_of_all_isDigit {cs : List Char} (hdigit : ∀ c ∈ cs, isDigit c = true) {d : Char}
    (hd : isDigit d = false) : ∀ c ∈ cs, c ≠ d := by
  rintro c hc rfl
  simp [hdigit c hc] at hd

namespace Item

theorem ne_of_mem_text {i : Item low high} {c d : Char} (h : c ∈ i.text) (hd : isDigit d = false)
    (hdash : d ≠ '-') : c ≠ d := by
  cases i with
  | number n => exact ne_of_all_isDigit n.isDigit_of_mem hd c h
  | range first last le =>
    rcases List.mem_append.1 h with h | h
    · exact ne_of_all_isDigit first.isDigit_of_mem hd c h
    · rcases List.mem_cons.1 h with rfl | h
      · exact hdash.symm
      · exact ne_of_all_isDigit last.isDigit_of_mem hd c h

theorem text_ne_nil (i : Item low high) : i.text ≠ [] := by
  cases i with
  | number n => exact n.digits_ne_nil
  | range first last le => simp [text]

theorem digits?_text (i : Item low high) :
    Element.digits? i.text = match i with
      | number n => some (n.numeral, none)
      | range first last _ => some (first.numeral, some last.numeral) := by
  have hdash : isDigit '-' = false := by decide
  cases i with
  | number n => exact digits?_digits n.digits_ne_nil n.isDigit_of_mem
  | range first last le =>
    simp [Element.digits?, text, List.takeWhile_append_of_pos first.isDigit_of_mem,
      List.dropWhile_append_of_pos first.isDigit_of_mem, hdash,
        List.takeWhile_eq_self_iff.2 last.isDigit_of_mem,
      List.dropWhile_eq_nil_iff.2 last.isDigit_of_mem, first.digits_ne_nil, last.digits_ne_nil,
        atElementEnd]

theorem read_text (i : Item low high) : Element.read i.text = .ok (some i.element) := by
  rw [Element.read, i.digits?_text]
  cases i with
  | number n =>
    simp only [Number.Numeral.read_of_length_le n.length_le, element]
    rfl
  | range first last le =>
    simp only [Number.Numeral.read_of_length_le first.length_le,
      Number.Numeral.read_of_length_le last.length_le, element]
    rfl

end Item

theorem splitAtChar_of_notMem {cs : List Char} (h : ∀ c ∈ cs, c ≠ sep) :
    splitAtChar sep cs = [cs] := by
  induction cs with
  | nil => rfl
  | cons c cs ih =>
    rw [splitAtChar, if_neg (h c (by simp)), ih fun d hd ↦ h d (by simp [hd])]

theorem splitAtChar_append {cs rest : List Char} (h : ∀ c ∈ cs, c ≠ sep) :
    splitAtChar sep (cs ++ sep :: rest) = cs :: splitAtChar sep rest := by
  induction cs with
  | nil => simp [splitAtChar]
  | cons c cs ih =>
    rw [List.cons_append, splitAtChar, if_neg (h c (by simp)), ih fun d hd ↦ h d (by simp [hd])]

namespace Form

theorem split_listText (i : Item low high) (rest : List (Item low high)) :
    splitAtChar ',' (listText i rest) = (i :: rest).map Item.text := by
  have hcomma (j : Item low high) : ∀ c ∈ j.text, c ≠ ',' := fun c hc ↦
    Item.ne_of_mem_text hc (by decide) (by decide)
  induction rest generalizing i with
  | nil => exact splitAtChar_of_notMem (hcomma i)
  | cons j rest ih =>
    rw [listText, splitAtChar_append (hcomma i), ih j, List.map_cons (l := j :: rest)]

theorem ne_of_mem_listText {i : Item low high} {rest : List (Item low high)} {c d : Char}
    (h : c ∈ listText i rest) (hd : isDigit d = false) (hdash : d ≠ '-') (hcomma : d ≠ ',') :
    c ≠ d := by
  induction rest generalizing i with
  | nil => exact Item.ne_of_mem_text h hd hdash
  | cons j rest ih =>
    rcases List.mem_append.1 h with h | h
    · exact Item.ne_of_mem_text h hd hdash
    · rcases List.mem_cons.1 h with rfl | h
      · exact hcomma.symm
      · exact ih h

theorem text_eq_star_iff (f : Form low high) : f.text = star ↔ f = every := by
  cases f with
  | every => simp [text]
  | listed first rest =>
    refine ⟨fun h ↦ ?_, fun h ↦ nomatch h⟩
    have hstar : '*' ∈ listText first rest := by
      rw [show listText first rest = ['*'] from h]
      simp
    exact absurd rfl (ne_of_mem_listText hstar (by decide) (by decide) (by decide))

end Form

/-! ### The walk through the items -/

theorem pick_cons (start : Int) (i : Item low high) (items : List (Item low high))
    (next least : Int) :
    Element.pick start ((i :: items).map Item.text) next least =
      if i.Admits start then .ok (.number start)
      else Element.pick start (items.map Item.text)
        (if start ≤ i.least ∧ i.least < next then i.least else next)
        (if i.least < least then i.least else least) := by
  cases i with
  | number n =>
    simp only [List.map_cons, Element.pick, Item.read_text, Item.element]
    rfl
  | range first last le =>
    simp only [List.map_cons, Element.pick, Item.read_text, Item.element]
    rfl

theorem pick_of_admits (next least : Int) (h : ∃ i ∈ items, i.Admits start) :
    Element.pick start (items.map Item.text) next least = .ok (.number start) := by
  induction items generalizing next least with
  | nil => simp at h
  | cons i items ih =>
    rw [pick_cons]
    split
    · rfl
    · grind

theorem pick_of_not_admits (next least : Int) (h : ∀ i ∈ items, ¬ i.Admits start) :
    ∃ next' least', Element.pick start (items.map Item.text) next least =
        .ok (.number (if next' < beyond then next' else least')) ∧
      (next' = next ∨ ∃ i ∈ items, start ≤ i.least ∧ next' = i.least) ∧
      (next' ≤ next ∧ ∀ i ∈ items, start ≤ i.least → next' ≤ i.least) ∧
      (least' = least ∨ ∃ i ∈ items, least' = i.least) ∧
      (least' ≤ least ∧ ∀ i ∈ items, least' ≤ i.least) := by
  induction items generalizing next least with
  | nil => exact ⟨next, least, rfl, by simp⟩
  | cons i items ih =>
    rw [pick_cons, if_neg (h i (by simp))]
    obtain ⟨next', least', hpick, hnext, ⟨hle, hnexts⟩, hleast, ⟨hle', hleasts⟩⟩ :=
      ih (if start ≤ i.least ∧ i.least < next then i.least else next)
        (if i.least < least then i.least else least) fun j hj ↦ h j (by simp [hj])
    exact ⟨next', least', hpick, by grind⟩

theorem Form.atLeast_listed (hhigh : (high : Int) < beyond) (first : Item low high)
    (rest : List (Item low high)) (start : Int) :
    ∃ n, (text (listed first rest)).atLeast start = pure n ∧
      Picks (Admits (listed first rest)) start n := by
  have hpick : pick (text (listed first rest)) start =
      Element.pick start ((first :: rest).map Item.text) beyond beyond := by
    rw [pick, if_neg ((text_eq_star_iff _).not.2 (by simp)), text, split_listText]
  suffices h : ∃ n, pick (text (listed first rest)) start = .ok (.number n) ∧
      Picks (Admits (listed first rest)) start n by
    obtain ⟨n, hn, hpicks⟩ := h
    exact ⟨n, by simp only [atLeast, hn]; rfl, hpicks⟩
  rw [hpick]
  by_cases hadmits : ∃ i ∈ first :: rest, i.Admits start
  · exact ⟨start, pick_of_admits _ _ hadmits, .of_mem hadmits⟩
  · push Not at hadmits
    obtain ⟨next, least, hwalk, hnext, ⟨-, hnexts⟩, hleast, ⟨-, hleasts⟩⟩ :=
      pick_of_not_admits beyond beyond hadmits
    refine ⟨_, hwalk, ?_⟩
    -- a number of an item from `start` on lies above the item's least number, and so does `start`
    -- if that one is below it; then the item would admit `start`
    have hfrom : ∀ i ∈ first :: rest, ∀ x, i.Admits x → start ≤ x → start ≤ i.least := by
      intro i hi x hx hle
      have hno := hadmits i hi
      cases i with
      | number n => exact hle.trans (le_of_eq hx)
      | range a b le =>
        simp only [Item.Admits, Item.least] at hno hx ⊢
        omega
    have hsmall : ∀ i ∈ first :: rest, i.least < beyond := fun i _ ↦
      lt_of_le_of_lt (Item.bounds i.admits_least).2 hhigh
    split
    · rename_i hlt
      rcases hnext with rfl | ⟨i, hi, hile, rfl⟩
      · exact absurd hlt (lt_irrefl _)
      · refine ⟨⟨i, hi, i.admits_least⟩, .inl ⟨hile, ?_⟩⟩
        rintro x ⟨j, hj, hx⟩ hle
        exact (hnexts j hj (hfrom j hj x hx hle)).trans (Item.least_le hx)
    · rename_i hge
      obtain ⟨i, hi, rfl⟩ : ∃ i ∈ first :: rest, least = i.least := by
        rcases hleast with rfl | h
        · exact absurd (hleasts first (by simp)) (not_le.2 (hsmall first (by simp)))
        · exact h
      refine ⟨⟨i, hi, i.admits_least⟩, .inr ?_⟩
      rintro x ⟨j, hj, hx⟩
      refine ⟨?_, (hleasts j hj).trans (Item.least_le hx)⟩
      by_contra hle
      have := hnexts j hj (hfrom j hj x hx (by omega))
      have := hsmall j hj
      omega

theorem Form.atLeast_text (f : Form low high) (hhigh : (high : Int) < beyond) (start : Int)
    (hlow : (low : Int) ≤ start) (hstart : start ≤ high) :
    ∃ n, f.text.atLeast start = pure n ∧ Picks f.Admits start n := by
  cases f with
  | every => exact ⟨start, rfl, .of_mem ⟨hlow, hstart⟩⟩
  | listed first rest => exact atLeast_listed hhigh first rest start

/-- **A pick from a list is its least number from the asked one on**, or its least number when there
is none. So it is the asked number exactly if the list has that one, is picked again from itself,
and does not depend on the order. -/
theorem Form.list_pick_isLeast (first : Item 0 999) (rest : List (Item 0 999)) (start : Int) :
    ∃ n, (listed first rest).text.atLeast start = pure n ∧
      ((∃ x, (listed first rest).Admits x ∧ start ≤ x) →
        IsLeast {x | (listed first rest).Admits x ∧ start ≤ x} n) ∧
      ((¬ ∃ x, (listed first rest).Admits x ∧ start ≤ x) →
        IsLeast {x | (listed first rest).Admits x} n) ∧
      (n = start ↔ (listed first rest).Admits start) ∧ (listed first rest).text.atLeast n = pure n ∧
      ∀ first' rest',
        (first' :: rest').Perm (first :: rest) → (listed first' rest').text.atLeast start =
          pure n := by
  have hhigh : ((999 : Nat) : Int) < beyond := by decide
  obtain ⟨n, hn, hpicks⟩ := atLeast_listed hhigh first rest start
  refine ⟨n, hn, hpicks.isLeast_from, hpicks.isLeast_all, hpicks.eq_iff, ?_,
    fun first' rest' hperm ↦ ?_⟩
  · obtain ⟨k, hk, hpicks'⟩ := atLeast_listed hhigh first rest n
    rw [hk, hpicks'.eq_iff.2 hpicks.mem]
  · obtain ⟨k, hk, hpicks'⟩ := atLeast_listed hhigh first' rest' start
    have hsame : (listed first' rest').Admits = (listed first rest).Admits := by
      funext x
      simp only [Admits, hperm.mem_iff]
    rw [hsame] at hpicks'
    rw [hk, hpicks'.unique hpicks]

theorem atLeast_of_digitLimit_lt {n : Number.Numeral} (hdigit : ∀ c ∈ n.digits, isDigit c = true)
    (hlong : Number.digitLimit < n.length) (start : Int) :
    atLeast n.digits start = throw (.digitLimitOf n.length) := by
  have hne : n.digits ≠ [] := List.ne_nil_of_length_pos (Nat.zero_lt_of_lt hlong)
  have hstar : n.digits ≠ star := fun h ↦
    ne_of_all_isDigit hdigit (by decide) '*' (by rw [h]; exact List.mem_singleton_self _) rfl
  have hread : Element.read n.digits = .error (.digitLimitOf n.length) := by
    rw [Element.read, digits?_digits hne hdigit]
    simp only [Number.Numeral.read, if_neg (not_le.2 hlong)]
    rfl
  rw [atLeast, pick, if_neg hstar,
    splitAtChar_of_notMem (ne_of_all_isDigit hdigit (by decide)),
    Element.pick, hread]
  rfl

def manyZeros : Number.Numeral := ⟨List.replicate 4301 '0'⟩

/-- A number with too many zeros in front is not read, small as it is. -/
theorem fault_at_many_zeros : (∀ c ∈ manyZeros.digits, isDigit c = true) ∧ manyZeros.value = 0 ∧
    ∀ n, atLeast manyZeros.digits 0 ≠ pure n := by
  have hdigit : ∀ c ∈ manyZeros.digits, isDigit c = true :=
    fun c hc ↦ List.eq_of_mem_replicate hc ▸ by decide
  refine ⟨hdigit, by decide +kernel, fun n h ↦ ?_⟩
  rw [atLeast_of_digitLimit_lt hdigit (by decide +kernel)] at h
  cases congrFun h []

end TriggerScript.Schedule
