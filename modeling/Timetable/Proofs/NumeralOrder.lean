import Mathlib.Algebra.Group.Nat.Defs
import Mathlib.Data.List.Lex
import Mathlib.Tactic.Common
import Timetable.Text.Numeral

/-!
# Numerals in the order of characters

Numerals as lists of characters, which are ordered by the codes of the characters.

* An integer can be read back from its padded form, whatever the width (`signedValue_paddedChars`).
* Of two numerals of one length, the one that comes first has the smaller value (`numeralValue_lt_iff`).
  So integers that fill the same places are written in their order (`paddedChars_lt_iff`).
-/

namespace Timetable.Text

variable {l m : List Char} {c : Char} {width : Nat} {n k : Int}

theorem numeralValue_cons (c : Char) (l : List Char) :
    numeralValue (c :: l) = 10 ^ l.length * (c.toNat - '0'.toNat) + numeralValue l := by
  show Nat.ofDigitChars 10 (c :: l) 0 = _
  rw [Nat.ofDigitChars_cons, Nat.mul_zero, Nat.zero_add]
  exact Nat.ofDigitChars_eq_ofDigitChars_zero

theorem numeralValue_zeros_append (i : Nat) (l : List Char) :
    numeralValue (List.replicate i '0' ++ l) = numeralValue l := by
  induction i with
  | zero => rfl
  | succ i ih =>
    rw [List.replicate_succ, List.cons_append, numeralValue_cons, Nat.sub_self, Nat.mul_zero, Nat.zero_add]
    exact ih

/-! ## The value of a padded integer -/

theorem numeralValue_digitChars (n : Int) : numeralValue (digitChars n) = n.natAbs :=
  Nat.ofDigitChars_ten_toDigits

-- Without its sign, a padded integer is a numeral.
theorem isDigit_of_mem_padded {i : Nat} (h : c ∈ List.replicate i '0' ++ digitChars n) : isDigit c = true := by
  rw [List.mem_append, List.mem_replicate] at h
  cases h with
  | inl hzero => rw [hzero.2]; rfl
  | inr hdigit => exact Nat.isDigit_of_mem_toDigits (by decide) (by decide) hdigit

theorem paddedChars_of_nonneg (h : 0 ≤ n) :
    paddedChars width n = List.replicate (width - (digitChars n).length) '0' ++ digitChars n := by
  rw [paddedChars, signChars, if_neg (by omega)]
  rfl

theorem paddedChars_of_neg (h : n < 0) : paddedChars width n =
    '-' :: (List.replicate (width - 1 - (digitChars n).length) '0' ++ digitChars n) := by
  rw [paddedChars, signChars, if_pos h]
  rfl

theorem numeralValue_paddedChars (h : 0 ≤ n) : (numeralValue (paddedChars width n) : Int) = n := by
  rw [paddedChars_of_nonneg h, numeralValue_zeros_append, numeralValue_digitChars, Int.natAbs_of_nonneg h]

theorem isDigit_of_mem_paddedChars (h : 0 ≤ n) (hc : c ∈ paddedChars width n) : isDigit c = true := by
  rw [paddedChars_of_nonneg h] at hc
  exact isDigit_of_mem_padded hc

/-- The integer that a numeral stands for, with or without a minus sign. -/
def signedValue (l : List Char) : Int :=
  if l.head? = some '-' then -numeralValue l.tail else numeralValue l

/-- Padding loses nothing of an integer, and neither does its sign. -/
theorem signedValue_paddedChars (width : Nat) (n : Int) : signedValue (paddedChars width n) = n := by
  by_cases h : n < 0
  · rw [paddedChars_of_neg h, signedValue, List.head?_cons, if_pos rfl, List.tail_cons,
      numeralValue_zeros_append, numeralValue_digitChars]
    omega
  · have hnonneg : 0 ≤ n := by omega
    have hhead : (paddedChars width n).head? ≠ some '-' := by
      intro hminus
      have hdigit := isDigit_of_mem_paddedChars hnonneg (List.mem_of_mem_head? hminus)
      exact absurd hdigit (by decide)
    rw [signedValue, if_neg hhead, numeralValue_paddedChars hnonneg]

theorem paddedChars_inj : paddedChars width n = paddedChars width k ↔ n = k := by
  constructor
  · intro h
    rw [← signedValue_paddedChars width n, h, signedValue_paddedChars]
  · exact fun h => by rw [h]

/-! ## Order -/

theorem toNat_of_isDigit (h : isDigit c = true) : 48 ≤ c.toNat ∧ c.toNat ≤ 57 := by
  rw [isDigit, Bool.and_eq_true, decide_eq_true_eq, decide_eq_true_eq] at h
  exact h

theorem numeralValue_lt_pow (h : ∀ c ∈ l, isDigit c = true) : numeralValue l < 10 ^ l.length := by
  induction l with
  | nil => exact Nat.one_pos
  | cons c l ih =>
    have htail := ih fun d hd => h d (List.mem_cons_of_mem c hd)
    have hhead : c.toNat - '0'.toNat ≤ 9 := Nat.sub_le_of_le_add (toNat_of_isDigit (h c List.mem_cons_self)).2
    have hmul := Nat.mul_le_mul_left (10 ^ l.length) hhead
    rw [numeralValue_cons, List.length_cons, Nat.pow_succ]
    omega

-- Whole units decide before the rests, which are less than a unit.
theorem unit_mul_add_lt_iff {unit a b i j : Nat} (ha : a < unit) (hb : b < unit) :
    unit * i + a < unit * j + b ↔ i < j ∨ (i = j ∧ a < b) := by
  cases Nat.lt_trichotomy i j with
  | inl hlt =>
    have hmul := Nat.mul_le_mul_left unit hlt
    rw [Nat.mul_succ] at hmul
    omega
  | inr hge =>
    cases hge with
    | inl heq =>
      rw [heq]
      omega
    | inr hgt =>
      have hmul := Nat.mul_le_mul_left unit hgt
      rw [Nat.mul_succ] at hmul
      omega

/-- Of two numerals of one length, the one that comes first has the smaller value. -/
theorem numeralValue_lt_iff (hl : ∀ c ∈ l, isDigit c = true) (hm : ∀ c ∈ m, isDigit c = true)
    (hlength : l.length = m.length) : numeralValue l < numeralValue m ↔ l < m := by
  induction l generalizing m with
  | nil =>
    rw [List.eq_nil_of_length_eq_zero hlength.symm]
    exact iff_of_false (Nat.lt_irrefl _) (List.lt_irrefl [])
  | cons c l ih =>
    cases m with
    | nil => exact absurd hlength (Nat.succ_ne_zero l.length)
    | cons d m =>
      have hc := toNat_of_isDigit (hl c List.mem_cons_self)
      have hd := toNat_of_isDigit (hm d List.mem_cons_self)
      have hl' : ∀ c ∈ l, isDigit c = true := fun a ha => hl a (List.mem_cons_of_mem c ha)
      have hm' : ∀ c ∈ m, isDigit c = true := fun a ha => hm a (List.mem_cons_of_mem d ha)
      have hlength' : l.length = m.length := Nat.succ.inj hlength
      have hrest : numeralValue m < 10 ^ l.length := hlength' ▸ numeralValue_lt_pow hm'
      have hless : c.toNat - '0'.toNat < d.toNat - '0'.toNat ↔ c < d := by
        show c.toNat - 48 < d.toNat - 48 ↔ c.toNat < d.toNat
        omega
      have heq : c.toNat - '0'.toNat = d.toNat - '0'.toNat ↔ c = d := by
        rw [← Char.toNat_inj]
        show c.toNat - 48 = d.toNat - 48 ↔ _
        omega
      rw [numeralValue_cons, numeralValue_cons, ← hlength', unit_mul_add_lt_iff (numeralValue_lt_pow hl') hrest,
        hless, heq, ih hl' hm' hlength', List.cons_lt_cons_iff]

/-- An integer that needs no more than the width fills exactly the width. -/
theorem length_paddedChars (hwidth : 0 < width) (h : 0 ≤ n) (hn : n.natAbs < 10 ^ width) :
    (paddedChars width n).length = width := by
  have hlength : (digitChars n).length ≤ width := by
    rwa [digitChars, Nat.length_toDigits_le_iff (by decide) hwidth]
  rw [paddedChars_of_nonneg h, List.length_append, List.length_replicate]
  omega

theorem paddedChars_lt_iff (hn : 0 ≤ n) (hk : 0 ≤ k)
    (hlength : (paddedChars width n).length = (paddedChars width k).length) :
    paddedChars width n < paddedChars width k ↔ n < k := by
  rw [← numeralValue_lt_iff (fun c => isDigit_of_mem_paddedChars hn) (fun c => isDigit_of_mem_paddedChars hk)
    hlength, ← Int.ofNat_lt, numeralValue_paddedChars hn, numeralValue_paddedChars hk]

theorem append_lt_append_iff {l' m' : List Char} (h : l.length = m.length) :
    l ++ l' < m ++ m' ↔ l < m ∨ (l = m ∧ l' < m') := by
  induction l generalizing m with
  | nil =>
    rw [List.eq_nil_of_length_eq_zero h.symm, List.nil_append, List.nil_append]
    exact ⟨fun hlt => .inr ⟨rfl, hlt⟩, fun hlt => hlt.elim (fun hnil => absurd hnil (List.lt_irrefl [])) And.right⟩
  | cons c l ih =>
    cases m with
    | nil => exact absurd h (Nat.succ_ne_zero l.length)
    | cons d m =>
      rw [List.cons_append, List.cons_append, List.cons_lt_cons_iff, List.cons_lt_cons_iff,
        ih (Nat.succ.inj h), List.cons_eq_cons]
      tauto

end Timetable.Text
