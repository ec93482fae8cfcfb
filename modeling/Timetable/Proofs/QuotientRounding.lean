import Mathlib.Algebra.Order.Field.Power
import Mathlib.Data.Nat.Log
import Mathlib.Tactic.Linarith
import Mathlib.Tactic.LinearCombination
import Mathlib.Tactic.Positivity
import Mathlib.Tactic.Ring
import Timetable.Numeric.Binary64

/-!
# Rounded quotients

A quotient that is not negative is rounded to the binary64 number nearest to it; of two that are equally near, to
the one whose last bit is even (`Binary64.isNearest_of_ofQuotient?`). One that is at most 1 is never too large.

Numbers are counted in units of the least positive one (`Binary64.units`), and their distances from a quotient in
these units times the divisor (`multipleGap`), so that all comparisons are between integers. The scaled quotient is
rounded to the nearest integer, which settles the numbers that are multiples of its unit in the last place. Those
that are none lie below the least number of 53 bits with that unit (`Binary64.dvd_units`), and it is nearer.
-/

namespace Timetable

variable {num den : Nat}

/-! ## Rounding to an integer -/

/-- How far a multiple of the divisor is from the dividend. -/
def multipleGap (num den n : Nat) : Nat := ((den * n : Nat) - num : Int).natAbs

-- The multiples of the divisor next to the dividend are those of the quotient and its successor.
theorem mul_quotient_cases (num den n : Nat) :
    den * n + den ≤ den * (num / den) ∨ n = num / den ∨ n = num / den + 1 ∨
      den * (num / den) + 2 * den ≤ den * n := by
  rcases Nat.lt_trichotomy n (num / den) with hlt | heq | hgt
  · left
    rw [← Nat.mul_succ]
    exact Nat.mul_le_mul_left den hlt
  · exact .inr (.inl heq)
  · rcases Nat.eq_or_lt_of_le hgt with heq | hgt
    · exact .inr (.inr (.inl heq.symm))
    · have hle : den * (num / den + 2) ≤ den * n := Nat.mul_le_mul_left den hgt
      exact .inr (.inr (.inr (by rw [Nat.mul_add] at hle; omega)))

theorem roundedQuotient_cases (num den : Nat) :
    (2 * (num % den) < den ∧ roundedQuotient num den = num / den) ∨
      (den < 2 * (num % den) ∧ roundedQuotient num den = num / den + 1) ∨
      (2 * (num % den) = den ∧ roundedQuotient num den % 2 = 0 ∧
        (roundedQuotient num den = num / den ∨ roundedQuotient num den = num / den + 1)) := by
  unfold roundedQuotient
  dsimp only
  split
  · exact .inl ⟨by assumption, rfl⟩
  · split
    · exact .inr (.inl ⟨by assumption, rfl⟩)
    · exact .inr (.inr (by omega))

theorem roundedQuotient_nearest (hden : 0 < den) (n : Nat) :
    multipleGap num den (roundedQuotient num den) ≤ multipleGap num den n ∧
      (multipleGap num den n = multipleGap num den (roundedQuotient num den) →
        n ≠ roundedQuotient num den → roundedQuotient num den % 2 = 0) := by
  have hnum : den * (num / den) + num % den = num := Nat.div_add_mod num den
  have hrest : num % den < den := Nat.mod_lt num hden
  have hsucc : den * (num / den + 1) = den * (num / den) + den := Nat.mul_succ den (num / den)
  unfold multipleGap
  -- Within each case the two gaps are known up to the remainder.
  rcases roundedQuotient_cases num den with ⟨hlow, hround⟩ | ⟨hhigh, hround⟩ | ⟨hhalf, heven, hround | hround⟩ <;>
    rw [hround] <;> rcases mul_quotient_cases num den n with hn | rfl | rfl | hn <;> omega

theorem roundedQuotient_le_of_lt {bound : Nat} (h : num < bound * den) : roundedQuotient num den ≤ bound := by
  have hlt : num / den < bound := Nat.div_lt_of_lt_mul (by rwa [Nat.mul_comm])
  unfold roundedQuotient
  dsimp only
  split
  · omega
  · split
    · omega
    · omega

theorem le_roundedQuotient_of_le {bound : Nat} (hden : 0 < den) (h : bound * den ≤ num) :
    bound ≤ roundedQuotient num den := by
  have hle : bound ≤ num / den := (Nat.le_div_iff_mul_le hden).mpr h
  unfold roundedQuotient
  dsimp only
  split
  · omega
  · split
    · omega
    · omega

/-! ## The logarithm of a quotient -/

theorem two_zpow_mul (e : Int) : (2 : Rat) ^ e * 2 ^ (-e).toNat = 2 ^ e.toNat := by
  rcases Int.le_total 0 e with h | h
  · obtain ⟨n, rfl⟩ := Int.eq_ofNat_of_zero_le h
    simp
  · obtain ⟨n, hn⟩ := Int.eq_ofNat_of_zero_le (Int.neg_nonneg_of_nonpos h)
    obtain rfl : e = -(n : Int) := by omega
    simp

-- Shifting one of two numbers up compares them up to a power of two.
theorem mul_shiftLeft_le_shiftLeft_iff (c a b : Nat) (e : Int) :
    c * (a <<< e.toNat) ≤ b <<< (-e).toNat ↔ (2 : Rat) ^ e * (c * a) ≤ b := by
  have hpos : (0 : Rat) < 2 ^ (-e).toNat := by positivity
  have hleft : ((c * (a <<< e.toNat) : Nat) : Rat) = 2 ^ e * (c * a) * 2 ^ (-e).toNat := by
    rw [Nat.shiftLeft_eq, mul_right_comm, two_zpow_mul]
    push_cast
    ring
  have hright : ((b <<< (-e).toNat : Nat) : Rat) = b * 2 ^ (-e).toNat := by
    rw [Nat.shiftLeft_eq]
    push_cast
    ring
  rw [← Nat.cast_le (α := Rat), hleft, hright, mul_le_mul_iff_left₀ hpos]

theorem shiftLeft_le_shiftLeft_iff (a b : Nat) (e : Int) :
    a <<< e.toNat ≤ b <<< (-e).toNat ↔ (2 : Rat) ^ e * a ≤ b := by
  have hone := mul_shiftLeft_le_shiftLeft_iff 1 a b e
  rwa [Nat.one_mul, Nat.cast_one, one_mul] at hone

theorem two_zpow_log2_le {n : Nat} (h : 0 < n) : (2 : Rat) ^ (n.log2 : Int) ≤ n := by
  rw [zpow_natCast]
  exact_mod_cast Nat.log2_self_le h.ne'

theorem lt_two_zpow_log2 (n : Nat) : (n : Rat) < 2 ^ ((n.log2 : Int) + 1) := by
  have hcast : ((n.log2 : Int) + 1) = ((n.log2 + 1 : Nat) : Int) := by push_cast; rfl
  rw [hcast, zpow_natCast]
  exact_mod_cast Nat.lt_log2_self

theorem quotientLog2_spec (hnum : 0 < num) (hden : 0 < den) :
    (2 : Rat) ^ quotientLog2 num den * den ≤ num ∧ (num : Rat) < 2 ^ (quotientLog2 num den + 1) * den := by
  have hexponent : num.log2 - den.log2 = ((num.log2 : Int) - den.log2).toNat ∧
      den.log2 - num.log2 = (-((num.log2 : Int) - den.log2)).toNat := by omega
  have hdef : quotientLog2 num den = if (2 : Rat) ^ ((num.log2 : Int) - den.log2) * den ≤ num then
      (num.log2 : Int) - den.log2 else (num.log2 : Int) - den.log2 - 1 := by
    unfold quotientLog2
    dsimp only
    rw [hexponent.1, hexponent.2]
    simp only [shiftLeft_le_shiftLeft_iff]
  have htwo : (2 : Rat) ≠ 0 := two_ne_zero
  by_cases htest : (2 : Rat) ^ ((num.log2 : Int) - den.log2) * den ≤ num
  · rw [hdef, if_pos htest]
    refine ⟨htest, ?_⟩
    calc (num : Rat) < 2 ^ ((num.log2 : Int) + 1) := lt_two_zpow_log2 num
      _ = 2 ^ ((num.log2 : Int) - den.log2 + 1) * 2 ^ (den.log2 : Int) := by
        rw [← zpow_add₀ htwo]
        congr 1
        omega
      _ ≤ 2 ^ ((num.log2 : Int) - den.log2 + 1) * den :=
        mul_le_mul_of_nonneg_left (two_zpow_log2_le hden) (by positivity)
  · rw [hdef, if_neg htest, Int.sub_add_cancel]
    refine ⟨?_, not_le.mp htest⟩
    calc (2 : Rat) ^ ((num.log2 : Int) - den.log2 - 1) * den
        ≤ 2 ^ ((num.log2 : Int) - den.log2 - 1) * 2 ^ ((den.log2 : Int) + 1) :=
        mul_le_mul_of_nonneg_left (lt_two_zpow_log2 den).le (by positivity)
      _ = 2 ^ (num.log2 : Int) := by
        rw [← zpow_add₀ htwo]
        congr 1
        omega
      _ ≤ num := two_zpow_log2_le hnum

-- Scaled by a power of two, a quotient has as many bits before the point as the exponent leaves it.
theorem scaled_lt (hnum : 0 < num) (hden : 0 < den) {bits : Nat} {e : Int}
    (h : quotientLog2 num den + 1 ≤ e + bits) : num <<< (-e).toNat < 2 ^ bits * (den <<< e.toNat) := by
  have hdenpos : (0 : Rat) < den := Nat.cast_pos.mpr hden
  rw [← Nat.not_le, mul_shiftLeft_le_shiftLeft_iff, not_le]
  calc (num : Rat) < 2 ^ (quotientLog2 num den + 1) * den := (quotientLog2_spec hnum hden).2
    _ ≤ 2 ^ (e + bits) * den := mul_le_mul_of_nonneg_right (zpow_le_zpow_right₀ one_le_two h) hdenpos.le
    _ = 2 ^ e * ((2 ^ bits : Nat) * den) := by
      rw [zpow_add₀ two_ne_zero, zpow_natCast, mul_assoc, Nat.cast_pow, Nat.cast_ofNat]

theorem le_scaled (hnum : 0 < num) (hden : 0 < den) {bits : Nat} {e : Int}
    (h : e + bits ≤ quotientLog2 num den) : 2 ^ bits * (den <<< e.toNat) ≤ num <<< (-e).toNat := by
  have hdenpos : (0 : Rat) < den := Nat.cast_pos.mpr hden
  rw [mul_shiftLeft_le_shiftLeft_iff]
  calc (2 : Rat) ^ e * ((2 ^ bits : Nat) * den) = 2 ^ (e + bits) * den := by
        rw [zpow_add₀ two_ne_zero, zpow_natCast, mul_assoc, Nat.cast_pow, Nat.cast_ofNat]
    _ ≤ 2 ^ quotientLog2 num den * den :=
      mul_le_mul_of_nonneg_right (zpow_le_zpow_right₀ one_le_two h) hdenpos.le
    _ ≤ num := (quotientLog2_spec hnum hden).1

namespace Binary64

variable {k m significand : Nat}

/-! ## Magnitudes -/

/-- How many times the least positive number goes into the number of a magnitude. -/
def units (magnitude : Nat) : Nat :=
  if magnitude < 2 ^ 52 then magnitude
  else (2 ^ 52 + magnitude % 2 ^ 52) * 2 ^ (magnitude / 2 ^ 52 - 1)

/-- How many times the least positive number goes into one. -/
def unitsOfOne : Nat := 2 ^ (-leastExponent).toNat

theorem units_add (h : significand ≤ 2 ^ 53) (hk : k = 0 ∨ 2 ^ 52 ≤ significand) :
    units (k * 2 ^ 52 + significand) = significand * 2 ^ k := by
  unfold units
  by_cases hlow : significand < 2 ^ 52
  · obtain rfl := hk.resolve_right (Nat.not_le.mpr hlow)
    rw [if_pos (by omega)]
    omega
  · rw [if_neg (by omega)]
    rcases Nat.lt_or_eq_of_le h with hlt | rfl
    · have hrest : (k * 2 ^ 52 + significand) % 2 ^ 52 = significand - 2 ^ 52 := by omega
      have hquotient : (k * 2 ^ 52 + significand) / 2 ^ 52 - 1 = k := by omega
      rw [hrest, hquotient, Nat.add_sub_of_le (Nat.not_lt.mp hlow)]
    · have hrest : (k * 2 ^ 52 + 2 ^ 53) % 2 ^ 52 = 0 := by omega
      have hquotient : (k * 2 ^ 52 + 2 ^ 53) / 2 ^ 52 - 1 = k + 1 := by omega
      rw [hrest, hquotient, Nat.pow_succ]
      ring

-- The step from a number to the next one grows with the number.
theorem dvd_units (h : 2 ^ 52 * 2 ^ k ≤ units m) : 2 ^ k ∣ units m := by
  unfold units at h ⊢
  by_cases hlow : m < 2 ^ 52
  · rw [if_pos hlow] at h
    have hk : 0 < 2 ^ k := Nat.two_pow_pos k
    exact absurd (Nat.le_trans (Nat.le_mul_of_pos_right (2 ^ 52) hk) h) (Nat.not_le.mpr hlow)
  · rw [if_neg hlow] at h ⊢
    apply Nat.dvd_mul_left_of_dvd
    apply Nat.pow_dvd_pow
    by_contra hlt
    have hpow : 2 ^ (m / 2 ^ 52 - 1 + 1) ≤ 2 ^ k := Nat.pow_le_pow_right (by decide) (by omega)
    have hrest : 2 ^ 52 + m % 2 ^ 52 < 2 ^ 53 := by omega
    have hstep := Nat.mul_lt_mul_of_pos_right hrest (Nat.two_pow_pos (m / 2 ^ 52 - 1))
    rw [Nat.pow_succ] at hpow
    omega

/-- What the magnitude nearest to a quotient is made of: the quotient is scaled to lie below `2 ^ 53`, and not
below `2 ^ 52` unless the exponent is the least. -/
theorem nearestMagnitude_eq (hnum : 0 < num) (hden : 0 < den) :
    ∃ k a b : Nat, 0 < b ∧ a * den * 2 ^ k = num * unitsOfOne * b ∧ a < 2 ^ 53 * b ∧
      (k = 0 ∨ 2 ^ 52 * b ≤ a) ∧ (k : Int) = max (quotientLog2 num den + 1022) 0 ∧
      nearestMagnitude num den = k * 2 ^ 52 + roundedQuotient a b := by
  generalize hexponent : max (quotientLog2 num den - 52) leastExponent = e
  have hleast : leastExponent = -1074 := rfl
  refine ⟨(e - leastExponent).toNat, num <<< (-e).toNat, den <<< e.toNat, ?_, ?_, ?_, ?_, ?_, ?_⟩
  · rw [Nat.shiftLeft_eq]
    exact Nat.mul_pos hden (Nat.two_pow_pos _)
  · have hsum : (-e).toNat + (e - leastExponent).toNat = (-leastExponent).toNat + e.toNat := by omega
    have hpow : 2 ^ (-e).toNat * 2 ^ (e - leastExponent).toNat = unitsOfOne * 2 ^ e.toNat := by
      rw [unitsOfOne, ← Nat.pow_add, ← Nat.pow_add, hsum]
    rw [Nat.shiftLeft_eq, Nat.shiftLeft_eq]
    calc num * 2 ^ (-e).toNat * den * 2 ^ (e - leastExponent).toNat
        = num * den * (2 ^ (-e).toNat * 2 ^ (e - leastExponent).toNat) := by ring
      _ = num * unitsOfOne * (den * 2 ^ e.toNat) := by
        rw [hpow]
        ring
  · exact scaled_lt hnum hden (by omega)
  · by_cases hlow : quotientLog2 num den - 52 ≤ leastExponent
    · exact .inl (by omega)
    · exact .inr (le_scaled hnum hden (by omega))
  · omega
  · unfold nearestMagnitude
    dsimp only
    rw [hexponent, Nat.shiftLeft_eq]

theorem mul_multipleGap {a b c scale : Nat} (h : a * den * scale = c * b) (n : Nat) :
    b * multipleGap c den (n * scale) = den * scale * multipleGap a b n := by
  have hcast : (a : Int) * den * scale = c * b := by exact_mod_cast h
  have hgap : (b : Int) * ((den * (n * scale) : Nat) - c) = (den * scale : Nat) * ((b * n : Nat) - a) := by
    push_cast
    linear_combination hcast
  rw [multipleGap, multipleGap, ← Int.natAbs_natCast b, ← Int.natAbs_mul, hgap, Int.natAbs_mul,
    Int.natAbs_natCast]
  simp only [Int.natAbs_natCast]

/-- No number is nearer to a quotient than the one of the nearest magnitude. If another is as near, the last bit
of that magnitude is even. -/
theorem nearestMagnitude_nearest (hnum : 0 < num) (hden : 0 < den) (m : Nat) :
    multipleGap (num * unitsOfOne) den (units (nearestMagnitude num den)) ≤
        multipleGap (num * unitsOfOne) den (units m) ∧
      (multipleGap (num * unitsOfOne) den (units m) =
          multipleGap (num * unitsOfOne) den (units (nearestMagnitude num den)) →
        units m ≠ units (nearestMagnitude num den) → nearestMagnitude num den % 2 = 0) := by
  obtain ⟨k, a, b, hb, heq, hlt, hnormal, -, hmagnitude⟩ := nearestMagnitude_eq hnum hden
  have hunits : units (nearestMagnitude num den) = roundedQuotient a b * 2 ^ k := by
    rw [hmagnitude]
    exact units_add (roundedQuotient_le_of_lt hlt) (hnormal.imp_right (le_roundedQuotient_of_le hb))
  have hgap := mul_multipleGap heq
  generalize num * unitsOfOne = c at heq hgap ⊢
  have hscale : 0 < den * 2 ^ k := Nat.mul_pos hden (Nat.two_pow_pos k)
  -- Among the multiples of the unit in the last place the rounded quotient is nearest.
  have hmultiple : ∀ n, multipleGap c den (roundedQuotient a b * 2 ^ k) ≤
      multipleGap c den (n * 2 ^ k) := by
    intro n
    apply Nat.le_of_mul_le_mul_left _ hb
    rw [hgap, hgap]
    exact Nat.mul_le_mul_left _ (roundedQuotient_nearest hb n).1
  rw [hunits]
  by_cases hdvd : 2 ^ k ∣ units m
  · obtain ⟨n, hn⟩ := hdvd
    rw [hn, Nat.mul_comm (2 ^ k) n]
    refine ⟨hmultiple n, fun hsame hne => ?_⟩
    have hsame' : multipleGap a b n = multipleGap a b (roundedQuotient a b) := by
      apply Nat.eq_of_mul_eq_mul_left hscale
      rw [← hgap, ← hgap, hsame]
    have heven := (roundedQuotient_nearest hb n).2 hsame' fun h => hne (by rw [h])
    rw [hmagnitude]
    omega
  · -- A number between two such multiples lies below the least of 53 bits, and that is nearer.
    have hsmall : units m < 2 ^ 52 * 2 ^ k := Nat.lt_of_not_le fun h => hdvd (dvd_units h)
    have hk : k ≠ 0 := by
      rintro rfl
      exact hdvd (Nat.one_dvd _)
    have hbelow : den * (2 ^ 52 * 2 ^ k) ≤ c := by
      apply Nat.le_of_mul_le_mul_right _ hb
      rw [← heq]
      calc den * (2 ^ 52 * 2 ^ k) * b = den * 2 ^ k * (2 ^ 52 * b) := by ring
        _ ≤ den * 2 ^ k * a := Nat.mul_le_mul_left _ (hnormal.resolve_left hk)
        _ = a * den * 2 ^ k := by ring
    have hfurther := Nat.mul_lt_mul_of_pos_left hsmall hden
    have hstrict : multipleGap c den (2 ^ 52 * 2 ^ k) < multipleGap c den (units m) := by
      unfold multipleGap
      omega
    have hnearest := (hmultiple (2 ^ 52)).trans_lt hstrict
    exact ⟨hnearest.le, fun hsame => absurd hsame hnearest.ne'⟩

/-! ## Numbers and their distances -/

/-- The number that a sign and a magnitude stand for. -/
def value (x : Binary64) : Rat :=
  if x.negative then -(units x.magnitude / unitsOfOne : Rat) else units x.magnitude / unitsOfOne

/-- A finite number is nearest to a rational one: none is nearer, and if another is as near, its own last bit is
even. -/
structure IsNearest (x : Binary64) (q : Rat) : Prop where
  finite : x.magnitude < infinity
  abs_sub_le : ∀ y : Binary64, y.magnitude < infinity → |x.value - q| ≤ |y.value - q|
  even : ∀ y : Binary64, y.magnitude < infinity → |y.value - q| = |x.value - q| → y.value ≠ x.value →
    x.magnitude % 2 = 0

theorem unitsOfOne_pos : (0 : Rat) < unitsOfOne := Nat.cast_pos.mpr (Nat.two_pow_pos _)

theorem abs_units_sub (hden : 0 < den) (m : Nat) :
    |(units m / unitsOfOne : Rat) - num / den| =
      multipleGap (num * unitsOfOne) den (units m) / (den * unitsOfOne) := by
  have hone := unitsOfOne_pos
  have hdenpos : (0 : Rat) < den := Nat.cast_pos.mpr hden
  have hgap : (multipleGap (num * unitsOfOne) den (units m) : Rat) = |(units m * den - unitsOfOne * num : Rat)| := by
    rw [multipleGap, Nat.cast_natAbs, Int.cast_abs, Int.cast_sub, Int.cast_natCast, Int.cast_natCast, Nat.cast_mul,
      Nat.cast_mul, mul_comm (den : Rat), mul_comm (num : Rat)]
  rw [hgap, div_sub_div _ _ hone.ne' hdenpos.ne', abs_div, abs_of_pos (mul_pos hone hdenpos),
    mul_comm (den : Rat) unitsOfOne]

-- Beside a positive number, a negative one is no nearer than its opposite.
theorem abs_units_sub_le {q : Rat} (hq : 0 < q) (y : Binary64) :
    |(units y.magnitude / unitsOfOne : Rat) - q| ≤ |y.value - q| ∧
      (|y.value - q| = |(units y.magnitude / unitsOfOne : Rat) - q| →
        y.value = units y.magnitude / unitsOfOne) := by
  have hnonneg : (0 : Rat) ≤ units y.magnitude / unitsOfOne :=
    div_nonneg (Nat.cast_nonneg _) unitsOfOne_pos.le
  unfold value
  generalize (units y.magnitude / unitsOfOne : Rat) = u at hnonneg ⊢
  cases y.negative with
  | false => exact ⟨le_rfl, fun _ => rfl⟩
  | true =>
    have hvalue : |(if true = true then -u else u) - q| = u + q := by
      rw [if_pos rfl, abs_of_nonpos (by linarith)]
      ring
    rw [hvalue, if_pos rfl]
    constructor
    · exact abs_le.mpr ⟨by linarith, by linarith⟩
    · intro hsame
      rcases abs_cases (u - q) with ⟨habs, -⟩ | ⟨habs, -⟩
      · linarith
      · linarith

/-! ## The number nearest to a quotient -/

theorem isNearest_nearestMagnitude (hnum : 0 < num) (hden : 0 < den)
    (hfinite : nearestMagnitude num den < infinity) :
    IsNearest ⟨false, nearestMagnitude num den⟩ (num / den) := by
  have hone := unitsOfOne_pos
  have hdenpos : (0 : Rat) < den := Nat.cast_pos.mpr hden
  have hscale : (0 : Rat) < den * unitsOfOne := mul_pos hdenpos hone
  have hq : (0 : Rat) < num / den := div_pos (Nat.cast_pos.mpr hnum) hdenpos
  have hvalue : value ⟨false, nearestMagnitude num den⟩ = units (nearestMagnitude num den) / unitsOfOne := rfl
  have hle : ∀ m, |(units (nearestMagnitude num den) / unitsOfOne : Rat) - num / den| ≤
      |(units m / unitsOfOne : Rat) - num / den| := by
    intro m
    rw [abs_units_sub hden, abs_units_sub hden, div_le_div_iff_of_pos_right hscale, Nat.cast_le]
    exact (nearestMagnitude_nearest hnum hden m).1
  refine ⟨hfinite, fun y _ => ?_, fun y _ hsame hne => ?_⟩
  · rw [hvalue]
    exact (hle y.magnitude).trans (abs_units_sub_le hq y).1
  · rw [hvalue] at hsame hne
    have hopposite := abs_units_sub_le hq y
    have hunits := hopposite.2 (le_antisymm (hsame.trans_le (hle y.magnitude)) hopposite.1)
    rw [hunits] at hsame hne
    apply (nearestMagnitude_nearest hnum hden y.magnitude).2
    · rw [abs_units_sub hden, abs_units_sub hden, div_left_inj' hscale.ne', Nat.cast_inj] at hsame
      exact hsame
    · intro heq
      exact hne (by rw [heq])

/-- The quotient of two numbers, of which the one that is divided is not negative and the other is positive, is
rounded to the nearest number. -/
theorem isNearest_of_ofQuotient? {num den : Int} {x : Binary64} (hnum : 0 ≤ num) (hden : 0 < den)
    (h : ofQuotient? num den = some x) : x.negative = false ∧ x.IsNearest (num / den) := by
  unfold ofQuotient? at h
  by_cases hzero : num = 0
  · rw [if_pos hzero] at h
    obtain rfl := Option.some.inj h
    have hvalue : value ⟨decide (den < 0), 0⟩ = 0 := by
      have hunits : units 0 = 0 := rfl
      rw [decide_eq_false (by omega), value, if_neg Bool.false_ne_true, hunits, Nat.cast_zero, zero_div]
    have hq : (num / den : Rat) = 0 := by rw [hzero, Int.cast_zero, zero_div]
    rw [hq]
    refine ⟨decide_eq_false (by omega), show 0 < infinity by decide, fun y _ => ?_, fun y _ hsame hne => ?_⟩
    · rw [hvalue, sub_zero, abs_zero]
      exact abs_nonneg _
    · rw [hvalue, sub_zero, sub_zero, abs_zero, abs_eq_zero] at hsame
      exact absurd (hsame.trans hvalue.symm) hne
  · rw [if_neg hzero] at h
    obtain ⟨n, rfl⟩ := Int.eq_ofNat_of_zero_le hnum
    obtain ⟨d, rfl⟩ := Int.eq_ofNat_of_zero_le hden.le
    dsimp only at h
    split at h
    · rename_i hfinite
      rw [Int.natAbs_natCast, Int.natAbs_natCast] at hfinite h
      rw [decide_eq_false (by omega), decide_eq_false (by omega)] at h
      obtain rfl := Option.some.inj h
      exact ⟨rfl, isNearest_nearestMagnitude (by omega) (by omega) hfinite⟩
    · exact absurd h.symm (Option.some_ne_none x)

theorem nearestMagnitude_lt_infinity (hnum : 0 < num) (hden : 0 < den) (hle : num ≤ den) :
    nearestMagnitude num den < infinity := by
  obtain ⟨k, a, b, -, -, hlt, -, hk, hmagnitude⟩ := nearestMagnitude_eq hnum hden
  have hlog : quotientLog2 num den ≤ 0 := by
    by_contra hpos
    have hdenpos : (0 : Rat) < den := Nat.cast_pos.mpr hden
    have htwo : (1 : Rat) < 2 ^ quotientLog2 num den := one_lt_zpow₀ one_lt_two (by omega)
    have hbound : (den : Rat) < num :=
      ((lt_mul_iff_one_lt_left hdenpos).mpr htwo).trans_le (quotientLog2_spec hnum hden).1
    exact absurd (Nat.cast_lt.mp hbound) (Nat.not_lt.mpr hle)
  have hround := roundedQuotient_le_of_lt hlt
  unfold infinity
  omega

/-- A quotient of at most one is rounded to a number. -/
theorem exists_ofQuotient? {num den : Int} (hnum : 0 ≤ num) (hden : 0 < den) (hle : num ≤ den) :
    ∃ x, ofQuotient? num den = some x := by
  unfold ofQuotient?
  by_cases hzero : num = 0
  · rw [if_pos hzero]
    exact ⟨_, rfl⟩
  · rw [if_neg hzero]
    dsimp only
    rw [if_pos (nearestMagnitude_lt_infinity (by omega) (by omega) (by omega))]
    exact ⟨_, rfl⟩

end Binary64

end Timetable
