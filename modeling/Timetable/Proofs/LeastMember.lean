import Mathlib.Algebra.Order.Group.Int
import Mathlib.Data.Int.Bitwise
import Mathlib.Data.Nat.Bitwise
import Mathlib.Order.Bounds.Basic
import Timetable.ValueSet.Membership

/-!
# The least member at or above a start

The lowest set bit of a number is its least set bit, and with it the successor query of a `ValueSet`
answers with the least member at or above its start. Sets of values that are never negative have
their least member as `first`.

* `lowestBit_eq_size_land_neg`: the lowest set bit of a number is the one that it has in common with its
  negative in two's complement.
* `ValueSet.isLeast_first_iff`: `first` is the least member, unless that is `noMatch` and not the lower bound.
-/

namespace Timetable

/-! ## The lowest set bit -/

-- The predecessor of an even number ends in a one, and the rest of it is the predecessor of the half.
theorem double_sub_one {m : Nat} (h : 0 < m) : 2 * m - 1 = Nat.bit true (m - 1) := by
  show 2 * m - 1 = 2 * (m - 1) + 1
  omega

theorem lowestBit_odd (m : Nat) : lowestBit (2 * m + 1) = 0 := by
  have hodd : 2 * m + 1 = Nat.bit true m := rfl
  have hpred : 2 * m + 1 - 1 = Nat.bit false m := rfl
  rw [lowestBit, hpred, hodd, Nat.xor_bit, Nat.xor_self]
  rfl

theorem lowestBit_even {m : Nat} (h : 0 < m) : lowestBit (2 * m) = lowestBit m + 1 := by
  have heven : 2 * m = Nat.bit false m := rfl
  have hxor : (2 * m) ^^^ (2 * m - 1) = 2 * (m ^^^ (m - 1)) + 1 := by
    rw [double_sub_one h, heven, Nat.xor_bit]
    rfl
  have hne : m ^^^ (m - 1) ≠ 0 := by
    intro hzero
    have heq := Nat.xor_eq_zero_iff.mp hzero
    omega
  have hhalf : (2 * (m ^^^ (m - 1)) + 1) / 2 = m ^^^ (m - 1) := by omega
  rw [lowestBit, lowestBit, hxor, Nat.log2_def, if_pos (by omega), hhalf]

-- Of the bits of a number, its predecessor lacks the lowest one and no other.
theorem ldiff_pred {n : Nat} (h : n ≠ 0) : Nat.ldiff n (n - 1) = 2 ^ lowestBit n := by
  induction n using Nat.strong_induction_on with
  | h n ih =>
    rcases Nat.even_or_odd' n with ⟨m, rfl | rfl⟩
    · have hm : 0 < m := by omega
      have heven : 2 * m = Nat.bit false m := rfl
      rw [lowestBit_even hm, double_sub_one hm, heven, Nat.ldiff_bit, ih m (by omega) (by omega), pow_succ']
      rfl
    · have hself : Nat.ldiff m m = 0 := by
        apply Nat.eq_of_testBit_eq
        intro i
        rw [Nat.testBit_ldiff, Bool.and_not_self, Nat.zero_testBit]
      have hodd : 2 * m + 1 = Nat.bit true m := rfl
      have hpred : 2 * m + 1 - 1 = Nat.bit false m := rfl
      rw [lowestBit_odd, hpred, hodd, Nat.ldiff_bit, hself]
      rfl

theorem testBit_lowestBit {n : Nat} (h : n ≠ 0) : n.testBit (lowestBit n) = true := by
  have hbit : (Nat.ldiff n (n - 1)).testBit (lowestBit n) = true := by
    rw [ldiff_pred h, Nat.testBit_two_pow_self]
  rw [Nat.testBit_ldiff, Bool.and_eq_true] at hbit
  exact hbit.1

theorem lowestBit_le_of_testBit {n i : Nat} (h : n.testBit i = true) : lowestBit n ≤ i := by
  induction n using Nat.strong_induction_on generalizing i with
  | h n ih =>
    rcases Nat.even_or_odd' n with ⟨m, rfl | rfl⟩
    · cases i with
      | zero => simp at h
      | succ i =>
        rw [Nat.testBit_succ, Nat.mul_div_cancel_left m (by decide)] at h
        have hm : m ≠ 0 := by
          rintro rfl
          simp at h
        rw [lowestBit_even (Nat.pos_of_ne_zero hm)]
        exact Nat.succ_le_succ (ih m (by omega) h)
    · rw [lowestBit_odd]
      exact Nat.zero_le i

/-- The lowest set bit is the only bit that a number and its negative have in common in two's complement, so
that its position is one less than the size of what they have in common. -/
theorem lowestBit_eq_size_land_neg {n : Nat} (h : n ≠ 0) :
    lowestBit n = (Int.land n (-n)).toNat.size - 1 := by
  obtain ⟨m, rfl⟩ := Nat.exists_eq_succ_of_ne_zero h
  -- The complement of the predecessor is the negative.
  have hland : Int.land (m.succ : Nat) (-(m.succ : Nat)) = (Nat.ldiff m.succ (m.succ - 1) : Nat) := rfl
  rw [hland, ldiff_pred h, Int.toNat_natCast, Nat.size_pow, Nat.add_sub_cancel]

/-! ## Successors -/

namespace ValueSet

variable {s : ValueSet} {start v : Int}

-- The bits of the query's remainder are the members from the start on.
theorem testBit_shiftRight_position (hlo : s.lo ≤ start) (i : Nat) :
    (s.bits >>> s.position start).testBit i = true ↔ start + i ∈ s := by
  have hposition : s.position start + i = s.position (start + i) := by
    unfold position
    omega
  rw [Nat.testBit_shiftRight, hposition, mem_iff_testBit]
  constructor
  · intro h
    have hwidth : s.position (start + i) < s.width := by
      by_contra hge
      rw [testBit_of_width_le (Nat.le_of_not_lt hge)] at h
      exact Bool.false_ne_true h
    unfold position width at hwidth
    exact ⟨by omega, by omega, h⟩
  · exact fun h => h.2.2

-- Every member from the start on has its bit in the remainder.
theorem exists_testBit_of_mem (hv : v ∈ s) (hstart : start ≤ v) :
    ∃ i : Nat, max start s.lo + i = v ∧ (s.bits >>> s.position (max start s.lo)).testBit i = true := by
  have hlo := lo_le_of_mem hv
  have hcast : max start s.lo + ((v - max start s.lo).toNat : Int) = v := by omega
  refine ⟨_, hcast, ?_⟩
  rw [testBit_shiftRight_position (le_max_right start s.lo), hcast]
  exact hv

/-- The successor query answers with the least member at or above its start. -/
theorem isLeast_of_next? (h : s.next? start = some v) : IsLeast {w | w ∈ s ∧ start ≤ w} v := by
  unfold next? at h
  simp only at h
  have hlo : s.lo ≤ max start s.lo := le_max_right start s.lo
  split at h
  · exact absurd h (by simp)
  split at h
  · exact absurd h (by simp)
  rename_i hrest
  obtain rfl := Option.some.inj h
  constructor
  · exact ⟨(testBit_shiftRight_position hlo _).mp (testBit_lowestBit hrest), by omega⟩
  · rintro w ⟨hw, hstart⟩
    rcases exists_testBit_of_mem hw hstart with ⟨i, hi, hbit⟩
    -- The bit of any other member from the start on is not below the lowest one.
    have hle := lowestBit_le_of_testBit hbit
    omega

theorem lt_of_next?_eq_none (h : s.next? start = none) (hv : v ∈ s) : v < start := by
  by_contra hge
  have hlo := lo_le_of_mem hv
  have hhi := le_hi_of_mem hv
  rcases exists_testBit_of_mem hv (not_lt.mp hge) with ⟨i, -, hbit⟩
  unfold next? at h
  simp only at h
  split at h
  · omega
  split at h
  · rename_i hrest
    rw [hrest, Nat.zero_testBit] at hbit
    exact Bool.false_ne_true hbit
  · exact absurd h (by simp)

theorem next?_mem (h : s.next? start = some v) : v ∈ s := (isLeast_of_next? h).1.1

theorem le_next? (h : s.next? start = some v) : start ≤ v := (isLeast_of_next? h).1.2

theorem next?_le (h : s.next? start = some v) {w : Int} (hw : w ∈ s) (hstart : start ≤ w) : v ≤ w :=
  (isLeast_of_next? h).2 ⟨hw, hstart⟩

theorem next?_of_mem (h : v ∈ s) : s.next? v = some v := by
  cases hnext : s.next? v with
  | none => exact absurd (lt_of_next?_eq_none hnext h) (lt_irrefl v)
  | some w =>
    have hle := next?_le hnext h le_rfl
    have hge := le_next? hnext
    rw [le_antisymm hle hge]

theorem isLeast_next (h : ∃ v ∈ s, start ≤ v) : IsLeast {w | w ∈ s ∧ start ≤ w} (s.next start) := by
  obtain ⟨v, hv, hstart⟩ := h
  cases hnext : s.next? start with
  | none => exact absurd (lt_of_next?_eq_none hnext hv) (not_lt.mpr hstart)
  | some w =>
    rw [next, hnext, Option.getD_some]
    exact isLeast_of_next? hnext

theorem next_of_isLeast (h : IsLeast {w | w ∈ s ∧ start ≤ w} v) : s.next start = v :=
  (isLeast_next ⟨v, h.1⟩).unique h

theorem next_of_forall_lt (h : ∀ v ∈ s, v < start) : s.next start = noMatch := by
  cases hnext : s.next? start with
  | none => rw [next, hnext, Option.getD_none]
  | some w => exact absurd (h w (next?_mem hnext)) (not_lt.mpr (le_next? hnext))

/-! ## The least member -/

theorem exists_mem (h : s.isEmpty = false) : ∃ v, v ∈ s := by
  have hbits : s.bits ≠ 0 := by
    intro hzero
    simp [isEmpty, hzero] at h
  have hbit := testBit_lowestBit hbits
  have hwidth : lowestBit s.bits < s.width := by
    by_contra hge
    rw [testBit_of_width_le (Nat.le_of_not_lt hge)] at hbit
    exact Bool.false_ne_true hbit
  exact ⟨_, (mem_lo_add_iff hwidth).mpr hbit⟩

theorem not_mem_of_isEmpty (h : s.isEmpty = true) : v ∉ s := by
  rw [isEmpty, beq_iff_eq] at h
  rw [mem_iff_testBit, h, Nat.zero_testBit]
  exact fun hv => Bool.false_ne_true hv.2.2

theorem exists_isLeast (h : ∃ v, v ∈ s) : ∃ v, IsLeast {w | w ∈ s} v := by
  obtain ⟨v, hv⟩ := h
  have hleast := isLeast_next ⟨v, hv, lo_le_of_mem hv⟩
  exact ⟨_, hleast.1.1, fun w hw => hleast.2 ⟨hw, lo_le_of_mem hw⟩⟩

theorem first_eq (h : IsLeast {w | w ∈ s} v) : s.first = if v = noMatch then s.lo else v := by
  have hnext : s.next s.lo = v :=
    next_of_isLeast ⟨⟨h.1, lo_le_of_mem h.1⟩, fun w hw => h.2 hw.1⟩
  rw [first, hnext]

theorem first_of_isEmpty (h : s.isEmpty = true) : s.first = s.lo := by
  have hnext : s.next s.lo = noMatch := next_of_forall_lt fun v hv => absurd hv (not_mem_of_isEmpty h)
  rw [first, hnext, if_pos rfl]

/-- A least member `noMatch` passes for the lack of one. -/
theorem first_of_isLeast_noMatch (hlo : s.lo < noMatch) (h : IsLeast {w | w ∈ s} noMatch) :
    s.first = s.lo ∧ s.lo ∉ s := by
  rw [first_eq h, if_pos rfl]
  exact ⟨rfl, fun hmem => not_lt.mpr (h.2 hmem) hlo⟩

theorem isLeast_first_iff (h : ∃ v, v ∈ s) :
    IsLeast {w | w ∈ s} s.first ↔ ¬ (s.lo < noMatch ∧ IsLeast {w | w ∈ s} noMatch) := by
  constructor
  · rintro hfirst ⟨hlo, hleast⟩
    have hhidden := first_of_isLeast_noMatch hlo hleast
    rw [hhidden.1] at hfirst
    exact hhidden.2 hfirst.1
  · intro hshown
    obtain ⟨v, hv⟩ := exists_isLeast h
    have hlo := lo_le_of_mem hv.1
    rw [first_eq hv]
    by_cases hmatch : v = noMatch
    · -- A least member `noMatch` that is not hidden is the lower bound.
      subst hmatch
      have heq : s.lo = noMatch := le_antisymm hlo (not_lt.mp fun hlt => hshown ⟨hlt, hv⟩)
      rwa [if_pos rfl, heq]
    · rwa [if_neg hmatch]

/-- Among values that are not negative no member passes for the lack of one. -/
theorem isLeast_first (hlo : 0 ≤ s.lo) (h : ∃ v, v ∈ s) : IsLeast {w | w ∈ s} s.first := by
  apply (isLeast_first_iff h).mpr
  rintro ⟨hlt, -⟩
  unfold noMatch at hlt
  omega

end ValueSet

end Timetable
