import Timetable.ValueSet.Basic

/-!
# Membership in a set of values

What each way of adding values does to the members.

* `ext`: sets with the same bounds and the same members are equal, since no bit beyond the bounds is
  ever set.
* `mem_insert`, `mem_insertAll`, `mem_insertRange`: the members after adding values are those before
  and the new ones that lie between the bounds.
* `Insertion.Covers` says which values an insertion asks for, and `mem_foldl_apply` which members a list
  of insertions leaves.
* `mem_toList`: the list of a set holds exactly its members. It is ascending, and tells sets between the
  same bounds apart (`eq_iff_toList_eq`).
-/

namespace Timetable.ValueSet

variable {s t : ValueSet} {v w : Int}

theorem mem_iff_testBit : v ∈ s ↔ s.lo ≤ v ∧ v ≤ s.hi ∧ s.bits.testBit (s.position v) = true := by
  simp [mem_iff, contains, and_assoc]

theorem lo_le_of_mem (h : v ∈ s) : s.lo ≤ v := (mem_iff_testBit.mp h).1

theorem le_hi_of_mem (h : v ∈ s) : v ≤ s.hi := (mem_iff_testBit.mp h).2.1

/-- The value that a bit stands for is a member exactly when the bit is set. -/
theorem mem_lo_add_iff {i : Nat} (hi : i < s.width) : s.lo + i ∈ s ↔ s.bits.testBit i = true := by
  have hposition : s.position (s.lo + i) = i := by
    unfold position
    omega
  rw [mem_iff_testBit, hposition]
  unfold width at hi
  constructor
  · exact fun h => h.2.2
  · exact fun h => ⟨by omega, by omega, h⟩

/-- No bit beyond the width is set. -/
theorem testBit_of_width_le {i : Nat} (hi : s.width ≤ i) : s.bits.testBit i = false := by
  apply Nat.testBit_lt_two_pow
  have hbits := s.bits_lt
  rw [Nat.one_shiftLeft] at hbits
  exact Nat.lt_of_lt_of_le hbits (Nat.pow_le_pow_right (by decide) hi)

theorem ext (hlo : s.lo = t.lo) (hhi : s.hi = t.hi) (h : ∀ v, v ∈ s ↔ v ∈ t) : s = t := by
  have hbits : s.bits = t.bits := by
    apply Nat.eq_of_testBit_eq
    intro i
    by_cases hi : i < s.width
    · have hi' : i < t.width := by rwa [width, ← hlo, ← hhi]
      have hmem := h (s.lo + i)
      rw [mem_lo_add_iff hi] at hmem
      rw [hlo, mem_lo_add_iff hi'] at hmem
      exact Bool.eq_iff_iff.mpr hmem
    · have hi' : ¬ i < t.width := by rwa [width, ← hlo, ← hhi]
      rw [testBit_of_width_le (Nat.le_of_not_lt hi), testBit_of_width_le (Nat.le_of_not_lt hi')]
  cases s
  cases t
  simp_all

theorem not_mem_empty (lo hi : Int) : v ∉ empty lo hi := by
  simp [mem_iff_testBit, empty]

/-! ## One value -/

@[simp]
theorem lo_insert (s : ValueSet) (v : Int) : (s.insert v).lo = s.lo := by
  unfold insert
  split <;> rfl

@[simp]
theorem hi_insert (s : ValueSet) (v : Int) : (s.insert v).hi = s.hi := by
  unfold insert
  split <;> rfl

theorem mem_insert : w ∈ s.insert v ↔ w ∈ s ∨ (w = v ∧ s.lo ≤ v ∧ v ≤ s.hi) := by
  unfold insert
  split
  · rename_i hv
    simp only [mem_iff_testBit, position, Nat.testBit_or, Nat.one_shiftLeft, Nat.testBit_two_pow,
      Bool.or_eq_true, decide_eq_true_eq]
    constructor
    · rintro ⟨hlo, hhi, h | h⟩
      · exact .inl ⟨hlo, hhi, h⟩
      · exact .inr ⟨by omega, hv⟩
    · rintro (⟨hlo, hhi, h⟩ | ⟨h, -⟩)
      · exact ⟨hlo, hhi, .inl h⟩
      · subst h
        exact ⟨hv.1, hv.2, .inr rfl⟩
  · rename_i hv
    simp [hv]

/-! ## All values -/

theorem mem_insertAll : v ∈ s.insertAll ↔ s.lo ≤ v ∧ v ≤ s.hi := by
  simp only [mem_iff_testBit, insertAll, position, Nat.one_shiftLeft, Nat.testBit_two_pow_sub_one, width,
    decide_eq_true_eq]
  omega

/-! ## Progressions -/

/-- A progression holds the values at a multiple of the step from its start, between its ends and
between the bounds. -/
theorem mem_progression {lo hi start stop step : Int} :
    v ∈ progression lo hi start stop step ↔
      (lo ≤ v ∧ v ≤ hi) ∧ start ≤ v ∧ v ≤ stop ∧ (v - start) % max step 1 = 0 := by
  unfold progression
  generalize hd : max step 1 = d
  have hpos : 0 < d := by omega
  generalize hf : max start lo = f
  have hmod := Int.emod_nonneg (start - f) (Int.ne_of_gt hpos)
  have hmod_lt := Int.emod_lt_of_pos (start - f) hpos
  simp only [List.mem_map, List.mem_range]
  constructor
  · rintro ⟨i, hi', rfl⟩
    have hquot : (i : Int) ≤ (min stop hi - (f + (start - f) % d)) / d := by omega
    have hbound : (i : Int) * d ≤ min stop hi - (f + (start - f) % d) :=
      (Int.le_ediv_iff_mul_le hpos).mp hquot
    have hnonneg : 0 ≤ (i : Int) * d := Int.mul_nonneg (by omega) (by omega)
    refine ⟨⟨by omega, by omega⟩, by omega, by omega, ?_⟩
    have hsplit : f + (start - f) % d + i * d - start = (i - (start - f) / d) * d := by
      have hdiv := Int.mul_ediv_add_emod (start - f) d
      rw [Int.sub_mul, Int.mul_comm ((start - f) / d) d]
      omega
    rw [hsplit, Int.mul_emod_left]
  · rintro ⟨⟨hlo, hhi⟩, hstart, hstop, hdvd⟩
    have hcongr : (v - (f + (start - f) % d)) % d = 0 := by
      have hdiv := Int.mul_ediv_add_emod (start - f) d
      have hsplit : v - (f + (start - f) % d) = (v - start) + d * ((start - f) / d) := by omega
      rw [hsplit, Int.add_mul_emod_self_left]
      exact hdvd
    have hquot := Int.mul_ediv_add_emod (v - (f + (start - f) % d)) d
    rw [hcongr, Int.add_zero] at hquot
    have hge : 0 ≤ (v - (f + (start - f) % d)) / d := by
      by_cases hneg : v - (f + (start - f) % d) < 0
      · exfalso
        have hlt : -d < v - (f + (start - f) % d) := by omega
        rw [Int.emod_eq_add_self_emod, Int.emod_eq_of_lt (by omega) (by omega)] at hcongr
        omega
      · exact Int.ediv_nonneg (by omega) (by omega)
    refine ⟨((v - (f + (start - f) % d)) / d).toNat, ?_, ?_⟩
    · have hle : (v - (f + (start - f) % d)) / d ≤ (min stop hi - (f + (start - f) % d)) / d :=
        Int.ediv_le_ediv hpos (by omega)
      omega
    · rw [Int.toNat_of_nonneg hge, Int.mul_comm]
      omega

@[simp]
theorem lo_foldl_insert (vs : List Int) (s : ValueSet) : (vs.foldl insert s).lo = s.lo := by
  induction vs generalizing s with
  | nil => rfl
  | cons v vs ih => rw [List.foldl_cons, ih, lo_insert]

@[simp]
theorem hi_foldl_insert (vs : List Int) (s : ValueSet) : (vs.foldl insert s).hi = s.hi := by
  induction vs generalizing s with
  | nil => rfl
  | cons v vs ih => rw [List.foldl_cons, ih, hi_insert]

theorem mem_foldl_insert {vs : List Int} {s : ValueSet} :
    v ∈ vs.foldl insert s ↔ v ∈ s ∨ (v ∈ vs ∧ s.lo ≤ v ∧ v ≤ s.hi) := by
  induction vs generalizing s with
  | nil => simp
  | cons w vs ih =>
    rw [List.foldl_cons, ih, mem_insert, lo_insert, hi_insert, List.mem_cons]
    constructor
    · rintro ((h | ⟨rfl, h⟩) | ⟨h, h'⟩)
      · exact .inl h
      · exact .inr ⟨.inl rfl, h⟩
      · exact .inr ⟨.inr h, h'⟩
    · rintro (h | ⟨rfl | h, h'⟩)
      · exact .inl (.inl h)
      · exact .inl (.inr ⟨rfl, h'⟩)
      · exact .inr ⟨h, h'⟩

theorem mem_insertRange {start stop step : Int} :
    v ∈ s.insertRange start stop step ↔
      v ∈ s ∨ (s.lo ≤ v ∧ v ≤ s.hi ∧ start ≤ v ∧ v ≤ stop ∧ (v - start) % max step 1 = 0) := by
  rw [insertRange, mem_foldl_insert, mem_progression]
  constructor
  · rintro (h | ⟨⟨h, h'⟩, -⟩)
    · exact .inl h
    · exact .inr ⟨h.1, h.2, h'⟩
  · rintro (h | ⟨hlo, hhi, h⟩)
    · exact .inl h
    · exact .inr ⟨⟨⟨hlo, hhi⟩, h⟩, hlo, hhi⟩

/-! ## Insertions -/

/-- The values that an insertion asks for, whether or not the bounds of a set admit them. -/
def Insertion.Covers : Insertion → Int → Prop
  | all, _ => True
  | value v, w => w = v
  | range start stop step, w => start ≤ w ∧ w ≤ stop ∧ (w - start) % max step 1 = 0

@[simp]
theorem lo_apply (i : Insertion) (s : ValueSet) : (i.apply s).lo = s.lo := by
  cases i with
  | all => rfl
  | value v => exact lo_insert s v
  | range start stop step => exact lo_foldl_insert _ s

@[simp]
theorem hi_apply (i : Insertion) (s : ValueSet) : (i.apply s).hi = s.hi := by
  cases i with
  | all => rfl
  | value v => exact hi_insert s v
  | range start stop step => exact hi_foldl_insert _ s

-- Adding all values leaves no trace of those before, but they are among all.
theorem mem_apply {i : Insertion} :
    v ∈ i.apply s ↔ v ∈ s ∨ ((s.lo ≤ v ∧ v ≤ s.hi) ∧ i.Covers v) := by
  cases i with
  | all =>
    have hbounds : v ∈ s → s.lo ≤ v ∧ v ≤ s.hi := fun hv => ⟨lo_le_of_mem hv, le_hi_of_mem hv⟩
    rw [Insertion.apply, mem_insertAll, Insertion.Covers, and_true]
    exact ⟨.inr, fun h => h.elim hbounds id⟩
  | value w =>
    rw [Insertion.apply, mem_insert, Insertion.Covers]
    apply or_congr_right
    constructor
    · rintro ⟨rfl, h⟩
      exact ⟨h, rfl⟩
    · rintro ⟨h, rfl⟩
      exact ⟨rfl, h⟩
  | range start stop step =>
    rw [Insertion.apply, mem_insertRange, Insertion.Covers, and_assoc]

theorem lo_foldl_apply (is : List Insertion) (s : ValueSet) :
    (is.foldl (fun s i => i.apply s) s).lo = s.lo := by
  induction is generalizing s with
  | nil => rfl
  | cons i is ih => rw [List.foldl_cons, ih, lo_apply]

theorem hi_foldl_apply (is : List Insertion) (s : ValueSet) :
    (is.foldl (fun s i => i.apply s) s).hi = s.hi := by
  induction is generalizing s with
  | nil => rfl
  | cons i is ih => rw [List.foldl_cons, ih, hi_apply]

/-- After a list of insertions the members are those before and the values between the bounds that some
insertion asks for. -/
theorem mem_foldl_apply {is : List Insertion} {s : ValueSet} :
    v ∈ is.foldl (fun s i => i.apply s) s ↔
      v ∈ s ∨ ((s.lo ≤ v ∧ v ≤ s.hi) ∧ ∃ i ∈ is, i.Covers v) := by
  induction is generalizing s with
  | nil => simp
  | cons i is ih =>
    rw [List.foldl_cons, ih, mem_apply, lo_apply, hi_apply, or_assoc, ← and_or_left]
    simp only [List.mem_cons, exists_eq_or_imp]

/-! ## The list of members -/

theorem mem_toList : v ∈ s.toList ↔ v ∈ s := by
  simp only [toList, List.mem_filter, List.mem_map, List.mem_range, ← mem_iff]
  constructor
  · exact fun h => h.2
  · intro h
    have hlo := lo_le_of_mem h
    refine ⟨⟨s.position v, position_lt_width ⟨hlo, le_hi_of_mem h⟩, ?_⟩, h⟩
    unfold position
    omega

theorem pairwise_toList (s : ValueSet) : s.toList.Pairwise (· < ·) := by
  apply List.Pairwise.filter
  rw [List.pairwise_map]
  exact List.pairwise_lt_range.imp fun h => by omega

/-- Sets between the same bounds are equal when their lists are. -/
theorem eq_iff_toList_eq : s = t ↔ s.lo = t.lo ∧ s.hi = t.hi ∧ s.toList = t.toList := by
  constructor
  · intro h
    rw [h]
    exact ⟨rfl, rfl, rfl⟩
  · intro h
    apply ext h.1 h.2.1
    intro v
    rw [← mem_toList, ← mem_toList, h.2.2]

end Timetable.ValueSet
