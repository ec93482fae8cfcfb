import Timetable.Proofs.LeastMember

/-!
# Sets made by insertions

Whatever insertions have made a set, in whatever order and however often, it holds the values between its
bounds that some insertion asked for, and nothing else of its history (`ValueSet.performAll_exact`).

* The bounds may be one value the wrong way round. No value lies between them, and the set stays empty.
* A range that reaches far beyond the bounds adds no more than the values between them; adding all its values
  one by one makes the same set (`ValueSet.insertRange_eq_foldl_insert`).
-/

namespace Timetable.ValueSet

variable {s : ValueSet} {lo hi v : Int} {is : List Insertion}

/-- The values of a range beyond the bounds of a set are ignored one by one. -/
theorem insertRange_eq_foldl_insert (s : ValueSet) (start stop step : Int) :
    s.insertRange start stop step = (progression start stop start stop step).foldl insert s := by
  apply ext
  · rw [insertRange, lo_foldl_insert, lo_foldl_insert]
  · rw [insertRange, hi_foldl_insert, hi_foldl_insert]
  · intro v
    rw [mem_insertRange, mem_foldl_insert, mem_progression]
    apply or_congr_right
    constructor
    · intro h
      exact ⟨⟨⟨h.2.2.1, h.2.2.2.1⟩, h.2.2⟩, h.1, h.2.1⟩
    · intro h
      exact ⟨h.2.1, h.2.2, h.1.2⟩

/-! ## Insertions in turn -/

theorem perform_of_le (i : Insertion) (h : s.lo ≤ s.hi + 1) : i.perform s = .ok (i.apply s) := by
  rw [Insertion.perform, if_neg]
  intro hnegative
  omega

/-- Carries out insertions in turn, up to the first fault. -/
def performAll (s : ValueSet) (is : List Insertion) : Except Fault ValueSet :=
  is.foldlM (fun s i => i.perform s) s

-- No insertion moves the bounds, so that what admits the first one admits all.
theorem performAll_of_le (is : List Insertion) (h : s.lo ≤ s.hi + 1) :
    s.performAll is = .ok (is.foldl (fun s i => i.apply s) s) := by
  induction is generalizing s with
  | nil => rfl
  | cons i is ih =>
    have hnext : (i.apply s).lo ≤ (i.apply s).hi + 1 := by rwa [lo_apply, hi_apply]
    rw [performAll, List.foldlM_cons, perform_of_le i h, List.foldl_cons, ← ih hnext]
    rfl

theorem exists_performAll_empty (h : 0 ≤ hi - lo + 1) (is : List Insertion) :
    ∃ s, (empty lo hi).performAll is = .ok s ∧ s.lo = lo ∧ s.hi = hi ∧
      ∀ v, v ∈ s ↔ (lo ≤ v ∧ v ≤ hi) ∧ ∃ i ∈ is, i.Covers v := by
  have hbounds : (empty lo hi).lo ≤ (empty lo hi).hi + 1 := by
    show lo ≤ hi + 1
    omega
  refine ⟨_, performAll_of_le is hbounds, lo_foldl_apply is _, hi_foldl_apply is _, fun v => ?_⟩
  rw [mem_foldl_apply, or_iff_right (not_mem_empty lo hi)]
  rfl

theorem isEmpty_iff_toList_eq_nil : s.isEmpty = true ↔ s.toList = [] := by
  rw [List.eq_nil_iff_forall_not_mem]
  simp only [mem_toList]
  constructor
  · exact fun h v => not_mem_of_isEmpty h
  · intro h
    by_contra hne
    cases exists_mem (Bool.eq_false_iff.mpr hne) with
    | intro v hv => exact h v hv

/-- Insertions into an empty set, of any values and in any order, leave a set of exactly the values between
the bounds that some insertion asks for. Its list holds these values in ascending order, and is empty exactly
when the set says that it is. Two sets that were made by insertions are equal exactly when they have the same
bounds and the same list. -/
theorem performAll_exact (h : 0 ≤ hi - lo + 1) (is : List Insertion) :
    ∃ s, (empty lo hi).performAll is = .ok s ∧ s.lo = lo ∧ s.hi = hi ∧
      (∀ v, s.contains v = true ↔ (lo ≤ v ∧ v ≤ hi) ∧ ∃ i ∈ is, i.Covers v) ∧
      s.toList.Pairwise (· < ·) ∧
      (∀ v, v ∈ s.toList ↔ (lo ≤ v ∧ v ≤ hi) ∧ ∃ i ∈ is, i.Covers v) ∧
      (s.isEmpty = true ↔ s.toList = []) ∧
      ∀ (lo' hi' : Int) (is' : List Insertion) (s' : ValueSet), 0 ≤ hi' - lo' + 1 →
        (empty lo' hi').performAll is' = .ok s' →
          (s = s' ↔ lo = lo' ∧ hi = hi' ∧ s.toList = s'.toList) := by
  obtain ⟨s, hs, hlo, hhi, hmem⟩ := exists_performAll_empty h is
  refine ⟨s, hs, hlo, hhi, fun v => mem_iff.symm.trans (hmem v), s.pairwise_toList,
    fun v => mem_toList.trans (hmem v), isEmpty_iff_toList_eq_nil, ?_⟩
  intro lo' hi' is' s' h' hs'
  obtain ⟨t, ht, hlo', hhi', -⟩ := exists_performAll_empty h' is'
  obtain rfl := Except.ok.inj (hs'.symm.trans ht)
  rw [eq_iff_toList_eq, hlo, hhi, hlo', hhi']

-- Every third value from far below the bounds to far above them, and 0; and the same three values one by one,
-- the last of them twice.
theorem performAll_exact_negative :
    (0 : Int) ≤ 4 - (-3) + 1 ∧ ∃ s,
      (empty (-3) 4).performAll [.range (-1000) 1000 3, .value 99, .value 0] = .ok s ∧
      s.contains (-1) = true ∧ s.toList = [-1, 0, 2] ∧
      (empty (-3) 4).performAll [.value 2, .range 0 0 (-5), .value (-1), .value (-1)] = .ok s := by
  have hwidth : (0 : Int) ≤ 4 - (-3) + 1 := by decide
  obtain ⟨s, hs, -, -, hcontains, -, -, -, heq⟩ :=
    performAll_exact hwidth [.range (-1000) 1000 3, .value 99, .value 0]
  obtain ⟨t, ht, -⟩ :=
    performAll_exact hwidth [.value 2, .range 0 0 (-5), .value (-1), .value (-1)]
  have hlist : ((empty (-3) 4).performAll [.range (-1000) 1000 3, .value 99, .value 0]).map toList =
      .ok [-1, 0, 2] := by rfl
  have hlist' : ((empty (-3) 4).performAll [.value 2, .range 0 0 (-5), .value (-1), .value (-1)]).map toList =
      .ok [-1, 0, 2] := by rfl
  rw [hs] at hlist
  rw [ht] at hlist'
  have hst : s = t :=
    (heq (-3) 4 _ t hwidth ht).mpr ⟨rfl, rfl, Except.ok.inj (hlist.trans hlist'.symm)⟩
  refine ⟨hwidth, s, hs, ?_, Except.ok.inj hlist, hst ▸ ht⟩
  exact (hcontains (-1)).mpr ⟨by decide, .range (-1000) 1000 3, by decide, by unfold Insertion.Covers; decide⟩

end Timetable.ValueSet
