import Timetable.Proofs.InsertionSequence

/-!
# Successors in sets made by insertions

Whatever insertions have made a set, the successor query answers with the least of the listed values at or above
its start, and with -1 where there is none (`ValueSet.next_exact`).

* The bounds may admit -1 itself. As an answer it is then right in both of its senses, and does not tell which
  one is meant.
* `first` has to tell them apart. When the least value is -1 and not the lower bound, it takes the value for the
  lack of one and answers with the lower bound, which is not among the values (`ValueSet.first_exact`). This
  cannot happen to the values of a field, which are never negative.
-/

namespace Timetable.ValueSet

variable {lo hi : Int}

/-! ## The successor query -/

/-- Whatever insertions have made a set, the successor query answers with the least of the listed values at or
above its start, or with -1 when all of them are below it. -/
theorem next_exact (h : lo ≤ hi) (is : List Insertion) :
    ∃ s, (empty lo hi).performAll is = .ok s ∧ s.lo = lo ∧ s.hi = hi ∧ ∀ start,
      ((∃ v ∈ s.toList, start ≤ v) → IsLeast {v | v ∈ s.toList ∧ start ≤ v} (s.next start)) ∧
      ((∀ v ∈ s.toList, v < start) → s.next start = -1) := by
  have hwidth : 0 ≤ hi - lo + 1 := by omega
  obtain ⟨s, hs, hlo, hhi, -⟩ := exists_performAll_empty hwidth is
  refine ⟨s, hs, hlo, hhi, fun start => ?_⟩
  simp only [mem_toList]
  exact ⟨isLeast_next, next_of_forall_lt⟩

-- The values -4, -1, 2 and 5. At or above -3 the least is -1, and above 5 there is none.
theorem next_exact_negative :
    (-5 : Int) ≤ 5 ∧ ∃ s, (empty (-5) 5).performAll [.range (-100) 100 3, .value 6] = .ok s ∧
      s.toList = [-4, -1, 2, 5] ∧ s.next (-1000) = -4 ∧ s.next (-3) = -1 ∧ s.next 6 = -1 := by
  have hbounds : (-5 : Int) ≤ 5 := by decide
  obtain ⟨s, hs, -, -, hnext⟩ := next_exact hbounds [.range (-100) 100 3, .value 6]
  have hlist : ((empty (-5) 5).performAll [.range (-100) 100 3, .value 6]).map toList =
      .ok [-4, -1, 2, 5] := by rfl
  rw [hs] at hlist
  replace hlist : s.toList = [-4, -1, 2, 5] := Except.ok.inj hlist
  rw [hlist] at hnext
  have hbelow : IsLeast {v | v ∈ [-4, -1, 2, 5] ∧ -1000 ≤ v} (s.next (-1000)) :=
    (hnext (-1000)).1 (by decide)
  have hinside : IsLeast {v | v ∈ [-4, -1, 2, 5] ∧ -3 ≤ v} (s.next (-3)) := (hnext (-3)).1 (by decide)
  refine ⟨hbounds, s, hs, hlist, hbelow.unique ⟨by decide, ?_⟩, hinside.unique ⟨by decide, ?_⟩,
    (hnext 6).2 (by decide)⟩
  · simp [mem_lowerBounds]
  · simp [mem_lowerBounds]

/-! ## The first value -/

/-- The `first` value of a set made by insertions is the least of the listed values, unless that is -1 and not the
lower bound. The answer is then the lower bound, as for a set without values, and is not listed. -/
theorem first_exact (h : lo ≤ hi) (is : List Insertion) :
    ∃ s, (empty lo hi).performAll is = .ok s ∧ s.lo = lo ∧ s.hi = hi ∧
      (s.isEmpty = false →
        (IsLeast {v | v ∈ s.toList} s.first ↔ ¬ (lo < -1 ∧ IsLeast {v | v ∈ s.toList} (-1)))) ∧
      (lo < -1 → IsLeast {v | v ∈ s.toList} (-1) → s.first = lo ∧ lo ∉ s.toList) ∧
      (s.isEmpty = true → s.first = lo) := by
  have hwidth : 0 ≤ hi - lo + 1 := by omega
  obtain ⟨s, hs, rfl, rfl, -⟩ := exists_performAll_empty hwidth is
  refine ⟨s, hs, rfl, rfl, fun hempty => ?_, fun hlo hleast => ?_, first_of_isEmpty⟩
  · simp only [mem_toList]
    exact isLeast_first_iff (exists_mem hempty)
  · simp only [mem_toList] at hleast ⊢
    exact first_of_isLeast_noMatch hlo hleast

-- Of the values -4, -1 and 2 the first is -4. Of -1 and 2 the answer is -6, where -1 would be right.
theorem first_exact_negative :
    (-6 : Int) ≤ 4 ∧
    (∃ s, (empty (-6) 4).performAll [.value (-1), .range (-4) 4 3] = .ok s ∧ s.isEmpty = false ∧
      s.toList = [-4, -1, 2] ∧ IsLeast {v | v ∈ s.toList} s.first) ∧
    ∃ s, (empty (-6) 4).performAll [.value 2, .value (-1)] = .ok s ∧ s.isEmpty = false ∧
      IsLeast {v | v ∈ s.toList} (-1) ∧ s.first = -6 ∧ -6 ∉ s.toList := by
  have hbounds : (-6 : Int) ≤ 4 := by decide
  refine ⟨hbounds, ?_, ?_⟩
  · obtain ⟨s, hs, -, -, hfirst, -⟩ := first_exact hbounds [.value (-1), .range (-4) 4 3]
    have hset : ((empty (-6) 4).performAll [.value (-1), .range (-4) 4 3]).map
        (fun s => (s.isEmpty, s.toList)) = .ok (false, [-4, -1, 2]) := by rfl
    rw [hs] at hset
    obtain ⟨hempty, hlist⟩ := Prod.mk.inj (Except.ok.inj hset)
    refine ⟨s, hs, hempty, hlist, (hfirst hempty).mpr ?_⟩
    rintro ⟨-, hleast⟩
    rw [hlist] at hleast
    exact absurd (hleast.2 (show (-4 : Int) ∈ [-4, -1, 2] by decide)) (by decide)
  · obtain ⟨s, hs, -, -, -, hhidden, -⟩ := first_exact hbounds [.value 2, .value (-1)]
    have hset : ((empty (-6) 4).performAll [.value 2, .value (-1)]).map
        (fun s => (s.isEmpty, s.toList)) = .ok (false, [-1, 2]) := by rfl
    rw [hs] at hset
    obtain ⟨hempty, hlist⟩ := Prod.mk.inj (Except.ok.inj hset)
    have hleast : IsLeast {v | v ∈ s.toList} (-1) := by
      rw [hlist]
      exact ⟨by decide, by simp [mem_lowerBounds]⟩
    exact ⟨s, hs, hempty, hleast, hhidden (by decide) hleast⟩

/-- The one value -1 is not found, and the answer is a value that was never added. -/
theorem first_not_listed_minusOne :
    (-5 : Int) ≤ 5 ∧ ∃ s, (empty (-5) 5).performAll [.value (-1)] = .ok s ∧ s.isEmpty = false ∧
      s.toList = [-1] ∧ s.first = -5 ∧ s.first ∉ s.toList ∧ ¬ IsLeast {v | v ∈ s.toList} s.first := by
  have hnot : (-5 : Int) ∉ [-1] := by decide
  exact ⟨by decide, _, rfl, rfl, rfl, rfl, hnot, fun hleast => hnot hleast.1⟩

end Timetable.ValueSet
