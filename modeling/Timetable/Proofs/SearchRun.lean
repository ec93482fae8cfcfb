import Timetable.Proofs.SearchPass

/-!
# What a search answers

A search never ends in a fault. What it finds is the least minute after its start that the schedule
admits, whatever the start and however few passes it may take (`Schedule.nextAfter_isLeast`).
-/

namespace Timetable

namespace FieldSets

variable {s : FieldSets} {p q r : Point}

/-! ## All passes -/

/-- Some number of passes answers, and leaves out no admitted minute before the one that it finds. -/
theorem search_spec (hs : s.WellFormed) (passes : Nat) (p : Point) :
    ∃ found, s.search daysInMonth passes p = .ok found ∧
      ∀ q, found = some q → s.Admits q ∧ s.Skips p q := by
  induction passes generalizing p with
  | zero => exact ⟨none, rfl, fun q h => absurd h (by simp)⟩
  | succ passes ih =>
    obtain ⟨e, he, hends⟩ := pass_ends hs p
    unfold search
    rw [he]
    cases hends with
    | found hadmits hskip =>
      refine ⟨_, rfl, fun q h => ?_⟩
      obtain rfl := Option.some.inj h
      exact ⟨hadmits, hskip⟩
    | moved hmoves =>
      obtain ⟨found, hfound, hspec⟩ := ih _
      refine ⟨found, hfound, fun q h => ?_⟩
      exact ⟨(hspec q h).1, hmoves.skips.trans (hspec q h).2⟩

theorem search_congr {table table' : MonthTable} (hs : s.WellFormed)
    (htable : ∀ year month, 1 ≤ month → month ≤ 12 → table year month = table' year month)
    (passes : Nat) (p : Point) : s.search table passes p = s.search table' passes p := by
  induction passes generalizing p with
  | zero => rfl
  | succ passes ih =>
    unfold search
    rw [pass_congr hs htable]
    split
    · rfl
    · rfl
    · exact ih _

/-! ## The minute that follows -/

theorem lt_minuteAfter (s : FieldSets) (p : Point) : p < s.minuteAfter p := by
  rw [Point.lt_iff, minuteAfter]
  split
  · exact .inr ⟨rfl, .inl (Int.lt_add_one_of_le le_rfl)⟩
  · exact .inr ⟨rfl, .inr ⟨rfl, Int.lt_add_one_of_le le_rfl⟩⟩

theorem minuteAfter_le (hs : s.WellFormed) (hr : r.IsReal) (h : p < r) : s.minuteAfter p ≤ r := by
  have hhi : s.minutes.hi = 59 := (hs .minute).hi_eq
  have hminute := hr.2.2.2
  rw [Point.le_iff, minuteAfter, hhi]
  rcases Point.lt_iff.mp h with hdate | ⟨hdate, htime⟩
  · split
    · exact .inl hdate
    · exact .inl hdate
  · split
    · refine .inr ⟨hdate, ?_⟩
      show p.hour + 1 < r.hour ∨ (p.hour + 1 = r.hour ∧ 0 ≤ r.minute)
      omega
    · refine .inr ⟨hdate, ?_⟩
      show p.hour < r.hour ∨ (p.hour = r.hour ∧ p.minute + 1 ≤ r.minute)
      omega

-- The least admitted minute from the next one on is the least after the start.
theorem isLeast_of_skips (hs : s.WellFormed) (hadmits : s.Admits q) (h : s.Skips (s.minuteAfter p) q) :
    IsLeast {r | p < r ∧ s.Admits r} q := by
  refine ⟨⟨(s.lt_minuteAfter p).trans_le h.1, hadmits⟩, fun r hr => ?_⟩
  exact h.2 r hr.2 (minuteAfter_le hs hr.2.isReal hr.1)

end FieldSets

namespace Schedule

variable {s : Schedule}

/-- The point is a minute of the calendar that the schedule admits. -/
def RunsAt (s : Schedule) (p : Point) : Prop :=
  p.IsReal ∧ s.admits p.minute p.hour p.date.day p.date.month p.date.weekday = true

instance (s : Schedule) (p : Point) : Decidable (s.RunsAt p) := inferInstanceAs (Decidable (_ ∧ _))

theorem Valid.runsAt_iff (h : s.Valid) {p : Point} : s.RunsAt p ↔ s.sets.Admits p := by
  simp only [RunsAt, admits, h.isValid, Bool.true_and, Bool.and_eq_true, ← ValueSet.mem_iff]
  constructor
  · intro ⟨hreal, ⟨⟨⟨hminute, hhour⟩, hday⟩, hmonth⟩, hweekday⟩
    exact ⟨hreal, hminute, hhour, hday, hmonth, hweekday⟩
  · intro hadmits
    exact ⟨hadmits.isReal, ⟨⟨⟨hadmits.minute, hadmits.hour⟩, hadmits.day⟩, hadmits.month⟩, hadmits.weekday⟩

/-- The outcome of a search, from what its passes found. -/
def outcomeOf (s : Schedule) (start : Point) : Option Point → Outcome Point
  | some p => ⟨.ok p, []⟩
  | none => ⟨.ok (fallback start), [.searchExhausted s.expression s.searchLimit (start.date.year + 1)]⟩

theorem Valid.nextAfter_eq (h : s.Valid) {start : Point} {found : Option Point}
    (hfound : s.sets.search daysInMonth s.searchLimit.toNat (s.sets.minuteAfter start) = .ok found)
    (weekday : Int) : s.nextAfter start weekday = s.outcomeOf start found := by
  unfold nextAfter
  rw [h.check_eq, hfound]
  cases found with
  | none => rfl
  | some p => rfl

theorem lt_fallback (start : Point) : start < fallback start :=
  Point.lt_of_date_lt (Date.lt_iff.mpr (.inl (Int.lt_add_one_of_le le_rfl)))

theorem isReal_fallback (start : Point) : (fallback start).IsReal := by
  have hdays := monthDays_bounds (start.date.year + 1) 1
  rw [Point.IsReal, Date.isReal_iff]
  show (1 ≤ 1 ∧ 1 ≤ 12 ∧ 1 ≤ 1 ∧ 1 ≤ monthDays (start.date.year + 1) 1) ∧ _
  refine ⟨by omega, ?_⟩
  simp [fallback]

/-- Whatever the start, a search answers with a later point, and what its passes find is the least
admitted minute of the calendar after the start. No length of a month outside the calendar and no
weekday that stands beside the start has a part in the answer. -/
theorem nextAfter_isLeast (h : s.Valid) (start : Point) (weekday : Int) :
    ∃ found : Option Point,
      (∀ table : MonthTable,
        (∀ year month, 1 ≤ month → month ≤ 12 → table year month = daysInMonth year month) →
          s.sets.search table s.searchLimit.toNat (s.sets.minuteAfter start) = .ok found) ∧
      (s.nextAfter start weekday).result = .ok (found.getD (fallback start)) ∧
      start < found.getD (fallback start) ∧
      (∀ p, found = some p → IsLeast {q | start < q ∧ s.RunsAt q} p) ∧
      (∀ weekday', s.nextAfter start weekday' = s.nextAfter start weekday) := by
  have hs := h.wellFormed
  obtain ⟨found, hfound, hspec⟩ :=
    FieldSets.search_spec hs s.searchLimit.toNat (s.sets.minuteAfter start)
  have hleast : ∀ p, found = some p → IsLeast {q | start < q ∧ s.RunsAt q} p := by
    intro p hp
    simp only [h.runsAt_iff]
    exact FieldSets.isLeast_of_skips hs (hspec p hp).1 (hspec p hp).2
  refine ⟨found, ?_, ?_, ?_, hleast, fun weekday' => ?_⟩
  · intro table htable
    rw [FieldSets.search_congr hs htable]
    exact hfound
  · rw [h.nextAfter_eq hfound]
    cases found with
    | none => rfl
    | some p => rfl
  · cases found with
    | none => exact lt_fallback start
    | some p => exact (hleast p rfl).1.1
  · rw [h.nextAfter_eq hfound, h.nextAfter_eq hfound]

-- From a point that is far from any date: its minute, hour, day and month are all out of range.
theorem nextAfter_isLeast_leapDays :
    (leapDays 10).Valid ∧
      ((leapDays 10).nextAfter ⟨⟨2023, 14, -5⟩, 30, 1000⟩ 9).result = .ok ⟨⟨2024, 2, 29⟩, 0, 0⟩ ∧
      IsLeast {q | (⟨⟨2023, 14, -5⟩, 30, 1000⟩ : Point) < q ∧ (leapDays 10).RunsAt q}
        ⟨⟨2024, 2, 29⟩, 0, 0⟩ := by
  obtain ⟨found, hfound, hresult, -, hleast, -⟩ :=
    nextAfter_isLeast (leapDays_valid 10) ⟨⟨2023, 14, -5⟩, 30, 1000⟩ 9
  have hpasses := hfound daysInMonth fun _ _ _ _ => rfl
  have hsome : found = some ⟨⟨2024, 2, 29⟩, 0, 0⟩ :=
    Except.ok.inj (hpasses.symm.trans (by rfl))
  rw [hsome, Option.getD_some] at hresult
  exact ⟨leapDays_valid 10, hresult, hleast _ hsome⟩

end Schedule

end Timetable
