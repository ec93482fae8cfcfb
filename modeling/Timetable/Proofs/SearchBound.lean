import Timetable.Proofs.SearchRun

/-!
# How many passes a search needs

Among the dates with days 1 to 31 in each of twelve months, which `Date.slot` numbers, every pass but
the first comes to a later one. The calendar repeats after 400 years, so that a schedule that admits
any minute at all admits one before that many years have gone by, and the usual bound on passes is
more than enough to reach it (`Schedule.nextAfter_threshold`).
-/

namespace Timetable

/-! ## Dates in a grid of 31 days a month -/

namespace Date

-- The place of a date when every month has 31 days.
def slot (d : Date) : Int := (d.year * 12 + d.month) * 31 + d.day

theorem slot_lt {d e : Date} (hd : d.InGrid) (he : e.InGrid) (h : d < e) : d.slot < e.slot := by
  rw [lt_iff] at h
  unfold InGrid slot at *
  omega

theorem slot_le {d e : Date} (hd : d.InGrid) (he : e.InGrid) (h : d ≤ e) : d.slot ≤ e.slot := by
  rcases h.lt_or_eq with hlt | rfl
  · exact (slot_lt hd he hlt).le
  · exact le_rfl

end Date

namespace FieldSets

variable {s : FieldSets} {p q r : Point}

/-! ## Passes from the first minute of an hour -/

-- Every pass takes at least one slot, so as many passes as there are slots up to an admitted minute
-- find one.
theorem search_finds (hs : s.WellFormed) (hr : s.Admits r) {passes : Nat} (hpr : p ≤ r)
    (hminute : p.minute = s.minutes.first) (hgrid : p.date.InGrid)
    (hpasses : r.date.slot - p.date.slot < passes) :
    ∃ q, s.search daysInMonth passes p = .ok (some q) := by
  induction passes generalizing p with
  | zero =>
    have hslots := Date.slot_le hgrid hr.isReal.1.inGrid (Point.date_le hpr)
    omega
  | succ passes ih =>
    obtain ⟨e, he, hends⟩ := pass_ends hs p
    unfold search
    rw [he]
    cases hends with
    | found => exact ⟨_, rfl⟩
    | moved hmoves =>
      have hslot := Date.slot_lt hgrid hmoves.inGrid (hmoves.date_lt hminute)
      exact ih (hmoves.skips.2 r hr hpr) hmoves.minute_eq hmoves.inGrid (by omega)

/-! ## The first four centuries -/

theorem admits_addPeriods (h : s.Admits p) (k : Int) :
    s.Admits ⟨p.date.addPeriods k, p.hour, p.minute⟩ where
  isReal := ⟨Date.isReal_addPeriods h.isReal.1 k, h.isReal.2⟩
  minute := h.minute
  hour := h.hour
  day := h.day
  month := h.month
  weekday := by
    show (p.date.addPeriods k).weekday ∈ s.weekdays
    rw [Date.weekday_addPeriods]
    exact h.weekday

theorem exists_admits_after (h : s.Admits p) (year : Int) :
    ∃ r, s.Admits r ∧ year < r.date.year ∧ r.date.year ≤ year + 400 := by
  refine ⟨_, admits_addPeriods h ((year - p.date.year) / 400 + 1), ?_⟩
  show year < p.date.year + 400 * ((year - p.date.year) / 400 + 1) ∧
    p.date.year + 400 * ((year - p.date.year) / 400 + 1) ≤ year + 400
  omega

/-- From any point, the usual number of passes finds an admitted minute if there is any. -/
theorem search_finds_default (hs : s.WellFormed) (h : s.Admits r) (p : Point) :
    ∃ q, s.search daysInMonth Schedule.defaultSearchLimit.toNat p = .ok (some q) := by
  obtain ⟨e, he, hends⟩ := pass_ends hs p
  -- The first pass is the one that may begin anywhere; the next ones go through the grid.
  obtain ⟨passes, hlimit, hpasses⟩ :
      ∃ passes : Nat, Schedule.defaultSearchLimit.toNat = passes + 1 ∧ (527039 : Int) ≤ passes :=
    ⟨527039, rfl, le_rfl⟩
  rw [hlimit]
  unfold search
  rw [he]
  cases hends with
  | found => exact ⟨_, rfl⟩
  | @moved q hmoves =>
    obtain ⟨r', hr', hafter, hbefore⟩ := exists_admits_after h q.date.year
    have hdate : q.date < r'.date := Date.lt_iff.mpr (.inl hafter)
    apply search_finds hs hr' (Point.lt_of_date_lt hdate).le hmoves.minute_eq hmoves.inGrid
    have hqgrid := hmoves.inGrid
    have hrgrid := hr'.isReal.1.inGrid
    unfold Date.InGrid at hqgrid hrgrid
    unfold Date.slot
    omega

/-! ## More passes -/

theorem search_mono {passes passes' : Nat} (hle : passes ≤ passes')
    (h : s.search daysInMonth passes p = .ok (some q)) :
    s.search daysInMonth passes' p = .ok (some q) := by
  induction passes generalizing p passes' with
  | zero => exact absurd (Except.ok.inj h) (by simp)
  | succ passes ih =>
    obtain ⟨n, rfl⟩ := Nat.exists_eq_succ_of_ne_zero (Nat.ne_of_gt (Nat.lt_of_lt_of_le passes.succ_pos hle))
    unfold search at h ⊢
    split at h
    · exact absurd h (by simp)
    · exact h
    · exact ih (Nat.le_of_succ_le_succ hle) h

/-- The least number of passes that find anything parts the numbers that find nothing from those that
find the same minute. -/
theorem search_threshold (hs : s.WellFormed) {limit : Nat}
    (h : s.search daysInMonth limit p = .ok (some q)) :
    ∃ threshold ≤ limit, 0 < threshold ∧
      (∀ passes, threshold ≤ passes → s.search daysInMonth passes p = .ok (some q)) ∧
      ∀ passes < threshold, s.search daysInMonth passes p = .ok none := by
  classical
  have hex : ∃ n, ∃ q', s.search daysInMonth n p = .ok (some q') := ⟨limit, q, h⟩
  have hle : Nat.find hex ≤ limit := Nat.find_le ⟨q, h⟩
  obtain ⟨q', hq'⟩ := Nat.find_spec hex
  have heq : q' = q := Option.some.inj (Except.ok.inj ((search_mono hle hq').symm.trans h))
  refine ⟨Nat.find hex, hle, Nat.pos_of_ne_zero fun hzero => ?_, fun passes hpasses => ?_, fun passes hpasses => ?_⟩
  · rw [hzero] at hq'
    exact absurd (Except.ok.inj hq') (by simp)
  · exact heq ▸ search_mono hpasses hq'
  · obtain ⟨found, hfound, -⟩ := search_spec hs passes p
    cases found with
    | none => exact hfound
    | some r => exact absurd ⟨r, hfound⟩ (Nat.find_min hex hpasses)

end FieldSets

namespace Schedule

variable {s : Schedule}

/-- The outcome of a search that found nothing: midnight of January 1 of the year after that of the start,
reported by a single warning. -/
def FallsBack (start : Point) (x : Outcome Point) : Prop :=
  x.result = .ok ⟨⟨start.date.year + 1, 1, 1⟩, 0, 0⟩ ∧ ∃ e, x.events = [e] ∧ e.severity = .warning

theorem fallsBack_outcomeOf_none (s : Schedule) (start : Point) : FallsBack start (s.outcomeOf start none) :=
  ⟨rfl, _, rfl, rfl⟩

theorem not_fallsBack_of_silent {start p : Point} : ¬ FallsBack start ⟨.ok p, []⟩ := by
  intro ⟨_, e, hevents, _⟩
  exact List.cons_ne_nil _ _ hevents.symm

theorem Valid.nextAfter_withLimit (h : s.Valid) {start : Point} {bound : Int} {found : Option Point}
    (hfound : s.sets.search daysInMonth bound.toNat (s.sets.minuteAfter start) = .ok found)
    (weekday : Int) :
    ({ s with searchLimit := bound } : Schedule).nextAfter start weekday =
      ({ s with searchLimit := bound } : Schedule).outcomeOf start found :=
  (h.withLimit bound).nextAfter_eq hfound weekday

/-- The usual bound on passes is enough: if the schedule admits any minute, a search answers with the
least admitted one after its start, and reports nothing. -/
theorem Valid.nextAfter_default (h : s.Valid) (hlimit : s.searchLimit = defaultSearchLimit) {r : Point}
    (hr : s.RunsAt r) (start : Point) (weekday : Int) :
    ∃ p, s.nextAfter start weekday = ⟨.ok p, []⟩ ∧ IsLeast {q | start < q ∧ s.RunsAt q} p := by
  have hs := h.wellFormed
  simp only [h.runsAt_iff] at hr ⊢
  obtain ⟨p, hp⟩ := FieldSets.search_finds_default hs hr (s.sets.minuteAfter start)
  rw [← hlimit] at hp
  obtain ⟨found, hfound, hspec⟩ :=
    FieldSets.search_spec hs s.searchLimit.toNat (s.sets.minuteAfter start)
  have hp' := hspec p (Except.ok.inj (hfound.symm.trans hp))
  exact ⟨p, h.nextAfter_eq hp weekday, FieldSets.isLeast_of_skips hs hp'.1 hp'.2⟩

theorem Valid.exists_threshold (h : s.Valid) {q : Point} (hq : s.RunsAt q) (start : Point) (weekday : Int) :
    ∃ (threshold : Int) (p : Point),
      1 ≤ threshold ∧ threshold ≤ defaultSearchLimit ∧ s.RunsAt p ∧
        (∀ bound, threshold ≤ bound →
          ({ s with searchLimit := bound } : Schedule).nextAfter start weekday = ⟨.ok p, []⟩) ∧
        (∀ bound < threshold,
          FallsBack start (({ s with searchLimit := bound } : Schedule).nextAfter start weekday)) := by
  have hs := h.wellFormed
  rw [h.runsAt_iff] at hq
  rcases FieldSets.search_finds_default hs hq (s.sets.minuteAfter start) with ⟨p, hp⟩
  rcases FieldSets.search_threshold hs hp with ⟨threshold, hle, hpos, hfinds, hnone⟩
  have hadmits : s.sets.Admits p := by
    rcases FieldSets.search_spec hs defaultSearchLimit.toNat (s.sets.minuteAfter start) with
      ⟨found, hfound, hspec⟩
    exact (hspec p (Except.ok.inj (hfound.symm.trans hp))).1
  refine ⟨threshold, p, by omega, ?_, h.runsAt_iff.mpr hadmits, fun bound hbound => ?_, fun bound hbound => ?_⟩
  · unfold defaultSearchLimit at *
    omega
  · exact h.nextAfter_withLimit (hfinds bound.toNat (by omega)) weekday
  · rw [h.nextAfter_withLimit (hnone bound.toNat (by omega)) weekday]
    exact fallsBack_outcomeOf_none _ start

theorem Valid.fallsBack_of_not_runsAt (h : s.Valid) (hno : ¬ ∃ q, s.RunsAt q) (start : Point)
    (weekday bound : Int) :
    FallsBack start (({ s with searchLimit := bound } : Schedule).nextAfter start weekday) := by
  rcases FieldSets.search_spec h.wellFormed bound.toNat (s.sets.minuteAfter start) with
    ⟨found, hfound, hspec⟩
  rw [h.nextAfter_withLimit hfound weekday]
  cases found with
  | none => exact fallsBack_outcomeOf_none _ start
  | some q => exact absurd ⟨q, h.runsAt_iff.mpr (hspec q rfl).1⟩ hno

/-- As the bound on passes grows, the outcome of a search changes at most once, from the fallback to
the minute that is found. It does so within the usual bound if the schedule admits any minute. -/
theorem nextAfter_threshold (h : s.Valid) (start : Point) (weekday : Int) :
    ((∃ q, s.RunsAt q) → ∃ (threshold : Int) (p : Point),
      1 ≤ threshold ∧ threshold ≤ defaultSearchLimit ∧ s.RunsAt p ∧
        (∀ bound, threshold ≤ bound →
          ({ s with searchLimit := bound } : Schedule).nextAfter start weekday = ⟨.ok p, []⟩) ∧
        (∀ bound < threshold,
          FallsBack start (({ s with searchLimit := bound } : Schedule).nextAfter start weekday))) ∧
      ((¬ ∃ q, s.RunsAt q) → ∀ bound,
        FallsBack start (({ s with searchLimit := bound } : Schedule).nextAfter start weekday)) ∧
      (FallsBack start (({ s with searchLimit := defaultSearchLimit } : Schedule).nextAfter start weekday) ↔
        ¬ ∃ q, s.RunsAt q) := by
  refine ⟨fun ⟨q, hq⟩ => h.exists_threshold hq start weekday,
    fun hno => h.fallsBack_of_not_runsAt hno start weekday, fun hfallsBack ⟨q, hq⟩ => ?_,
    fun hno => h.fallsBack_of_not_runsAt hno start weekday _⟩
  rcases h.exists_threshold hq start weekday with ⟨threshold, p, -, hle, -, hfinds, -⟩
  rw [hfinds _ hle] at hfallsBack
  exact not_fallsBack_of_silent hfallsBack

-- No year between 1896 and 1904 is a leap year.
theorem nextAfter_threshold_leapDays :
    (leapDays 0).Valid ∧ ∃ threshold : Int, 1 ≤ threshold ∧ threshold ≤ defaultSearchLimit ∧
      (∀ bound, threshold ≤ bound →
        (leapDays bound).nextAfter ⟨⟨1896, 2, 29⟩, 0, 0⟩ 6 = ⟨.ok ⟨⟨1904, 2, 29⟩, 0, 0⟩, []⟩) ∧
      (∀ bound < threshold,
        FallsBack ⟨⟨1896, 2, 29⟩, 0, 0⟩ ((leapDays bound).nextAfter ⟨⟨1896, 2, 29⟩, 0, 0⟩ 6)) := by
  have hruns : (leapDays 0).RunsAt ⟨⟨1896, 2, 29⟩, 0, 0⟩ := by decide
  obtain ⟨threshold, p, hpos, hle, -, hfinds, hfallsBack⟩ :=
    (nextAfter_threshold (leapDays_valid 0) ⟨⟨1896, 2, 29⟩, 0, 0⟩ 6).1 ⟨_, hruns⟩
  have hfound : (leapDays 20).nextAfter ⟨⟨1896, 2, 29⟩, 0, 0⟩ 6 = ⟨.ok ⟨⟨1904, 2, 29⟩, 0, 0⟩, []⟩ := by
    rfl
  have hthreshold : threshold ≤ 20 := by
    by_contra hlt
    have hback := hfallsBack 20 (by omega)
    exact not_fallsBack_of_silent (hfound ▸ hback)
  have hp : p = ⟨⟨1904, 2, 29⟩, 0, 0⟩ := by
    have heq := (hfinds 20 hthreshold).symm.trans hfound
    exact Except.ok.inj (Outcome.mk.inj heq).1
  exact ⟨leapDays_valid 0, threshold, hpos, hle, hp ▸ hfinds, hfallsBack⟩

end Schedule

end Timetable
