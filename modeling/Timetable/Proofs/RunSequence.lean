import Timetable.Proofs.MinuteCount
import Timetable.Proofs.SearchBound

/-!
# The runs of a schedule in a row

A schedule that was made with the usual bound on passes and admits any minute has its runs exactly at
the minutes that it admits. Each run is found by a search from the one before, and the list of them is
what a look at every minute in turn would give (`Schedule.runs_firstRuns`).
-/

namespace Timetable

/-- The first second of a year. -/
def CivilTime.newYear (year : Int) : CivilTime := ⟨⟨year, 1, 1⟩, 0, 0, 0⟩

namespace Schedule

variable {s : Schedule} {now t : Int} {ts : List Int}

/-! ## Admitted minutes as timestamps -/

/-- The first seconds of the admitted minutes after a time. -/
def runTimes (s : Schedule) (now : Int) : Set Int :=
  {t | now < t ∧ 60 ∣ t ∧ s.admitsTimestamp t = true}

theorem admitsTimestamp_iff : s.admitsTimestamp t = true ↔ s.RunsAt (Point.ofTimestamp t) := by
  show _ ↔ (Point.ofTimestamp t).IsReal ∧ s.admitsTimestamp t = true
  simp only [Point.isReal_ofTimestamp, true_and]

theorem admitsTimestamp_timestamp {p : Point} (h : s.RunsAt p) : s.admitsTimestamp p.timestamp = true := by
  rw [admitsTimestamp_iff, Point.ofTimestamp_timestamp h.1]
  exact h

-- The order of the points is the order of their timestamps, so the least point has the least one.
theorem isLeast_timestamp {p : Point} (h : IsLeast {q | Point.ofTimestamp now < q ∧ s.RunsAt q} p) :
    IsLeast (s.runTimes now) p.timestamp := by
  have hreal : p.IsReal := h.1.2.1
  refine ⟨⟨?_, p.sixty_dvd_timestamp, admitsTimestamp_timestamp h.1.2⟩, fun u ⟨hlt, hdvd, hadmits⟩ => ?_⟩
  · exact (Point.ofTimestamp_lt_iff hreal now).mp h.1.1
  · have hu : (Point.ofTimestamp u).timestamp = u := by
      rw [Point.timestamp_ofTimestamp]
      omega
    have hureal := Point.isReal_ofTimestamp u
    have hafter : Point.ofTimestamp now < Point.ofTimestamp u := by
      rw [Point.ofTimestamp_lt_iff hureal, hu]
      exact hlt
    have hle : p ≤ Point.ofTimestamp u := h.2 ⟨hafter, admitsTimestamp_iff.mp hadmits⟩
    rw [← hu]
    exact (Point.strictMonoOn_timestamp.le_iff_le hreal hureal).mpr hle

/-! ## The next run -/

-- The next run is the timestamp of the point that the search answers with.
theorem nextRun_eq {p : Point} {events : List Event}
    (hp : ∀ weekday, s.nextAfter (Point.ofTimestamp now) weekday = ⟨.ok p, events⟩) :
    s.nextRun now = ⟨.ok p.timestamp, events⟩ := by
  show Point.timestamp <$> s.nextAfter (Point.ofTimestamp now) _ = _
  rw [hp, Outcome.map_eq]
  rfl

/-- The next run is the point that the search finds, or the fallback. -/
theorem Valid.nextRun_of_search (h : s.Valid) {now : Int} {found : Option Point}
    (hfound : s.sets.search daysInMonth s.searchLimit.toNat (s.sets.minuteAfter (Point.ofTimestamp now)) =
      .ok found) :
    s.nextRun now = ⟨.ok (found.getD (fallback (Point.ofTimestamp now))).timestamp,
      (s.outcomeOf (Point.ofTimestamp now) found).events⟩ := by
  apply nextRun_eq
  intro weekday
  rw [h.nextAfter_eq hfound]
  cases found with
  | none => rfl
  | some p => rfl

/-- Whatever the bound on passes, the next run is found without a fault and lies in the future. -/
theorem Valid.lt_nextRun (h : s.Valid) (now : Int) :
    ∃ t events, s.nextRun now = ⟨.ok t, events⟩ ∧ now < t := by
  have hs := h.wellFormed
  obtain ⟨found, hfound, hspec⟩ := FieldSets.search_spec hs s.searchLimit.toNat
    (s.sets.minuteAfter (Point.ofTimestamp now))
  refine ⟨_, _, h.nextRun_of_search hfound, ?_⟩
  cases found with
  | none => exact (Point.ofTimestamp_lt_iff (isReal_fallback _) now).mp (lt_fallback _)
  | some p =>
    have hleast := FieldSets.isLeast_of_skips hs (hspec p rfl).1 (hspec p rfl).2
    exact (Point.ofTimestamp_lt_iff hleast.1.2.isReal now).mp hleast.1.1

theorem Valid.nextRun_default (h : s.Valid) (hlimit : s.searchLimit = defaultSearchLimit)
    (hruns : ∃ t, s.admitsTimestamp t = true) (now : Int) :
    ∃ t, s.nextRun now = ⟨.ok t, []⟩ ∧ IsLeast (s.runTimes now) t := by
  obtain ⟨r, hr⟩ := hruns
  obtain ⟨p, hp, hleast⟩ := h.nextAfter_default hlimit (admitsTimestamp_iff.mp hr)
    (Point.ofTimestamp now) 0
  refine ⟨p.timestamp, nextRun_eq fun weekday => ?_, isLeast_timestamp hleast⟩
  -- Which weekday stands beside the start does not matter.
  exact hp

/-! ## The smallest admitted minutes -/

/-- The list holds the smallest `n` admitted minutes after a time, in ascending order. -/
structure FirstRuns (s : Schedule) (now : Int) (n : Nat) (ts : List Int) : Prop where
  length_eq : ts.length = n
  ascending : ts.Pairwise (· < ·)
  admitted : ∀ t ∈ ts, t ∈ s.runTimes now
  smallest : ∀ u ∈ s.runTimes now, u ∉ ts → ∀ t ∈ ts, t < u

theorem firstRuns_nil (s : Schedule) (now : Int) : s.FirstRuns now 0 [] where
  length_eq := rfl
  ascending := .nil
  admitted := by simp
  smallest := by simp

theorem FirstRuns.cons {n : Nat} (ht : IsLeast (s.runTimes now) t) (h : s.FirstRuns t n ts) :
    s.FirstRuns now (n + 1) (t :: ts) where
  length_eq := by rw [List.length_cons, h.length_eq]
  ascending := List.pairwise_cons.mpr ⟨fun u hu => (h.admitted u hu).1, h.ascending⟩
  admitted u hu := by
    rcases List.mem_cons.mp hu with rfl | hu
    · exact ht.1
    · have hu := h.admitted u hu
      exact ⟨ht.1.1.trans hu.1, hu.2⟩
  smallest u hu hnot v hv := by
    rw [List.mem_cons, not_or] at hnot
    have hlt : t < u := lt_of_le_of_ne (ht.2 hu) (Ne.symm hnot.1)
    rcases List.mem_cons.mp hv with rfl | hv
    · exact hlt
    · exact h.smallest u ⟨hlt, hu.2⟩ hnot.2 v hv

/-! ## A look at every minute -/

-- The first second of the minute that follows a time.
def nextMinute (now : Int) : Int := now - now % secondsPerMinute + secondsPerMinute

/-- The admitted ones among some number of minutes after a time. -/
def scan (s : Schedule) : Nat → Int → List Int
  | 0, _ => []
  | minutes + 1, now =>
    if s.admitsTimestamp (nextMinute now) then nextMinute now :: s.scan minutes (nextMinute now)
    else s.scan minutes (nextMinute now)

theorem nextMinute_le (ht : t ∈ s.runTimes now) : nextMinute now ≤ t := by
  have hlt := ht.1
  have hdvd := ht.2.1
  unfold nextMinute secondsPerMinute
  omega

-- By induction on the minutes up to the least admitted one: the scan passes over them and goes on
-- from there.
theorem exists_scan_eq_cons (ht : IsLeast (s.runTimes now) t) :
    ∃ skipped, ∀ minutes, s.scan (skipped + 1 + minutes) now = t :: s.scan minutes t := by
  obtain ⟨skipped, hskipped⟩ : ∃ skipped : Nat, t = nextMinute now + 60 * skipped := by
    have hle := nextMinute_le ht.1
    have hdvd := ht.1.2.1
    refine ⟨((t - nextMinute now) / 60).toNat, ?_⟩
    unfold nextMinute secondsPerMinute at *
    omega
  refine ⟨skipped, fun minutes => ?_⟩
  induction skipped generalizing now with
  | zero =>
    have heq : nextMinute now = t := by omega
    rw [Nat.zero_add, Nat.add_comm]
    show (if s.admitsTimestamp (nextMinute now) then _ else _) = _
    rw [heq, if_pos ht.1.2.2]
  | succ skipped ih =>
    have hnext : nextMinute (nextMinute now) = nextMinute now + 60 := by
      unfold nextMinute secondsPerMinute
      omega
    have hnow : now < nextMinute now ∧ 60 ∣ nextMinute now := by
      unfold nextMinute secondsPerMinute
      omega
    have hnot : ¬ s.admitsTimestamp (nextMinute now) = true := by
      intro hadmits
      have hle := ht.2 ⟨hnow.1, hnow.2, hadmits⟩
      omega
    have hlater : IsLeast (s.runTimes (nextMinute now)) t := by
      refine ⟨⟨by omega, ht.1.2⟩, fun u hu => ht.2 ⟨hnow.1.trans hu.1, hu.2⟩⟩
    have hrest := ih hlater (by omega)
    rw [Nat.add_right_comm skipped 1 1, Nat.add_right_comm _ 1 minutes]
    show (if s.admitsTimestamp (nextMinute now) then _ else _) = _
    rw [if_neg hnot]
    exact hrest

/-! ## Runs in a row -/

theorem runs_succ {n : Nat} (hrun : s.nextRun now = ⟨.ok t, []⟩) (hrest : s.runs n t = ⟨.ok ts, []⟩) :
    s.runs (n + 1) now = ⟨.ok (t :: ts), []⟩ := by
  unfold runs
  rw [hrun, Outcome.bind_ok rfl, hrest]
  rfl

/-- The first `n` runs after any time are the `n` smallest admitted minutes after it. A scan of every
minute finds the same. -/
theorem runs_firstRuns (h : s.Valid) (hlimit : s.searchLimit = defaultSearchLimit)
    (hruns : ∃ t, s.admitsTimestamp t = true) (now : Int) (n : Nat) :
    ∃ ts, s.runs n now = ⟨.ok ts, []⟩ ∧ s.FirstRuns now n ts ∧ ∃ minutes, s.scan minutes now = ts := by
  induction n generalizing now with
  | zero => exact ⟨[], rfl, firstRuns_nil s now, 0, rfl⟩
  | succ n ih =>
    obtain ⟨t, hrun, ht⟩ := h.nextRun_default hlimit hruns now
    obtain ⟨ts, hrest, hfirst, minutes, hscan⟩ := ih t
    obtain ⟨skipped, hskipped⟩ := exists_scan_eq_cons ht
    refine ⟨t :: ts, runs_succ hrun hrest, hfirst.cons ht, skipped + 1 + minutes, ?_⟩
    rw [hskipped, hscan]

-- Half a minute into a leap day, the next two are those of 2028 and 2032.
theorem runs_firstRuns_leapDays :
    (leapDays defaultSearchLimit).Valid ∧
      (leapDays defaultSearchLimit).searchLimit = defaultSearchLimit ∧
      (∃ t, (leapDays defaultSearchLimit).admitsTimestamp t = true) ∧
      (leapDays defaultSearchLimit).FirstRuns 1709164830 2 [1835395200, 1961625600] := by
  have hruns : ∃ t, (leapDays defaultSearchLimit).admitsTimestamp t = true := ⟨1709164800, by rfl⟩
  obtain ⟨ts, hts, hfirst, -⟩ :=
    runs_firstRuns (leapDays_valid defaultSearchLimit) rfl hruns 1709164830 2
  have heq : ts = [1835395200, 1961625600] := by
    have hvalue : (leapDays defaultSearchLimit).runs 2 1709164830 =
        ⟨.ok [1835395200, 1961625600], []⟩ := by rfl
    exact Except.ok.inj (Outcome.mk.inj (hts.symm.trans hvalue)).1
  exact ⟨leapDays_valid _, rfl, hruns, heq ▸ hfirst⟩

end Schedule

end Timetable
