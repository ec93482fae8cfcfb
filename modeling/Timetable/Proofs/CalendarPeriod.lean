import Timetable.Proofs.RunSequence

/-!
# The period of 400 years

After 400 years the calendar repeats itself, leap days and weekdays included, and so does what is reckoned
from it. Every pass of a search that starts some periods later is the pass of the search from the earlier
start, moved by as many periods (`FieldSets.pass_addPeriods`), whatever point it starts at. So the runs of
a schedule recur with the calendar, and a search uses up its bound on passes in one period exactly if it does
in every other (`Schedule.nextRun_periodic`).
-/

namespace Timetable

/-- The seconds of 400 years. -/
def calendarPeriod : Int := Date.daysPerEra * secondsPerDay

theorem daysInMonth_add_periods (year month k : Int) :
    daysInMonth (year + 400 * k) month = daysInMonth year month := by
  unfold daysInMonth
  rw [isLeapYear_add_periods]

/-! ## Dates -/

namespace Date

theorem nextMonth_addPeriods (d : Date) (k : Int) : (d.addPeriods k).nextMonth = d.nextMonth.addPeriods k := by
  have hyear : d.year + 400 * k + 1 = d.year + 1 + 400 * k := by omega
  unfold nextMonth addPeriods
  by_cases hlast : 12 < d.month + 1
  · rw [if_pos hlast, if_pos hlast, hyear]
  · rw [if_neg hlast, if_neg hlast]

theorem nextDay_addPeriods (d : Date) (k : Int) :
    (d.addPeriods k).nextDay daysInMonth = (d.nextDay daysInMonth).map (addPeriods k) := by
  unfold nextDay
  show (daysInMonth (d.year + 400 * k) d.month >>= _) = _
  rw [daysInMonth_add_periods]
  cases daysInMonth d.year d.month with
  | error e => rfl
  | ok days =>
    show Except.ok (if days < d.day + 1 then (d.addPeriods k).nextMonth else _) =
      Except.ok (addPeriods k (if days < d.day + 1 then d.nextMonth else _))
    by_cases hlast : days < d.day + 1
    · rw [if_pos hlast, if_pos hlast, nextMonth_addPeriods]
    · rw [if_neg hlast, if_neg hlast]
      rfl

theorem dayNumber_addPeriods (d : Date) (k : Int) :
    (d.addPeriods k).dayNumber = d.dayNumber + k * daysPerEra := by
  have hyear : (d.addPeriods k).marchYear = d.marchYear + k * 400 := by
    show (if d.month ≤ 2 then d.year + 400 * k - 1 else d.year + 400 * k) = _
    unfold marchYear
    split
    · omega
    · omega
  have hmonth : (d.addPeriods k).marchMonth = d.marchMonth := rfl
  have hday : (d.addPeriods k).day = d.day := rfl
  rw [dayNumber_eq, dayNumber_eq, hyear, hmonth, hday, yearStart_add_eras]
  omega

-- Both are days of the calendar, and have the same number.
theorem ofDayNumber_add_eras (n k : Int) : ofDayNumber (n + k * daysPerEra) = (ofDayNumber n).addPeriods k := by
  have hspec := ofDayNumber_spec n
  have hlater := ofDayNumber_spec (n + k * daysPerEra)
  apply strictMonoOn_dayNumber.injOn hlater.1 (isReal_addPeriods hspec.1 k)
  rw [hlater.2, dayNumber_addPeriods, hspec.2]

end Date

/-! ## Points and times -/

namespace Point

-- The point a number of periods of 400 years later.
def addPeriods (k : Int) (p : Point) : Point := ⟨p.date.addPeriods k, p.hour, p.minute⟩

theorem timestamp_addPeriods (p : Point) (k : Int) :
    (p.addPeriods k).timestamp = p.timestamp + k * calendarPeriod := by
  have hday : (p.addPeriods k).date.dayNumber = p.date.dayNumber + k * Date.daysPerEra :=
    Date.dayNumber_addPeriods p.date k
  rw [timestamp_eq, timestamp_eq, hday]
  show _ + p.hour * 3600 + p.minute * 60 = _
  simp only [calendarPeriod, Date.daysPerEra, secondsPerDay, secondsPerHour, secondsPerMinute]
  omega

end Point

theorem CivilTime.ofTimestamp_add_periods (t k : Int) :
    ofTimestamp (t + k * calendarPeriod) =
      { ofTimestamp t with date := (ofTimestamp t).date.addPeriods k } := by
  have hdays : (t + k * calendarPeriod) / secondsPerDay = t / secondsPerDay + k * Date.daysPerEra := by
    simp only [calendarPeriod, Date.daysPerEra, secondsPerDay, secondsPerHour, secondsPerMinute]
    omega
  have hseconds : (t + k * calendarPeriod) % secondsPerDay = t % secondsPerDay := by
    simp only [calendarPeriod, Date.daysPerEra, secondsPerDay, secondsPerHour, secondsPerMinute]
    omega
  unfold ofTimestamp
  rw [hdays, hseconds, Date.ofDayNumber_add_eras]

theorem Point.ofTimestamp_add_periods (t k : Int) :
    ofTimestamp (t + k * calendarPeriod) = (ofTimestamp t).addPeriods k := by
  unfold ofTimestamp
  rw [CivilTime.ofTimestamp_add_periods]
  rfl

/-! ## Searches -/

-- What a pass comes to, a number of periods later.
def Pass.addPeriods (k : Int) : Pass → Pass
  | moved p => .moved (p.addPeriods k)
  | found p => .found (p.addPeriods k)

namespace FieldSets

variable (s : FieldSets) (p : Point) (k : Int)

theorem minuteAfter_addPeriods : s.minuteAfter (p.addPeriods k) = (s.minuteAfter p).addPeriods k := by
  show (if s.minutes.hi < p.minute + 1 then _ else _ : Point) = _
  unfold minuteAfter
  by_cases hlast : s.minutes.hi < p.minute + 1
  · rw [if_pos hlast, if_pos hlast]
    rfl
  · rw [if_neg hlast, if_neg hlast]
    rfl

-- Moving on to the day that follows, at some time of it.
theorem nextDay_moved_addPeriods (time : Date → Point)
    (htime : ∀ d : Date, time (d.addPeriods k) = (time d).addPeriods k) :
    ((p.date.addPeriods k).nextDay daysInMonth >>= fun d => Except.ok (Pass.moved (time d))) =
      (p.date.nextDay daysInMonth >>= fun d => Except.ok (Pass.moved (time d))).map (Pass.addPeriods k) := by
  rw [Date.nextDay_addPeriods]
  cases p.date.nextDay daysInMonth with
  | error e => rfl
  | ok d =>
    show Except.ok (Pass.moved (time (d.addPeriods k))) = _
    rw [htime]
    rfl

theorem settleMinute_addPeriods :
    s.settleMinute daysInMonth (p.addPeriods k) =
      (s.settleMinute daysInMonth p).map (Pass.addPeriods k) := by
  have hminute : s.minutes.next? (p.addPeriods k).minute = s.minutes.next? p.minute := rfl
  unfold settleMinute
  rw [hminute]
  cases s.minutes.next? p.minute with
  | some minute => rfl
  | none =>
    show (if s.hours.hi < p.hour + 1 then _ else _) = Except.map _ (if s.hours.hi < p.hour + 1 then _ else _)
    by_cases hlast : s.hours.hi < p.hour + 1
    · rw [if_pos hlast, if_pos hlast]
      apply nextDay_moved_addPeriods p k (fun d => ⟨d, 0, s.minutes.first⟩)
      exact fun d => rfl
    · rw [if_neg hlast, if_neg hlast]
      rfl

theorem settleHour_addPeriods :
    s.settleHour daysInMonth (p.addPeriods k) = (s.settleHour daysInMonth p).map (Pass.addPeriods k) := by
  have hhour : s.hours.next? (p.addPeriods k).hour = s.hours.next? p.hour := rfl
  unfold settleHour
  rw [hhour]
  cases s.hours.next? p.hour with
  | none =>
    apply nextDay_moved_addPeriods p k s.dawn
    exact fun d => rfl
  | some hour =>
    show s.settleMinute daysInMonth (if p.hour < hour then _ else _) =
      (s.settleMinute daysInMonth (if p.hour < hour then _ else _)).map _
    rw [← settleMinute_addPeriods]
    by_cases hlt : p.hour < hour
    · rw [if_pos hlt, if_pos hlt]
      rfl
    · rw [if_neg hlt, if_neg hlt]

theorem settleWeekday_addPeriods :
    s.settleWeekday daysInMonth (p.addPeriods k) =
      (s.settleWeekday daysInMonth p).map (Pass.addPeriods k) := by
  unfold settleWeekday
  show (if s.weekdays.contains (p.date.addPeriods k).weekday then _ else _) = _
  rw [Date.weekday_addPeriods]
  by_cases hweekday : s.weekdays.contains p.date.weekday = true
  · rw [if_pos hweekday, if_pos hweekday]
    exact settleHour_addPeriods s p k
  · rw [if_neg hweekday, if_neg hweekday]
    apply nextDay_moved_addPeriods p k s.dawn
    exact fun d => rfl

theorem dawn_nextMonth_addPeriods :
    s.dawn (p.addPeriods k).date.nextMonth = (s.dawn p.date.nextMonth).addPeriods k := by
  show s.dawn (p.date.addPeriods k).nextMonth = _
  rw [Date.nextMonth_addPeriods]
  rfl

theorem settleDay_addPeriods :
    s.settleDay daysInMonth (p.addPeriods k) = (s.settleDay daysInMonth p).map (Pass.addPeriods k) := by
  have hday : s.days.next? (p.addPeriods k).date.day = s.days.next? p.date.day := rfl
  unfold settleDay
  rw [dawn_nextMonth_addPeriods, hday]
  cases s.days.next? p.date.day with
  | none => rfl
  | some day =>
    show (daysInMonth (p.date.year + 400 * k) p.date.month >>= _) =
      (daysInMonth p.date.year p.date.month >>= _).map _
    rw [daysInMonth_add_periods]
    cases daysInMonth p.date.year p.date.month with
    | error e => rfl
    | ok days =>
      show (if days < day then _ else _) = Except.map _ (if days < day then _ else _)
      by_cases hshort : days < day
      · rw [if_pos hshort, if_pos hshort]
        rfl
      · rw [if_neg hshort, if_neg hshort, ← settleWeekday_addPeriods]
        show s.settleWeekday daysInMonth (if p.date.day < day then _ else _) = _
        by_cases hlt : p.date.day < day
        · rw [if_pos hlt, if_pos hlt]
          rfl
        · rw [if_neg hlt, if_neg hlt]

/-- A pass from some periods later ends as many periods later. -/
theorem pass_addPeriods :
    s.pass daysInMonth (p.addPeriods k) = (s.pass daysInMonth p).map (Pass.addPeriods k) := by
  have hyear : p.date.year + 400 * k + 1 = p.date.year + 1 + 400 * k := by omega
  have hmonth : s.months.next? (p.addPeriods k).date.month = s.months.next? p.date.month := rfl
  unfold pass
  rw [hmonth]
  cases s.months.next? p.date.month with
  | none =>
    show Except.ok (Pass.moved (s.dawn ⟨p.date.year + 400 * k + 1, _, _⟩)) = _
    rw [hyear]
    rfl
  | some month =>
    show (if p.date.month < month then _ else _) = Except.map _ (if p.date.month < month then _ else _)
    by_cases hlt : p.date.month < month
    · rw [if_pos hlt, if_pos hlt]
      rfl
    · rw [if_neg hlt, if_neg hlt]
      exact settleDay_addPeriods s p k

theorem search_addPeriods (passes : Nat) :
    s.search daysInMonth passes (p.addPeriods k) =
      (s.search daysInMonth passes p).map (Option.map (Point.addPeriods k)) := by
  induction passes generalizing p with
  | zero => rfl
  | succ passes ih =>
    unfold search
    rw [pass_addPeriods]
    cases s.pass daysInMonth p with
    | error e => rfl
    | ok e =>
      cases e with
      | found q => rfl
      | moved q => exact ih q

end FieldSets

/-! ## Schedules -/

namespace Schedule

variable {s : Schedule}

theorem admitsTimestamp_add_periods (s : Schedule) (t k : Int) :
    s.admitsTimestamp (t + k * calendarPeriod) = s.admitsTimestamp t := by
  unfold admitsTimestamp
  rw [CivilTime.ofTimestamp_add_periods]
  show s.admits _ _ _ _ ((CivilTime.ofTimestamp t).date.addPeriods k).weekday = _
  rw [Date.weekday_addPeriods]
  rfl

/-- The search for the next run uses up its passes: the answer is the beginning of the year that follows, and
a warning says so. -/
def GivesUp (s : Schedule) (now : Int) : Prop :=
  (s.nextRun now).result = .ok (CivilTime.newYear ((CivilTime.ofTimestamp now).date.year + 1)).timestamp ∧
    ∃ e, (s.nextRun now).events = [e] ∧ e.severity = .warning

theorem fallback_addPeriods (start : Point) (k : Int) :
    fallback (start.addPeriods k) = (fallback start).addPeriods k := by
  have hyear : start.date.year + 400 * k + 1 = start.date.year + 1 + 400 * k := by omega
  show (⟨⟨start.date.year + 400 * k + 1, 1, 1⟩, 0, 0⟩ : Point) = _
  rw [hyear]
  rfl

theorem Valid.givesUp_iff (h : s.Valid) {now : Int} {found : Option Point}
    (hfound : s.sets.search daysInMonth s.searchLimit.toNat (s.sets.minuteAfter (Point.ofTimestamp now)) =
      .ok found) : s.GivesUp now ↔ found = none := by
  rw [GivesUp, h.nextRun_of_search hfound]
  cases found with
  | none => exact iff_of_true ⟨rfl, _, rfl, rfl⟩ rfl
  | some p =>
    apply iff_of_false
    · intro hgivesUp
      cases hgivesUp.2 with
      | intro e he => exact List.cons_ne_nil _ _ he.1.symm
    · exact Option.some_ne_none p

-- A search from some periods later finds the point that is as many periods later.
theorem search_add_periods (s : Schedule) (now k : Int) (passes : Nat) :
    s.sets.search daysInMonth passes (s.sets.minuteAfter (Point.ofTimestamp (now + k * calendarPeriod))) =
      (s.sets.search daysInMonth passes (s.sets.minuteAfter (Point.ofTimestamp now))).map
        (Option.map (Point.addPeriods k)) := by
  rw [Point.ofTimestamp_add_periods, FieldSets.minuteAfter_addPeriods, FieldSets.search_addPeriods]

/-- Any number of periods of 400 years later, or earlier, a schedule admits the same times. The next run of a
schedule without flaws is found as many periods later, whatever its bound on passes, and the search for it
uses up its passes in the one case exactly if it does in the other. -/
theorem nextRun_periodic (k : Int) :
    (∀ (s : Schedule) (t : Int), s.admitsTimestamp (t + k * calendarPeriod) = s.admitsTimestamp t) ∧
      ∀ s : Schedule, s.Valid → ∀ now : Int,
        (∃ run, (s.nextRun now).result = .ok run ∧
          (s.nextRun (now + k * calendarPeriod)).result = .ok (run + k * calendarPeriod)) ∧
        (s.GivesUp (now + k * calendarPeriod) ↔ s.GivesUp now) := by
  constructor
  · intro s t
    exact s.admitsTimestamp_add_periods t k
  · intro s h now
    cases FieldSets.search_spec h.wellFormed s.searchLimit.toNat
        (s.sets.minuteAfter (Point.ofTimestamp now)) with
    | intro found hspec =>
      have hfound := hspec.1
      have hlater := s.search_add_periods now k s.searchLimit.toNat
      rw [hfound] at hlater
      constructor
      · refine ⟨(found.getD (fallback (Point.ofTimestamp now))).timestamp, ?_, ?_⟩
        · rw [h.nextRun_of_search hfound]
        · rw [h.nextRun_of_search hlater, ← Point.timestamp_addPeriods, Point.ofTimestamp_add_periods,
            fallback_addPeriods]
          cases found with
          | none => rfl
          | some p => rfl
      · rw [h.givesUp_iff hfound, h.givesUp_iff hlater]
        exact Option.map_eq_none_iff

-- Three periods before 1970 a search for leap days uses up two passes as it does now. With the usual bound it
-- finds that of the year 1972 and, three periods before, that of the year 772.
theorem nextRun_periodic_leapDays :
    (leapDays 2).Valid ∧ (leapDays defaultSearchLimit).Valid ∧
      ((leapDays 2).GivesUp (-37868342400) ↔ (leapDays 2).GivesUp 0) ∧ (leapDays 2).GivesUp 0 ∧
      ((leapDays defaultSearchLimit).nextRun (-37868342400)).result = .ok (-37800172800) := by
  have hperiodic := (nextRun_periodic (-3)).2
  have hlater : ((leapDays defaultSearchLimit).nextRun 0).result = .ok 68169600 := by rfl
  refine ⟨leapDays_valid 2, leapDays_valid _, (hperiodic _ (leapDays_valid 2) 0).2, ⟨rfl, _, rfl, rfl⟩, ?_⟩
  cases (hperiodic _ (leapDays_valid defaultSearchLimit) 0).1 with
  | intro run hrun =>
    have heq : run = 68169600 := Except.ok.inj (hrun.1.symm.trans hlater)
    rw [heq] at hrun
    exact hrun.2

end Schedule

end Timetable
