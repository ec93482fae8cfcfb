import Timetable.Proofs.MinuteCount
import Timetable.Proofs.ReadSchedule

/-!
# What one pass of the search does

A pass that starts at a point either ends at the first admitted minute from there on, or moves
forward without leaving out an admitted minute (`FieldSets.pass_ends`). The settling functions are
followed from the inside out: each settles one more component of the point.

* `FieldSets.Skips` is the invariant: between two points of the search there is no admitted minute.
* After a pass the minute is the first of its field, and from such a point every pass that moves on
  comes to a later date.
-/

namespace Timetable

/-- The month and the day have values of their fields, though the month may have no such day. -/
def Date.InGrid (d : Date) : Prop := 1 ≤ d.month ∧ d.month ≤ 12 ∧ 1 ≤ d.day ∧ d.day ≤ 31

theorem Date.IsReal.inGrid {d : Date} (h : d.IsReal) : d.InGrid := by
  have hdays := monthDays_bounds d.year d.month
  rw [Date.isReal_iff] at h
  unfold Date.InGrid
  omega

namespace FieldSets

variable {s : FieldSets} {p q r : Point} {d : Date}

/-- The point is a minute of the calendar, and every field admits its component. -/
structure Admits (s : FieldSets) (p : Point) : Prop where
  isReal : p.IsReal
  minute : p.minute ∈ s.minutes
  hour : p.hour ∈ s.hours
  day : p.date.day ∈ s.days
  month : p.date.month ∈ s.months
  weekday : p.date.weekday ∈ s.weekdays

/-- The second point is not earlier than the first, and no admitted minute lies from the first on
and before the second. -/
def Skips (s : FieldSets) (p q : Point) : Prop := p ≤ q ∧ ∀ r, s.Admits r → p ≤ r → q ≤ r

theorem Skips.trans (hpq : s.Skips p q) (hqr : s.Skips q r) : s.Skips p r :=
  ⟨hpq.1.trans hqr.1, fun t ht h => hqr.2 t ht (hpq.2 t ht h)⟩

/-- What a pass from `p` leaves when it moves on to `q`. -/
structure Moves (s : FieldSets) (p q : Point) : Prop where
  skips : s.Skips p q
  minute_eq : q.minute = s.minutes.first
  inGrid : q.date.InGrid
  /-- A pass that began with the first minute of an hour has come to a later date. -/
  date_lt : p.minute = s.minutes.first → p.date < q.date

/-- The end of a pass from `p`. -/
inductive Ends (s : FieldSets) (p : Point) : Pass → Prop where
  | found {q : Point} : s.Admits q → s.Skips p q → Ends s p (.found q)
  | moved {q : Point} : s.Moves p q → Ends s p (.moved q)

-- Going on from a later point, if no admitted minute is left out and the minute stays the first.
theorem Ends.of_skips {e : Pass} (hskip : s.Skips p q)
    (hminute : p.minute = s.minutes.first → q.minute = s.minutes.first) (h : s.Ends q e) :
    s.Ends p e := by
  cases h with
  | found hadmits hskip' => exact .found hadmits (hskip.trans hskip')
  | moved h =>
    refine .moved ⟨hskip.trans h.skips, h.minute_eq, h.inGrid, fun hp => ?_⟩
    exact (Point.date_le hskip.1).trans_lt (h.date_lt (hminute hp))

/-! ## Going on to another date -/

-- The first minute of an hour that no admitted hour of the date precedes comes before every admitted
-- minute from that date on.
theorem start_le (hs : s.WellFormed) {hour : Int} (hhour : hour ≤ s.hours.first) (hr : s.Admits r)
    (h : d ≤ r.date) : (⟨d, hour, s.minutes.first⟩ : Point) ≤ r := by
  have hrhour : s.hours.first ≤ r.hour := (hs .hour).isLeast_first.2 hr.hour
  have hrminute : s.minutes.first ≤ r.minute := (hs .minute).isLeast_first.2 hr.minute
  rw [Point.le_iff]
  rcases h.lt_or_eq with hlt | heq
  · exact .inl hlt
  · refine .inr ⟨heq, ?_⟩
    show hour < r.hour ∨ (hour = r.hour ∧ s.minutes.first ≤ r.minute)
    omega

theorem skips_start (hs : s.WellFormed) {hour : Int} (hhour : hour ≤ s.hours.first) (hlt : p.date < d)
    (hskip : ∀ r, s.Admits r → p ≤ r → d ≤ r.date) : s.Skips p ⟨d, hour, s.minutes.first⟩ :=
  ⟨(Point.lt_of_date_lt hlt).le, fun r hr hpr => start_le hs hhour hr (hskip r hr hpr)⟩

theorem dawn_ends (hs : s.WellFormed) (hgrid : d.InGrid) (hlt : p.date < d)
    (hskip : ∀ r, s.Admits r → p ≤ r → d ≤ r.date) : s.Ends p (.moved (s.dawn d)) :=
  .moved ⟨skips_start hs le_rfl hlt hskip, rfl, hgrid, fun _ => hlt⟩

-- Where no admitted minute is left on a date, the search goes on with the day that follows.
theorem nextDay_ends (hs : s.WellFormed) {hour : Int} (hhour : hour ≤ s.hours.first)
    (hreal : p.date.IsReal) (hskip : ∀ r, s.Admits r → p ≤ r → p.date ≠ r.date) :
    ∃ e, p.date.nextDay daysInMonth = .ok e ∧ s.Ends p (.moved ⟨e, hour, s.minutes.first⟩) := by
  obtain ⟨e, he, hereal, hlt, hleast⟩ := Date.nextDay_spec hreal
  refine ⟨e, he, .moved ⟨skips_start hs hhour hlt fun r hr hpr => ?_, rfl, hereal.inGrid, fun _ => hlt⟩⟩
  exact hleast _ hr.isReal.1 ((Point.date_le hpr).lt_of_ne (hskip r hr hpr))

theorem nextMonth_ends (hs : s.WellFormed) (hmonth : 1 ≤ p.date.month)
    (hskip : ∀ r, s.Admits r → p ≤ r → p.date.year = r.date.year → p.date.month ≠ r.date.month) :
    s.Ends p (.moved (s.dawn p.date.nextMonth)) :=
  dawn_ends hs (Date.isReal_nextMonth hmonth).inGrid (Date.lt_nextMonth _)
    fun r hr hpr => Date.nextMonth_le hr.isReal.1 (Point.date_le hpr) (hskip r hr hpr)

/-! ## Settling the minute -/

-- What is admitted from a point on lies in a later hour if no minute is left in that of the point.
theorem lt_hour_of_next?_eq_none (hnext : s.minutes.next? p.minute = none) (hr : s.Admits r)
    (hpr : p ≤ r) : p.date < r.date ∨ (p.date = r.date ∧ p.hour < r.hour) := by
  rcases Point.le_iff.mp hpr with hdate | ⟨hdate, hlater | ⟨-, hle⟩⟩
  · exact .inl hdate
  · exact .inr ⟨hdate, hlater⟩
  · exact absurd (ValueSet.lt_of_next?_eq_none hnext hr.minute) (not_lt.mpr hle)

-- From its first minute on an hour has an admitted minute.
theorem minute_ne_first (hs : s.WellFormed) (hnext : s.minutes.next? p.minute = none) :
    p.minute ≠ s.minutes.first := by
  have hmem : s.minutes.first ∈ s.minutes := (hs .minute).isLeast_first.1
  intro heq
  rw [heq, ValueSet.next?_of_mem hmem] at hnext
  exact Option.some_ne_none _ hnext

theorem skips_minute {minute : Int} (hnext : s.minutes.next? p.minute = some minute) :
    s.Skips p { p with minute } := by
  refine ⟨Point.le_iff.mpr (.inr ⟨rfl, .inr ⟨rfl, ValueSet.le_next? hnext⟩⟩), fun r hr hpr => ?_⟩
  rw [Point.le_iff]
  rcases Point.le_iff.mp hpr with hdate | ⟨hdate, hlater | ⟨hsame, hle⟩⟩
  · exact .inl hdate
  · exact .inr ⟨hdate, .inl hlater⟩
  · exact .inr ⟨hdate, .inr ⟨hsame, ValueSet.next?_le hnext hr.minute hle⟩⟩

theorem nextHour_ends (hs : s.WellFormed) (hreal : p.date.IsReal)
    (hnext : s.minutes.next? p.minute = none) :
    s.Ends p (.moved ⟨p.date, p.hour + 1, s.minutes.first⟩) := by
  have hskip : s.Skips p ⟨p.date, p.hour + 1, s.minutes.first⟩ := by
    refine ⟨Point.le_iff.mpr (.inr ⟨rfl, .inl (Int.lt_add_one_of_le le_rfl)⟩), fun r hr hpr => ?_⟩
    have hminute : s.minutes.first ≤ r.minute := (hs .minute).isLeast_first.2 hr.minute
    rw [Point.le_iff]
    rcases lt_hour_of_next?_eq_none hnext hr hpr with hdate | ⟨hdate, hlater⟩
    · exact .inl hdate
    · refine .inr ⟨hdate, ?_⟩
      show p.hour + 1 < r.hour ∨ (p.hour + 1 = r.hour ∧ s.minutes.first ≤ r.minute)
      omega
  exact .moved ⟨hskip, rfl, hreal.inGrid, fun heq => absurd heq (minute_ne_first hs hnext)⟩

theorem settleMinute_ends (hs : s.WellFormed) (hreal : p.date.IsReal) (hhour : p.hour ∈ s.hours)
    (hday : p.date.day ∈ s.days) (hmonth : p.date.month ∈ s.months)
    (hweekday : p.date.weekday ∈ s.weekdays) :
    ∃ e, s.settleMinute daysInMonth p = .ok e ∧ s.Ends p e := by
  have hhours : 0 ≤ p.hour ∧ p.hour ≤ 23 := (hs .hour).bounds hhour
  unfold settleMinute
  cases hnext : s.minutes.next? p.minute with
  | some minute =>
    have hmem := ValueSet.next?_mem hnext
    have hminutes : 0 ≤ minute ∧ minute ≤ 59 := (hs .minute).bounds hmem
    have hadmits : s.Admits { p with minute } :=
      ⟨⟨hreal, hhours.1, hhours.2, hminutes⟩, hmem, hhour, hday, hmonth, hweekday⟩
    exact ⟨_, rfl, .found hadmits (skips_minute hnext)⟩
  | none =>
    simp only
    split
    · rename_i hlast
      have hhi : s.hours.hi = 23 := (hs .hour).hi_eq
      have hfirst : 0 ≤ s.hours.first ∧ s.hours.first ≤ 23 :=
        (hs .hour).bounds (hs .hour).isLeast_first.1
      obtain ⟨e, he, hends⟩ := nextDay_ends hs hfirst.1 hreal fun r hr hpr hdate => by
        have hrhour := hr.isReal.2.2.1
        rcases lt_hour_of_next?_eq_none hnext hr hpr with hlater | ⟨-, hlater⟩
        · exact hlater.ne hdate
        · omega
      exact ⟨_, by rw [he]; rfl, hends⟩
    · exact ⟨_, rfl, nextHour_ends hs hreal hnext⟩

/-! ## Settling the hour and the weekday -/

theorem skips_hour (hs : s.WellFormed) {hour : Int} (hnext : s.hours.next? p.hour = some hour)
    (hlt : p.hour < hour) : s.Skips p ⟨p.date, hour, s.minutes.first⟩ := by
  refine ⟨Point.le_iff.mpr (.inr ⟨rfl, .inl hlt⟩), fun r hr hpr => ?_⟩
  have hminute : s.minutes.first ≤ r.minute := (hs .minute).isLeast_first.2 hr.minute
  rw [Point.le_iff]
  rcases Point.le_iff.mp hpr with hdate | ⟨hdate, hhour⟩
  · exact .inl hdate
  · have hleast := ValueSet.next?_le hnext hr.hour (by omega)
    refine .inr ⟨hdate, ?_⟩
    show hour < r.hour ∨ (hour = r.hour ∧ s.minutes.first ≤ r.minute)
    omega

theorem settleHour_ends (hs : s.WellFormed) (hreal : p.date.IsReal) (hday : p.date.day ∈ s.days)
    (hmonth : p.date.month ∈ s.months) (hweekday : p.date.weekday ∈ s.weekdays) :
    ∃ e, s.settleHour daysInMonth p = .ok e ∧ s.Ends p e := by
  unfold settleHour
  cases hnext : s.hours.next? p.hour with
  | none =>
    obtain ⟨e, he, hends⟩ := nextDay_ends hs le_rfl hreal fun r hr hpr hdate => by
      have hlt := ValueSet.lt_of_next?_eq_none hnext hr.hour
      rcases Point.le_iff.mp hpr with hlater | ⟨-, hhour⟩
      · exact hlater.ne hdate
      · omega
    exact ⟨_, by simp only [he]; rfl, hends⟩
  | some hour =>
    have hmem := ValueSet.next?_mem hnext
    have hle := ValueSet.le_next? hnext
    simp only
    split
    · rename_i hlt
      obtain ⟨e, he, hends⟩ := settleMinute_ends (p := ⟨p.date, hour, s.minutes.first⟩) hs hreal hmem
        hday hmonth hweekday
      exact ⟨e, he, hends.of_skips (skips_hour hs hnext hlt) fun _ => rfl⟩
    · have heq : hour = p.hour := by omega
      exact settleMinute_ends hs hreal (heq ▸ hmem) hday hmonth hweekday

theorem settleWeekday_ends (hs : s.WellFormed) (hreal : p.date.IsReal) (hday : p.date.day ∈ s.days)
    (hmonth : p.date.month ∈ s.months) :
    ∃ e, s.settleWeekday daysInMonth p = .ok e ∧ s.Ends p e := by
  unfold settleWeekday
  split
  · rename_i hweekday
    exact settleHour_ends hs hreal hday hmonth hweekday
  · rename_i hweekday
    obtain ⟨e, he, hends⟩ := nextDay_ends hs le_rfl hreal fun r hr _ hdate =>
      hweekday (hdate ▸ hr.weekday)
    exact ⟨_, by simp only [he]; rfl, hends⟩

/-! ## Settling the day -/

-- In the month of a point, the days before it are past.
theorem day_le (hpr : p ≤ r) (hyear : p.date.year = r.date.year) (hmonth : p.date.month = r.date.month) :
    p.date.day ≤ r.date.day := by
  have hdate := Point.date_le hpr
  rw [Date.le_iff] at hdate
  omega

theorem skips_day (hs : s.WellFormed) {day : Int} (hnext : s.days.next? p.date.day = some day)
    (hlt : p.date.day < day) : s.Skips p (s.dawn { p.date with day }) := by
  refine skips_start hs le_rfl (Date.lt_iff.mpr (.inr ⟨rfl, .inr ⟨rfl, hlt⟩⟩)) fun r hr hpr => ?_
  have hdate := Date.le_iff.mp (Point.date_le hpr)
  have hleast := fun hyear hmonth => ValueSet.next?_le hnext hr.day (day_le hpr hyear hmonth)
  rw [Date.le_iff]
  show p.date.year < r.date.year ∨ (p.date.year = r.date.year ∧
    (p.date.month < r.date.month ∨ (p.date.month = r.date.month ∧ day ≤ r.date.day)))
  omega

theorem settleDay_ends (hs : s.WellFormed) (hmonth : p.date.month ∈ s.months) :
    ∃ e, s.settleDay daysInMonth p = .ok e ∧ s.Ends p e := by
  have hmonths : 1 ≤ p.date.month ∧ p.date.month ≤ 12 := (hs .month).bounds hmonth
  unfold settleDay
  cases hnext : s.days.next? p.date.day with
  | none =>
    refine ⟨_, rfl, nextMonth_ends hs hmonths.1 fun r hr hpr hyear hmonth => ?_⟩
    have hlt := ValueSet.lt_of_next?_eq_none hnext hr.day
    have hle := day_le hpr hyear hmonth
    omega
  | some day =>
    have hmem := ValueSet.next?_mem hnext
    have hle := ValueSet.le_next? hnext
    have hday : 1 ≤ day ∧ day ≤ 31 := (hs .day).bounds hmem
    simp only [daysInMonth_eq p.date.year hmonths.1 hmonths.2, bind, Except.bind]
    split
    · rename_i hshort
      refine ⟨_, rfl, nextMonth_ends hs hmonths.1 fun r hr hpr hyear hmonth => ?_⟩
      have hleast := ValueSet.next?_le hnext hr.day (day_le hpr hyear hmonth)
      have hrday := (Date.isReal_iff.mp hr.isReal.1).2.2.2
      rw [← hyear, ← hmonth] at hrday
      omega
    · rename_i hlong
      have hreal : Date.IsReal { p.date with day } :=
        Date.isReal_iff.mpr ⟨hmonths.1, hmonths.2, hday.1, not_lt.mp hlong⟩
      split
      · rename_i hlt
        obtain ⟨e, he, hends⟩ := settleWeekday_ends (p := s.dawn { p.date with day }) hs hreal hmem hmonth
        exact ⟨e, he, hends.of_skips (skips_day hs hnext hlt) fun _ => rfl⟩
      · have heq : p.date = { p.date with day } := by
          have hsame : day = p.date.day := by omega
          rw [hsame]
        rw [← heq] at hreal
        exact settleWeekday_ends hs hreal (by omega ▸ hmem) hmonth

/-! ## Settling the month -/

theorem nextYear_le (hs : s.WellFormed) (hnext : s.months.next? p.date.month = none) (hr : s.Admits r)
    (hpr : p ≤ r) : (⟨p.date.year + 1, s.months.first, s.days.first⟩ : Date) ≤ r.date := by
  have hlt := ValueSet.lt_of_next?_eq_none hnext hr.month
  have hday : s.days.first ≤ r.date.day := (hs .day).isLeast_first.2 hr.day
  have hmonth : s.months.first ≤ r.date.month := (hs .month).isLeast_first.2 hr.month
  have hdate := Date.le_iff.mp (Point.date_le hpr)
  rw [Date.le_iff]
  show p.date.year + 1 < r.date.year ∨ (p.date.year + 1 = r.date.year ∧
    (s.months.first < r.date.month ∨ (s.months.first = r.date.month ∧ s.days.first ≤ r.date.day)))
  omega

theorem firstDay_le (hs : s.WellFormed) {month : Int} (hnext : s.months.next? p.date.month = some month)
    (hr : s.Admits r) (hpr : p ≤ r) : (⟨p.date.year, month, s.days.first⟩ : Date) ≤ r.date := by
  have hday : s.days.first ≤ r.date.day := (hs .day).isLeast_first.2 hr.day
  have hdate := Date.le_iff.mp (Point.date_le hpr)
  have hleast := ValueSet.next?_le hnext hr.month
  rw [Date.le_iff]
  show p.date.year < r.date.year ∨ (p.date.year = r.date.year ∧
    (month < r.date.month ∨ (month = r.date.month ∧ s.days.first ≤ r.date.day)))
  omega

/-- Every pass ends, at an admitted minute or with a move, and leaves out no admitted minute. -/
theorem pass_ends (hs : s.WellFormed) (p : Point) : ∃ e, s.pass daysInMonth p = .ok e ∧ s.Ends p e := by
  have hfirstDay := (hs .day).bounds (hs .day).isLeast_first.1
  have hfirstMonth := (hs .month).bounds (hs .month).isLeast_first.1
  unfold pass
  cases hnext : s.months.next? p.date.month with
  | none =>
    refine ⟨_, rfl, dawn_ends hs ⟨hfirstMonth.1, hfirstMonth.2, hfirstDay⟩ ?_ fun r => nextYear_le hs hnext⟩
    exact Date.lt_iff.mpr (.inl (Int.lt_add_one_of_le le_rfl))
  | some month =>
    have hmem := ValueSet.next?_mem hnext
    have hle := ValueSet.le_next? hnext
    have hmonths := (hs .month).bounds hmem
    simp only
    split
    · rename_i hlt
      refine ⟨_, rfl, dawn_ends hs ⟨hmonths.1, hmonths.2, hfirstDay⟩ ?_ fun r => firstDay_le hs hnext⟩
      exact Date.lt_iff.mpr (.inr ⟨rfl, .inl hlt⟩)
    · have heq : month = p.date.month := by omega
      exact settleDay_ends hs (heq ▸ hmem)

/-! ## The months that are looked up -/

section Tables

variable {table table' : MonthTable}

theorem nextDay_congr (h : table d.year d.month = table' d.year d.month) :
    d.nextDay table = d.nextDay table' := by
  unfold Date.nextDay
  rw [h]

theorem settleMinute_congr (h : table p.date.year p.date.month = table' p.date.year p.date.month) :
    s.settleMinute table p = s.settleMinute table' p := by
  unfold settleMinute
  rw [nextDay_congr h]

theorem settleHour_congr (h : table p.date.year p.date.month = table' p.date.year p.date.month) :
    s.settleHour table p = s.settleHour table' p := by
  unfold settleHour
  rw [nextDay_congr h]
  split
  · split
    · exact settleMinute_congr h
    · exact settleMinute_congr h
  · rfl

theorem settleWeekday_congr (h : table p.date.year p.date.month = table' p.date.year p.date.month) :
    s.settleWeekday table p = s.settleWeekday table' p := by
  unfold settleWeekday
  rw [nextDay_congr h, settleHour_congr h]

theorem settleDay_congr (h : table p.date.year p.date.month = table' p.date.year p.date.month) :
    s.settleDay table p = s.settleDay table' p := by
  unfold settleDay
  rw [h]
  split
  · rfl
  · congr 1
    funext days
    split
    · rfl
    · split
      · exact settleWeekday_congr h
      · exact settleWeekday_congr h

/-- A pass asks for the length of no month outside the calendar. -/
theorem pass_congr (hs : s.WellFormed)
    (htable : ∀ year month, 1 ≤ month → month ≤ 12 → table year month = table' year month) (p : Point) :
    s.pass table p = s.pass table' p := by
  unfold pass
  cases hnext : s.months.next? p.date.month with
  | none => rfl
  | some month =>
    have hmonths := (hs .month).bounds (ValueSet.next?_mem hnext)
    have hle := ValueSet.le_next? hnext
    simp only
    split
    · rfl
    · have heq : month = p.date.month := by omega
      exact settleDay_congr (htable _ _ (heq ▸ hmonths.1) (heq ▸ hmonths.2))

end Tables

end FieldSets

end Timetable
