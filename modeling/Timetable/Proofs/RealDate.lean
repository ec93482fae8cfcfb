import Mathlib.Algebra.Order.Group.Int
import Mathlib.Data.Int.ConditionallyCompleteOrder
import Mathlib.Data.Prod.Lex
import Mathlib.Order.Bounds.Basic
import Mathlib.Tactic.IntervalCases
import Timetable.Calendar.Date

/-!
# Days of the calendar

Dates in the order of year, month and day, and which of them are days of the calendar.

* `monthDays` is the length of a month of the calendar, without faults.
* `nextMonth` and `nextDay` leave out no day of the calendar.
* The calendar repeats after 400 years, with its weekdays.
-/

namespace Timetable

-- The lengths of the twelve months as a function that cannot fail.
def monthDays (year month : Int) : Int :=
  if month = 2 then (if isLeapYear year then 29 else 28)
  else if month = 4 ∨ month = 6 ∨ month = 9 ∨ month = 11 then 30 else 31

theorem daysInMonth_eq (year : Int) {month : Int} (hlo : 1 ≤ month) (hhi : month ≤ 12) :
    daysInMonth year month = .ok (monthDays year month) := by
  cases hleap : isLeapYear year <;> interval_cases month <;>
    simp [daysInMonth, monthDays, monthLengths, hleap]

theorem monthDays_bounds (year month : Int) :
    28 ≤ monthDays year month ∧ monthDays year month ≤ 31 := by
  unfold monthDays
  split_ifs <;> decide

-- Every 400 years the leap years recur.
theorem isLeapYear_add_periods (year k : Int) :
    isLeapYear (year + 400 * k) = isLeapYear year := by
  have h4 : (year + 400 * k) % 4 = year % 4 := by omega
  have h100 : (year + 400 * k) % 100 = year % 100 := by omega
  have h400 : (year + 400 * k) % 400 = year % 400 := by omega
  rw [isLeapYear, isLeapYear, h4, h100, h400]

namespace Date

/-- The date is a day of the calendar. -/
def IsReal (d : Date) : Prop :=
  1 ≤ d.month ∧ d.month ≤ 12 ∧ 1 ≤ d.day ∧ ∃ days, daysInMonth d.year d.month = .ok days ∧ d.day ≤ days

theorem isReal_iff {d : Date} :
    d.IsReal ↔ 1 ≤ d.month ∧ d.month ≤ 12 ∧ 1 ≤ d.day ∧ d.day ≤ monthDays d.year d.month := by
  constructor
  · intro ⟨hlo, hhi, hday, days, hdays, hle⟩
    rw [daysInMonth_eq d.year hlo hhi] at hdays
    obtain rfl := Except.ok.inj hdays
    exact ⟨hlo, hhi, hday, hle⟩
  · intro ⟨hlo, hhi, hday, hle⟩
    exact ⟨hlo, hhi, hday, _, daysInMonth_eq d.year hlo hhi, hle⟩

instance (d : Date) : Decidable d.IsReal := decidable_of_iff _ isReal_iff.symm

/-! ## The order of dates -/

-- Dates in the order of year, month and day.
def key (d : Date) : ℤ ×ₗ ℤ ×ₗ ℤ := toLex (d.year, toLex (d.month, d.day))

theorem key_injective : Function.Injective key := by
  intro ⟨y, m, d⟩ ⟨y', m', d'⟩ h
  simpa [key] using h

instance : LinearOrder Date := LinearOrder.lift' key key_injective

theorem lt_iff {d e : Date} : d < e ↔
    d.year < e.year ∨ (d.year = e.year ∧ (d.month < e.month ∨ (d.month = e.month ∧ d.day < e.day))) := by
  show key d < key e ↔ _
  simp only [key, Prod.Lex.toLex_lt_toLex]

theorem le_iff {d e : Date} : d ≤ e ↔
    d.year < e.year ∨ (d.year = e.year ∧ (d.month < e.month ∨ (d.month = e.month ∧ d.day ≤ e.day))) := by
  show key d ≤ key e ↔ _
  simp only [key, Prod.Lex.toLex_le_toLex]

/-! ## The days and months that follow -/

theorem lt_nextMonth (d : Date) : d < d.nextMonth := by
  rw [lt_iff, nextMonth]
  split <;> simp only [true_and] <;> omega

theorem isReal_nextMonth {d : Date} (h : 1 ≤ d.month) : d.nextMonth.IsReal := by
  have hdays := monthDays_bounds d.nextMonth.year d.nextMonth.month
  rw [isReal_iff]
  unfold nextMonth at *
  split_ifs at * <;> simp only at * <;> omega

-- What lies after a date and in a later month lies from the first day of the next month on.
theorem nextMonth_le {d e : Date} (he : e.IsReal) (h : d ≤ e)
    (hmonth : d.year = e.year → d.month ≠ e.month) : d.nextMonth ≤ e := by
  rw [isReal_iff] at he
  rw [le_iff] at h
  rw [le_iff, nextMonth]
  split <;> simp only <;> omega

/-- The day that follows a day of the calendar is the next one of the calendar. -/
theorem nextDay_spec {d : Date} (h : d.IsReal) :
    ∃ e, d.nextDay daysInMonth = .ok e ∧ e.IsReal ∧ d < e ∧ ∀ f : Date, f.IsReal → d < f → e ≤ f := by
  obtain ⟨hlo, hhi, hday, hle⟩ := isReal_iff.mp h
  have hnext : d.nextDay daysInMonth =
      .ok (if monthDays d.year d.month < d.day + 1 then d.nextMonth else ⟨d.year, d.month, d.day + 1⟩) := by
    unfold nextDay
    rw [daysInMonth_eq d.year hlo hhi]
    rfl
  refine ⟨_, hnext, ?_⟩
  split
  · refine ⟨isReal_nextMonth hlo, lt_nextMonth d, fun f hf hlt => nextMonth_le hf hlt.le ?_⟩
    intro hyear hmonth
    have hfday := (isReal_iff.mp hf).2.2.2
    rw [← hyear, ← hmonth] at hfday
    rw [lt_iff] at hlt
    omega
  · refine ⟨?_, ?_, fun f hf hlt => ?_⟩
    · rw [isReal_iff]
      simp only
      omega
    · rw [lt_iff]
      simp only [true_and]
      omega
    · rw [lt_iff] at hlt
      rw [le_iff]
      simp only
      omega

/-! ## The period of the calendar -/

-- The date a number of periods of 400 years later.
def addPeriods (k : Int) (d : Date) : Date := ⟨d.year + 400 * k, d.month, d.day⟩

theorem isReal_addPeriods {d : Date} (h : d.IsReal) (k : Int) : (d.addPeriods k).IsReal := by
  rw [isReal_iff] at h ⊢
  unfold addPeriods monthDays
  rw [isLeapYear_add_periods]
  exact h

-- Four centuries hold a whole number of weeks.
theorem weekday_addPeriods (d : Date) (k : Int) : (d.addPeriods k).weekday = d.weekday := by
  unfold weekday addPeriods
  simp only
  split <;> omega

end Date

end Timetable
