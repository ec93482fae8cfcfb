import Timetable.Calendar.CivilTime
import Timetable.Proofs.DayCount

/-!
# The cycle of weekdays

The weekday of a date is reckoned from centuries and years of a century, and its day number from eras
of 400 years. The two agree modulo 7 (`Date.weekday_eq_emod`), so that along the day numbers the
weekdays follow each other without a break (`weekday_cycle`).
-/

namespace Timetable

-- A year has one day more than whole weeks, and the years of leap days are counted by centuries.
theorem yearStart_emod_seven (year : Int) :
    yearStart year % 7 = (year % 100 + year % 100 / 4 + year / 100 / 4 + 5 * (year / 100)) % 7 := by
  have hquarter : year / 4 = 25 * (year / 100) + year % 100 / 4 := by omega
  have hera : year / 400 = year / 100 / 4 := by omega
  unfold yearStart
  omega

-- The days before a month are whole weeks and the term of the congruence for the month, less 10.
theorem monthStart_eq_weeks (month : Int) : monthStart month = 28 * month + 13 * (month + 4) / 5 - 10 := by
  unfold monthStart
  omega

namespace Date

/-- The congruence reckons with the same years and months as the day count, those from March. -/
theorem weekday_eq_march {d : Date} (hlo : 1 ≤ d.month) (hhi : d.month ≤ 12) :
    d.weekday = ((d.day + 13 * (d.marchMonth + 4) / 5 + d.marchYear % 100 + d.marchYear % 100 / 4 +
      d.marchYear / 100 / 4 + 5 * (d.marchYear / 100)) % 7 + 6) % 7 := by
  unfold weekday marchMonth marchYear
  by_cases hmarch : d.month < 3
  · have hmonth : (d.month + 9) % 12 + 4 = d.month + 12 + 1 := by omega
    rw [if_pos hmarch, if_pos hmarch, if_pos (by omega), hmonth]
  · have hmonth : (d.month + 9) % 12 + 4 = d.month + 1 := by omega
    rw [if_neg hmarch, if_neg hmarch, if_neg (by omega), hmonth]

theorem weekday_eq_emod {d : Date} (hlo : 1 ≤ d.month) (hhi : d.month ≤ 12) :
    d.weekday = (d.dayNumber + 4) % 7 := by
  have hyear := yearStart_emod_seven d.marchYear
  rw [weekday_eq_march hlo hhi, dayNumber_eq, monthStart_eq_weeks, epochOffset]
  omega

theorem weekday_ofDayNumber (n : Int) : (ofDayNumber n).weekday = (n + 4) % 7 := by
  have hspec := ofDayNumber_spec n
  have hmonth := isReal_iff.mp hspec.1
  rw [weekday_eq_emod hmonth.1 hmonth.2.1, hspec.2]

end Date

/-- In every year, and for every day of a month of it whether the month has that day or not, the weekday is
the day number shifted by four, modulo 7. So the weekday of a time depends on its day only, each day has
the weekday after that of the day before, from 0 to 6 and again from 0, and the first day of 1970 is a
Thursday. -/
theorem weekday_cycle :
    (∀ d : Date, 1 ≤ d.month → d.month ≤ 12 → d.weekday = (d.dayNumber + 4) % 7) ∧
      (∀ t : Int, (CivilTime.ofTimestamp t).weekday = (t / secondsPerDay + 4) % 7) ∧
      (∀ t : Int, 0 ≤ (CivilTime.ofTimestamp t).weekday ∧ (CivilTime.ofTimestamp t).weekday ≤ 6) ∧
      (∀ t : Int, (CivilTime.ofTimestamp (t + secondsPerDay)).weekday =
        ((CivilTime.ofTimestamp t).weekday + 1) % 7) ∧
      ∀ t : Int, 0 ≤ t → t < secondsPerDay → (CivilTime.ofTimestamp t).weekday = 4 := by
  have hweekday : ∀ t : Int, (CivilTime.ofTimestamp t).weekday = (t / secondsPerDay + 4) % 7 :=
    fun t => Date.weekday_ofDayNumber (t / secondsPerDay)
  refine ⟨fun d => Date.weekday_eq_emod, hweekday, ?_, ?_, ?_⟩
  · intro t
    rw [hweekday]
    omega
  · intro t
    have hday : (t + secondsPerDay) / secondsPerDay = t / secondsPerDay + 1 :=
      Int.add_ediv_of_dvd_right (Int.dvd_refl _)
    rw [hweekday, hweekday, hday]
    omega
  · intro t hlo hhi
    rw [hweekday, Int.ediv_eq_zero_of_lt hlo hhi]
    rfl

-- February 30 of a leap year before year 0, and the last second of the first day of 1970.
theorem weekday_cycle_beforeYearZero :
    ((⟨-400, 2, 30⟩ : Date).dayNumber + 4) % 7 = 3 ∧ (CivilTime.ofTimestamp 86399).weekday = 4 := by
  have hweekday : (⟨-400, 2, 30⟩ : Date).weekday = 3 := by decide
  refine ⟨?_, weekday_cycle.2.2.2.2 86399 (by decide) (by decide)⟩
  rw [← weekday_cycle.1 ⟨-400, 2, 30⟩ (by decide) (by decide), hweekday]

end Timetable
