import Timetable.Proofs.RunSequence
import Timetable.Proofs.WeekdayCycle

/-!
# Possible dates

A day of a month falls on every weekday, and on each of them again within 40 years
(`Date.exists_isReal_weekday`). So a schedule runs exactly if one of its months has one of its days in some
year, whatever else it asks for (`Schedule.runs_within_fortyYears`).

The dates are looked for in the years from March that end with a leap day. From one of these to the next the
weekday moves by five days, and so takes all values in seven of them. Where the turn of a century has no leap
day, three more of them are needed.
-/

namespace Timetable

/-! ## Years that end with a leap day -/

-- From every day on, a year that ends in a multiple of four begins within four years.
theorem exists_yearStart_fourth (n : Int) :
    ∃ year, year % 4 = 0 ∧ n ≤ yearStart (year - 1) ∧ yearStart (year - 1) ≤ n + 1460 := by
  have hspec := Date.ofDayNumber_spec (n - 1 - Date.epochOffset)
  generalize Date.ofDayNumber (n - 1 - Date.epochOffset) = d at hspec
  have hlast : yearStart d.marchYear + monthStart d.marchMonth + d.day - 1 < yearStart (d.marchYear + 1) :=
    (Date.dayOfYear_lt hspec.1).2
  have hnumber := hspec.2
  rw [Date.dayNumber_eq] at hnumber
  have hstart : 0 ≤ monthStart d.marchMonth := by
    unfold monthStart Date.marchMonth
    omega
  have hday : 1 ≤ d.day := (Date.isReal_iff.mp hspec.1).2.2.1
  have hmono : yearStart (d.marchYear + 1) ≤ yearStart (4 * ((d.marchYear + 1) / 4 + 1) - 1) :=
    yearStart_mono (by omega)
  have hfirst : yearStart d.marchYear ≤ n - 1 := by omega
  refine ⟨4 * ((d.marchYear + 1) / 4 + 1), by omega, by omega, ?_⟩
  unfold yearStart at hfirst ⊢
  omega

theorem isLeapYear_of_fourth {year : Int} (hyear : year % 4 = 0) (h : year % 100 = 0 → year / 100 % 4 = 0) :
    isLeapYear year = true := by
  simp only [isLeapYear, Bool.or_eq_true, Bool.and_eq_true, beq_iff_eq, bne_iff_ne]
  omega

theorem yearStart_eq_centuries (year : Int) :
    yearStart year = 365 * year + year / 4 - (year / 100 - year / 100 / 4) := by
  unfold yearStart
  omega

/-- From a year that ends in a multiple of four, `i` steps of four years lead to a year that begins `5 * i`
weekdays later. Where that one does not end with a leap day, or one is missing on the way to it, three more
steps lead to the same weekday: their 15 days lose the missing one, and no two are missing so close together. -/
theorem exists_yearStart_leap {year i : Int} (hyear : year % 4 = 0) (hlo : 0 ≤ i) (hhi : i ≤ 6) :
    ∃ last, isLeapYear (last + 1) = true ∧ yearStart (year - 1) ≤ yearStart last ∧
      yearStart last ≤ yearStart (year - 1) + 13148 ∧
      (yearStart last - yearStart (year - 1)) % 7 = 5 * i % 7 := by
  generalize hcentury : (year + 4 * i) / 100 = century
  by_cases hskip : year ≤ 100 * century ∧ century % 4 ≠ 0
  · have hbefore : (year - 1) / 100 = century - 1 := by omega
    have hafter : (year - 1 + 4 * (i + 3)) / 100 = century := by omega
    have hstart : yearStart (year - 1 + 4 * (i + 3)) = yearStart (year - 1) + 1461 * (i + 3) - 1 := by
      rw [yearStart_eq_centuries, yearStart_eq_centuries, hbefore, hafter]
      omega
    exact ⟨year - 1 + 4 * (i + 3), isLeapYear_of_fourth (by omega) (by omega), by omega, by omega, by omega⟩
  · have hstart : yearStart (year - 1 + 4 * i) = yearStart (year - 1) + 1461 * i := by
      rw [yearStart_eq_centuries, yearStart_eq_centuries]
      by_cases hturn : year ≤ 100 * century
      · -- The turn of a fourth century has its leap day.
        have hbefore : (year - 1) / 100 = century - 1 := by omega
        have hfourth : century % 4 = 0 := by omega
        omega
      · have hbefore : (year - 1) / 100 = century := by omega
        have hafter : (year - 1 + 4 * i) / 100 = century := by omega
        rw [hbefore, hafter]
        omega
    exact ⟨year - 1 + 4 * i, isLeapYear_of_fourth (by omega) (by omega), by omega, by omega, by omega⟩

-- The days that lie `c` days from the beginnings of such years fall on every weekday within 40 years.
theorem exists_yearStart_weekday {weekday : Int} (hlo : 0 ≤ weekday) (hhi : weekday ≤ 6) (c n : Int) :
    ∃ year, isLeapYear (year + 1) = true ∧ (yearStart year + c + 4) % 7 = weekday ∧
      n ≤ yearStart year + c ∧ yearStart year + c < n + 14609 := by
  obtain ⟨year, hyear, hle, hlt⟩ := exists_yearStart_fourth (n - c)
  -- Three times five is one more than whole weeks.
  obtain ⟨last, hleap, hfirst, hlast, hdays⟩ :=
    exists_yearStart_leap (i := 3 * (weekday - (yearStart (year - 1) + c + 4)) % 7) hyear (by omega) (by omega)
  exact ⟨last, hleap, by omega, by omega, by omega⟩

/-! ## Days of months -/

namespace Date

/-- The most days that a month has in any year. -/
def longestMonth (month : Int) : Int :=
  if month = 2 then 29 else if month = 4 ∨ month = 6 ∨ month = 9 ∨ month = 11 then 30 else 31

theorem monthDays_le_longestMonth (year month : Int) : monthDays year month ≤ longestMonth month := by
  unfold monthDays longestMonth
  split_ifs <;> omega

-- In a year from March that ends with a leap day, every month is as long as it can be.
theorem isReal_ofMarch_of_leap {year month day : Int} (hmonth : 1 ≤ month ∧ month ≤ 12) (hday : 1 ≤ day)
    (hlong : day ≤ longestMonth month) (hleap : isLeapYear (year + 1) = true) :
    (ofMarch year ((month + 9) % 12) day).IsReal := by
  have hyear : yearStart (year + 1) = yearStart year + 366 := by
    rw [yearStart_succ, if_pos hleap]
  obtain ⟨hlo, hhi⟩ := hmonth
  apply isReal_ofMarch (by omega) (by omega) hday
  · unfold monthStart longestMonth at *
    interval_cases month <;> omega
  · unfold monthStart longestMonth at *
    interval_cases month <;> omega

/-- Any day that a month can have falls on any weekday within 40 years, across the turns of centuries too. -/
theorem exists_isReal_weekday {month day weekday : Int} (hmonth : 1 ≤ month ∧ month ≤ 12) (hday : 1 ≤ day)
    (hlong : day ≤ longestMonth month) (hweekday : 0 ≤ weekday ∧ weekday ≤ 6) (n : Int) :
    ∃ d : Date, d.IsReal ∧ d.month = month ∧ d.day = day ∧ d.weekday = weekday ∧
      n ≤ d.dayNumber ∧ d.dayNumber < n + 14609 := by
  obtain ⟨year, hleap, hyear, hle, hlt⟩ := exists_yearStart_weekday hweekday.1 hweekday.2
    (monthStart ((month + 9) % 12) + day - 1 - epochOffset) n
  have hreal := isReal_ofMarch_of_leap hmonth hday hlong hleap
  have hnumber : (ofMarch year ((month + 9) % 12) day).dayNumber =
      yearStart year + (monthStart ((month + 9) % 12) + day - 1 - epochOffset) := by
    rw [dayNumber_ofMarch year day (by omega) (by omega)]
    omega
  have hsame : (ofMarch year ((month + 9) % 12) day).month = month := by
    simp only [ofMarch]
    split <;> omega
  refine ⟨_, hreal, hsame, rfl, ?_, ?_, ?_⟩
  · rw [weekday_eq_emod (by omega) (by omega), hnumber, hyear]
  · rw [hnumber]
    exact hle
  · rw [hnumber]
    exact hlt

end Date

/-! ## Schedules of possible dates -/

namespace Schedule

variable {s : Schedule}

/-- One of the months has one of the days in some year. -/
def HasPossibleDate (s : Schedule) : Prop :=
  ∃ month ∈ s.sets.months, ∃ day ∈ s.sets.days, day ≤ Date.longestMonth month

-- What is looked for is a day of the weekday, from the first one on whose admitted minute is still to come.
theorem Valid.exists_mem_runTimes (h : s.Valid) (hdate : s.HasPossibleDate) (now : Int) :
    ∃ t ∈ s.runTimes now, t ≤ now + 14609 * secondsPerDay := by
  have hs := h.wellFormed
  obtain ⟨month, hmonth, day, hday, hlong⟩ := hdate
  have hminute : s.sets.minutes.first ∈ s.sets.minutes := (hs .minute).isLeast_first.1
  have hhour : s.sets.hours.first ∈ s.sets.hours := (hs .hour).isLeast_first.1
  have hweekday : s.sets.weekdays.first ∈ s.sets.weekdays := (hs .weekday).isLeast_first.1
  generalize s.sets.minutes.first = minute at hminute
  generalize s.sets.hours.first = hour at hhour
  generalize s.sets.weekdays.first = weekday at hweekday
  obtain ⟨d, hreal, hdmonth, hdday, hdweekday, hle, hlt⟩ := Date.exists_isReal_weekday
    ((hs .month).bounds hmonth) ((hs .day).bounds hday).1 hlong ((hs .weekday).bounds hweekday)
    ((now - (hour * 3600 + minute * 60)) / 86400 + 1)
  have hadmits : s.sets.Admits ⟨d, hour, minute⟩ := by
    refine ⟨⟨hreal, ?_⟩, hminute, hhour, hdday ▸ hday, hdmonth ▸ hmonth, hdweekday ▸ hweekday⟩
    have hhours : 0 ≤ hour ∧ hour ≤ 23 := (hs .hour).bounds hhour
    have hminutes : 0 ≤ minute ∧ minute ≤ 59 := (hs .minute).bounds hminute
    exact ⟨hhours.1, hhours.2, hminutes⟩
  have htime : Point.timestamp ⟨d, hour, minute⟩ = d.dayNumber * 86400 + hour * 3600 + minute * 60 :=
    Point.timestamp_eq _
  have hruns := admitsTimestamp_timestamp (h.runsAt_iff.mpr hadmits)
  refine ⟨Point.timestamp ⟨d, hour, minute⟩, ⟨?_, Point.sixty_dvd_timestamp _, hruns⟩, ?_⟩
  · omega
  · show _ ≤ now + 14609 * 86400
    omega

theorem Valid.hasPossibleDate (h : s.Valid) {t : Int} (ht : s.admitsTimestamp t = true) :
    s.HasPossibleDate := by
  have hadmits := h.runsAt_iff.mp (admitsTimestamp_iff.mp ht)
  refine ⟨_, hadmits.month, _, hadmits.day, ?_⟩
  exact (Date.isReal_iff.mp hadmits.isReal.1).2.2.2.trans (Date.monthDays_le_longestMonth _ _)

/-- A schedule runs at some time exactly if one of its months has one of its days in some year, whatever
its other fields admit. With the usual bound on passes, its next run is then found, and is at most 14609
days away. -/
theorem runs_within_fortyYears (h : s.Valid) :
    ((∃ t, s.admitsTimestamp t = true) ↔ s.HasPossibleDate) ∧
      (s.searchLimit = defaultSearchLimit → s.HasPossibleDate → ∀ now, ∃ t,
        s.nextRun now = ⟨.ok t, []⟩ ∧ s.admitsTimestamp t = true ∧ now < t ∧
          t - now ≤ 14609 * secondsPerDay) := by
  have hexists : s.HasPossibleDate → ∃ t, s.admitsTimestamp t = true := by
    intro hdate
    obtain ⟨t, ht, -⟩ := h.exists_mem_runTimes hdate 0
    exact ⟨t, ht.2.2⟩
  refine ⟨⟨fun ⟨t, ht⟩ => h.hasPossibleDate ht, hexists⟩, fun hlimit hdate now => ?_⟩
  obtain ⟨t, hrun, hleast⟩ := h.nextRun_default hlimit (hexists hdate) now
  obtain ⟨u, hu, hbound⟩ := h.exists_mem_runTimes hdate now
  have hle : t ≤ u := hleast.2 hu
  exact ⟨t, hrun, hleast.1.2.2, hleast.1.1, by omega⟩

/-- Midnight of every leap day that is a Monday. -/
def leapMondays : Schedule where
  expression := "0 0 29 2 1"
  searchLimit := defaultSearchLimit
  sets := { (leapDays defaultSearchLimit).sets with weekdays := (ValueSet.empty 0 6).insert 1 }
  flaw := none

theorem leapMondays_valid : leapMondays.Valid := by
  have hread : readExpression "0 0 29 2 1" = .ok (leapMondays.sets, none) := by
    rfl
  refine ⟨rfl, ?_⟩
  rw [ofExpressionWithin_result]
  show (readExpression "0 0 29 2 1").map _ = _
  rw [hread]
  rfl

-- From that of 2072, the next one is that of 2112: it takes all of the 14609 days.
theorem runs_within_fortyYears_leapMondays :
    leapMondays.Valid ∧ leapMondays.HasPossibleDate ∧ leapMondays.searchLimit = defaultSearchLimit ∧
      leapMondays.nextRun 3223929600 = ⟨.ok 4486147200, []⟩ ∧
      leapMondays.admitsTimestamp 4486147200 = true ∧
      (4486147200 - 3223929600 : Int) = 14609 * secondsPerDay := by
  have hdate : leapMondays.HasPossibleDate := ⟨2, by decide, 29, by decide, by decide⟩
  obtain ⟨t, hrun, hadmits, -, -⟩ :=
    (runs_within_fortyYears leapMondays_valid).2 rfl hdate 3223929600
  have hvalue : leapMondays.nextRun 3223929600 = ⟨.ok 4486147200, []⟩ := by rfl
  have heq : t = 4486147200 := Except.ok.inj (Outcome.mk.inj (hrun.symm.trans hvalue)).1
  exact ⟨leapMondays_valid, hdate, rfl, hvalue, heq ▸ hadmits, by decide⟩

end Schedule

end Timetable
