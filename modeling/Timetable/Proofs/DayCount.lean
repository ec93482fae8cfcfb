import Timetable.Proofs.RealDate

/-!
# The day count

`Date.dayNumber` and `Date.ofDayNumber` are inverse to each other between the days of the calendar
and the integers, and keep the order.

Both reckon with years that begin on March 1st. `yearStart` is the first day of such a year and
`monthStart` the first day of a month in it.
-/

namespace Timetable

/-! ## Years and months from March -/

-- The days from March 1st of year 0 to March 1st of a year.
def yearStart (year : Int) : Int := 365 * year + year / 4 - year / 100 + year / 400

-- The days from March 1st to the first day of a month, months counted from 0 for March.
def monthStart (month : Int) : Int := (153 * month + 2) / 5

theorem yearStart_succ (year : Int) :
    yearStart (year + 1) = yearStart year + (if isLeapYear (year + 1) then 366 else 365) := by
  simp only [yearStart, isLeapYear, Bool.or_eq_true, Bool.and_eq_true, beq_iff_eq, bne_iff_ne]
  split <;> omega

theorem yearStart_mono {y z : Int} (h : y ≤ z) : yearStart y ≤ yearStart z := by
  unfold yearStart
  omega

theorem yearStart_add_eras (year era : Int) :
    yearStart (year + era * 400) = yearStart year + era * Date.daysPerEra := by
  unfold yearStart Date.daysPerEra
  omega

theorem monthStart_mono {m n : Int} (h : m ≤ n) : monthStart m ≤ monthStart n := by
  unfold monthStart
  omega

namespace Date

def marchYear (d : Date) : Int := if d.month ≤ 2 then d.year - 1 else d.year

def marchMonth (d : Date) : Int := (d.month + 9) % 12

theorem dayNumber_eq (d : Date) :
    d.dayNumber = yearStart d.marchYear + monthStart d.marchMonth + d.day - 1 - epochOffset := by
  simp only [dayNumber, yearStart, monthStart, marchYear, marchMonth, daysPerEra]
  split <;> omega

-- No month reaches beyond the first day of the next, and February none beyond its year.
theorem dayOfYear_lt {d : Date} (h : d.IsReal) :
    monthStart d.marchMonth + d.day - 1 < monthStart (d.marchMonth + 1) ∧
      yearStart d.marchYear + monthStart d.marchMonth + d.day - 1 < yearStart (d.marchYear + 1) := by
  obtain ⟨year, month, day⟩ := d
  obtain ⟨hlo, hhi, hday, hle⟩ := isReal_iff.mp h
  rw [yearStart_succ]
  simp only [marchYear, marchMonth, monthStart, monthDays] at *
  interval_cases month <;> simp at hle ⊢ <;> split_ifs at * <;> omega

theorem strictMonoOn_dayNumber : StrictMonoOn dayNumber {d | d.IsReal} := by
  intro d hd e he hlt
  have hdyear := (dayOfYear_lt hd).2
  have hdmonth := (dayOfYear_lt hd).1
  obtain ⟨hdlo, hdhi, hdday, -⟩ := isReal_iff.mp hd
  obtain ⟨helo, hehi, heday, -⟩ := isReal_iff.mp he
  have hstart : 0 ≤ monthStart e.marchMonth := by
    unfold monthStart marchMonth
    omega
  rw [dayNumber_eq, dayNumber_eq]
  -- The order of dates is also that of years from March, months from March and days.
  have hmarch : d.marchYear < e.marchYear ∨ (d.marchYear = e.marchYear ∧
      (d.marchMonth < e.marchMonth ∨ (d.marchMonth = e.marchMonth ∧ d.day < e.day))) := by
    rw [lt_iff] at hlt
    unfold marchYear marchMonth
    split_ifs <;> omega
  rcases hmarch with hyear | ⟨hyear, hmonth | ⟨hmonth, hday⟩⟩
  · have hmono : yearStart (d.marchYear + 1) ≤ yearStart e.marchYear := yearStart_mono hyear
    omega
  · have hmono : monthStart (d.marchMonth + 1) ≤ monthStart e.marchMonth := monthStart_mono hmonth
    rw [hyear] at *
    omega
  · rw [hyear, hmonth]
    omega

/-! ## Dates from years and months that begin in March -/

-- The date of a day of a month, counted from 0 for March, of a year from March.
def ofMarch (year month day : Int) : Date :=
  let month := if month < 10 then month + 3 else month - 9
  ⟨if month ≤ 2 then year + 1 else year, month, day⟩

theorem dayNumber_ofMarch (year day : Int) {month : Int} (hlo : 0 ≤ month) (hhi : month ≤ 11) :
    (ofMarch year month day).dayNumber = yearStart year + monthStart month + day - 1 - epochOffset := by
  have hyear : (ofMarch year month day).marchYear = year := by
    simp only [ofMarch, marchYear]
    split_ifs <;> omega
  have hmonth : (ofMarch year month day).marchMonth = month := by
    simp only [ofMarch, marchMonth]
    split_ifs <;> omega
  rw [dayNumber_eq, hyear, hmonth]
  rfl

-- A day that ends neither beyond its month nor beyond its year is one of the calendar.
theorem isReal_ofMarch {year month day : Int} (hlo : 0 ≤ month) (hhi : month ≤ 11) (hday : 1 ≤ day)
    (hnext : monthStart month + day - 1 < monthStart (month + 1))
    (hyear : yearStart year + monthStart month + day - 1 < yearStart (year + 1)) :
    (ofMarch year month day).IsReal := by
  rw [isReal_iff]
  rw [yearStart_succ] at hyear
  simp only [ofMarch, monthStart, monthDays] at *
  interval_cases month <;> simp at hnext hyear ⊢ <;> split_ifs at * <;> omega

/-! ## The date of a day number -/

-- The year of an era that a day of the era belongs to.
def yearOfEra (day : Int) : Int := (day - day / 1460 + day / 36524 - day / 146096) / 365

theorem yearOfEra_bounds {day : Int} (hlo : 0 ≤ day) (hhi : day < daysPerEra) :
    0 ≤ yearOfEra day ∧ yearOfEra day < 400 := by
  unfold yearOfEra
  unfold daysPerEra at hhi
  omega

theorem yearOfEra_spec {day : Int} (hlo : 0 ≤ day) (hhi : day < daysPerEra) :
    yearStart (yearOfEra day) ≤ day ∧ day < yearStart (yearOfEra day + 1) := by
  have hbounds := yearOfEra_bounds hlo hhi
  unfold daysPerEra at hhi
  -- One century after the other, the corrections of the centuries are constants.
  have hcorr : day / 146096 = day / 36524 / 4 := by omega
  have hcentury : day / 36524 = 0 ∨ day / 36524 = 1 ∨ day / 36524 = 2 ∨ day / 36524 = 3 ∨
      day / 36524 = 4 := by omega
  have hdef : yearOfEra day = (day - day / 1460 + day / 36524 - day / 36524 / 4) / 365 := by
    rw [← hcorr, yearOfEra]
  generalize yearOfEra day = year at *
  have hera : year / 400 = 0 := by omega
  have hquarter : day / 1460 ≤ (year + 1) / 4 := by omega
  have hnext : (year + 1) / 100 = year / 100 ∨ year + 1 = 100 * (year / 100) + 100 := by omega
  unfold yearStart
  rcases hcentury with h | h | h | h | h <;> rw [h] at hdef <;> norm_num at hdef
  · have hyear : year / 100 = 0 := by omega
    rcases hnext with hnext | hnext <;> omega
  · have hyear : year / 100 = 1 := by omega
    rcases hnext with hnext | hnext <;> omega
  · have hyear : year / 100 = 2 := by omega
    rcases hnext with hnext | hnext <;> omega
  · have hyear : year / 100 = 3 := by omega
    rcases hnext with hnext | hnext <;> omega
  · have hyear : year = 399 := by omega
    omega

/-- Every integer is the day number of a day of the calendar, the one that `ofDayNumber` gives. -/
theorem ofDayNumber_spec (n : Int) :
    (ofDayNumber n).IsReal ∧ (ofDayNumber n).dayNumber = n := by
  generalize hera : (n + epochOffset) / daysPerEra = era
  generalize hday : n + epochOffset - era * daysPerEra = day
  have hdlo : 0 ≤ day := by
    unfold daysPerEra at *
    omega
  have hdhi : day < daysPerEra := by
    unfold daysPerEra at *
    omega
  have hbounds := yearOfEra_bounds hdlo hdhi
  have hspec := yearOfEra_spec hdlo hdhi
  generalize hyear : yearOfEra day = year at *
  generalize hdoy : day - yearStart year = dayOfYear at *
  generalize hmonth : (5 * dayOfYear + 2) / 153 = month
  have hdate : ofDayNumber n = ofMarch (year + era * 400) month (dayOfYear - monthStart month + 1) := by
    -- Within an era the years that end one are the year 0 only, so that the last term is none.
    have hstart : yearStart year = 365 * year + year / 4 - year / 100 := by
      unfold yearStart
      omega
    rw [← hmonth, ← hdoy, hstart, ← hyear, ← hday, ← hera]
    rfl
  have hend : dayOfYear ≤ 365 := by
    have hsucc := yearStart_succ year
    split_ifs at hsucc <;> omega
  have hmlo : 0 ≤ month := by omega
  have hmhi : month ≤ 11 := by omega
  have hfirst : monthStart month ≤ dayOfYear := by
    unfold monthStart
    omega
  have hlast : dayOfYear < monthStart (month + 1) := by
    unfold monthStart
    omega
  have heras := yearStart_add_eras year era
  have heras' := yearStart_add_eras (year + 1) era
  rw [hdate]
  constructor
  · apply isReal_ofMarch hmlo hmhi
    · omega
    · omega
    · rw [show year + era * 400 + 1 = year + 1 + era * 400 by omega]
      omega
  · rw [dayNumber_ofMarch _ _ hmlo hmhi]
    omega

theorem ofDayNumber_dayNumber {d : Date} (h : d.IsReal) : ofDayNumber d.dayNumber = d := by
  have hspec := ofDayNumber_spec d.dayNumber
  exact strictMonoOn_dayNumber.injOn hspec.1 h hspec.2

end Date

end Timetable
