import Timetable.Fault

/-!
# Dates

Dates of the proleptic Gregorian calendar, for every integer year.

* A `Date` is three integers, and need not name a day of the calendar: `February 31` and month 14
  are dates too, and every function says what it makes of them.
* `dayNumber` counts the days from January 1st of 1970, and `ofDayNumber` goes back. Both reckon
  in eras of 400 years that begin on March 1st, so that the leap day is the last day of its year.
* `weekday` is Zeller's congruence and knows nothing of the day count.

All divisions have positive divisors and round to the floor.
-/

namespace Timetable

/-- A year, a month and a day, which need not be a day of the calendar. -/
structure Date where
  year : Int
  month : Int
  day : Int
  deriving DecidableEq, Repr

/-- Every fourth year is a leap year, but of the years that end a century only every fourth. -/
def isLeapYear (year : Int) : Bool :=
  (year % 4 == 0 && year % 100 != 0) || year % 400 == 0

def monthLengths : List Int := [31, 28, 31, 30, 31, 30, 31, 31, 30, 31, 30, 31]

/-- What is known of the lengths of months: the number of days of a month of a year, or a fault. -/
abbrev MonthTable := Int → Int → Except Fault Int

/-- The number of days of a month. Months 0 to -11 stand for December back to January, with
February at its common length; every other month outside 1 to 12 is a fault. -/
def daysInMonth : MonthTable := fun year month =>
  if month = 2 ∧ isLeapYear year then .ok 29
  else
    let index := if 1 ≤ month then month - 1 else month + 11
    if index < 0 then .error (.noSuchMonth month)
    else match monthLengths[index.toNat]? with
      | some days => .ok days
      | none => .error (.noSuchMonth month)

namespace Date

/-- The day of the week, from 0 for Sunday to 6 for Saturday. January and February count as months
13 and 14 of the year before. The congruence makes Saturday 0. -/
def weekday (d : Date) : Int :=
  let month := if d.month < 3 then d.month + 12 else d.month
  let year := if d.month < 3 then d.year - 1 else d.year
  let yearOfCentury := year % 100
  let century := year / 100
  let fromSaturday :=
    (d.day + 13 * (month + 1) / 5 + yearOfCentury + yearOfCentury / 4 + century / 4 + 5 * century) % 7
  (fromSaturday + 6) % 7

def daysPerEra : Int := 146097

/-- The number of days from March 1st of year 0 to January 1st of 1970. -/
def epochOffset : Int := 719468

/-- The number of days from January 1st of 1970 to the date. -/
def dayNumber (d : Date) : Int :=
  -- Years begin in March, so that a leap day is the last of its year.
  let year := if d.month ≤ 2 then d.year - 1 else d.year
  let era := year / 400
  let yearOfEra := year - era * 400
  let monthFromMarch := (d.month + 9) % 12
  let dayOfYear := (153 * monthFromMarch + 2) / 5 + d.day - 1
  let dayOfEra := yearOfEra * 365 + yearOfEra / 4 - yearOfEra / 100 + dayOfYear
  era * daysPerEra + dayOfEra - epochOffset

/-- The date that lies a number of days after January 1st of 1970. -/
def ofDayNumber (n : Int) : Date :=
  let days := n + epochOffset
  let era := days / daysPerEra
  let dayOfEra := days - era * daysPerEra
  -- Without the leap days before the day, every year has 365.
  let yearOfEra :=
    (dayOfEra - dayOfEra / 1460 + dayOfEra / 36524 - dayOfEra / 146096) / 365
  let dayOfYear := dayOfEra - (365 * yearOfEra + yearOfEra / 4 - yearOfEra / 100)
  let monthFromMarch := (5 * dayOfYear + 2) / 153
  let day := dayOfYear - (153 * monthFromMarch + 2) / 5 + 1
  let month := if monthFromMarch < 10 then monthFromMarch + 3 else monthFromMarch - 9
  let year := yearOfEra + era * 400
  ⟨if month ≤ 2 then year + 1 else year, month, day⟩

def nextMonth (d : Date) : Date :=
  if 12 < d.month + 1 then ⟨d.year + 1, 1, 1⟩ else ⟨d.year, d.month + 1, 1⟩

/-- The day that follows, or the first day of the month that follows if the month has no such
day. -/
def nextDay (table : MonthTable) (d : Date) : Except Fault Date := do
  let days ← table d.year d.month
  .ok (if days < d.day + 1 then d.nextMonth else ⟨d.year, d.month, d.day + 1⟩)

end Date

end Timetable
