import Timetable.Calendar.Date

/-!
# Civil time

Timestamps are seconds from the beginning of 1970, negative before it, in a calendar without leap
seconds. A `CivilTime` is a timestamp broken down into a date and a time of day.

* `CivilTime.ofTimestamp` and `CivilTime.timestamp` convert between the two.
* `timestampText` writes a timestamp down to the second, as in `1970-01-01T00:00:00Z`.
-/

namespace Timetable

open Text

def secondsPerMinute : Int := 60

def secondsPerHour : Int := 60 * secondsPerMinute

def secondsPerDay : Int := 24 * secondsPerHour

/-- A date and a time of day, which need not be of the calendar. -/
structure CivilTime where
  date : Date
  hour : Int
  minute : Int
  second : Int
  deriving DecidableEq, Repr

namespace CivilTime

def weekday (t : CivilTime) : Int := t.date.weekday

def ofTimestamp (timestamp : Int) : CivilTime :=
  let secondOfDay := timestamp % secondsPerDay
  let secondOfHour := secondOfDay % secondsPerHour
  { date := Date.ofDayNumber (timestamp / secondsPerDay)
    hour := secondOfDay / secondsPerHour
    minute := secondOfHour / secondsPerMinute
    second := secondOfHour % secondsPerMinute }

def timestamp (t : CivilTime) : Int :=
  t.date.dayNumber * secondsPerDay + t.hour * secondsPerHour + t.minute * secondsPerMinute + t.second

/-- The written form of a civil time. The year fills four places together with its sign. -/
def textChars (t : CivilTime) : List Char :=
  paddedChars 4 t.date.year ++ '-' :: paddedChars 2 t.date.month ++ '-' :: paddedChars 2 t.date.day ++
    'T' :: paddedChars 2 t.hour ++ ':' :: paddedChars 2 t.minute ++ ':' :: paddedChars 2 t.second ++
    ['Z']

end CivilTime

/-- The written form of a timestamp; a fault if its year has too many digits. -/
def timestampText (timestamp : Int) : Except Fault String :=
  let t := CivilTime.ofTimestamp timestamp
  if fitsDecimal t.date.year then .ok (String.ofList t.textChars) else .error .integerTooLong

end Timetable
