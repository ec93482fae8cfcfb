import Timetable.Cron.Schedule

/-!
# The search for run times

The search starts at the minute after a given point and moves forward in passes, until it stands at a
minute that the schedule admits or has used up the passes of its bound.

* A `Point` need not be a minute of the calendar; a search may start anywhere, and passes through
  dates such as February 31.
* A pass (`FieldSets.pass`) settles the month, the day, the weekday, the hour and the minute, in
  this order, and looks up the lengths of months in a table. Whenever one of them has to move up, the
  smaller ones go back to their first values; where a value above the month, the day or the hour must
  follow, the pass ends there.
* When the bound is used up, `Schedule.nextAfter` answers with the first minute of the next year and
  reports that.
-/

namespace Timetable

/-- A date and a minute of the day, which need not be of the calendar. -/
structure Point where
  date : Date
  hour : Int
  minute : Int
  deriving DecidableEq, Repr

namespace Point

/-- The civil time of a point, at its first second. -/
def civilTime (p : Point) : CivilTime := ⟨p.date, p.hour, p.minute, 0⟩

def timestamp (p : Point) : Int := p.civilTime.timestamp

end Point

def CivilTime.point (t : CivilTime) : Point := ⟨t.date, t.hour, t.minute⟩

/-- The end of a pass: the search has moved on to a point, or stands at a point that is admitted. -/
inductive Pass where
  | moved (p : Point)
  | found (p : Point)
  deriving DecidableEq, Repr

namespace FieldSets

/-- The first admitted minute of the first admitted hour of a date. -/
def dawn (s : FieldSets) (d : Date) : Point := ⟨d, s.hours.first, s.minutes.first⟩

/-- The minute that follows a point, as far as minutes and hours are concerned: the hour may reach
24. -/
def minuteAfter (s : FieldSets) (p : Point) : Point :=
  if s.minutes.hi < p.minute + 1 then ⟨p.date, p.hour + 1, 0⟩ else ⟨p.date, p.hour, p.minute + 1⟩

/-- Settles the minute of a point whose date and hour are admitted. -/
def settleMinute (s : FieldSets) (table : MonthTable) (p : Point) : Except Fault Pass :=
  match s.minutes.next? p.minute with
  | some minute => .ok (.found { p with minute })
  | none =>
    if s.hours.hi < p.hour + 1 then do
      let date ← p.date.nextDay table
      -- Hour 0 need not be admitted; the next pass moves on from it.
      .ok (.moved ⟨date, 0, s.minutes.first⟩)
    else .ok (.moved ⟨p.date, p.hour + 1, s.minutes.first⟩)

/-- Settles the hour and the minute of a point whose date is admitted. -/
def settleHour (s : FieldSets) (table : MonthTable) (p : Point) : Except Fault Pass :=
  match s.hours.next? p.hour with
  | some hour =>
    s.settleMinute table (if p.hour < hour then ⟨p.date, hour, s.minutes.first⟩ else p)
  | none => do
    let date ← p.date.nextDay table
    .ok (.moved (s.dawn date))

/-- Settles the weekday and the time of a point whose day and month are admitted. -/
def settleWeekday (s : FieldSets) (table : MonthTable) (p : Point) : Except Fault Pass :=
  if s.weekdays.contains p.date.weekday then s.settleHour table p
  else do
    let date ← p.date.nextDay table
    .ok (.moved (s.dawn date))

/-- Settles the day, the weekday and the time of a point whose month is admitted. -/
def settleDay (s : FieldSets) (table : MonthTable) (p : Point) : Except Fault Pass :=
  match s.days.next? p.date.day with
  | none => .ok (.moved (s.dawn (p.date.nextMonth)))
  | some day => do
    let days ← table p.date.year p.date.month
    if days < day then .ok (.moved (s.dawn (p.date.nextMonth)))
    else s.settleWeekday table (if p.date.day < day then s.dawn { p.date with day } else p)

def pass (s : FieldSets) (table : MonthTable) (p : Point) : Except Fault Pass :=
  match s.months.next? p.date.month with
  | none => .ok (.moved (s.dawn ⟨p.date.year + 1, s.months.first, s.days.first⟩))
  | some month =>
    if p.date.month < month then .ok (.moved (s.dawn ⟨p.date.year, month, s.days.first⟩))
    else s.settleDay table p

/-- The first admitted point that some number of passes reaches. -/
def search (s : FieldSets) (table : MonthTable) : Nat → Point → Except Fault (Option Point)
  | 0, _ => .ok none
  | passes + 1, p =>
    match s.pass table p with
    | .error e => .error e
    | .ok (.found q) => .ok (some q)
    | .ok (.moved q) => s.search table passes q

end FieldSets

namespace Schedule

/-- The point that a search answers with when it has used up its passes: the first minute of the
year after that of its start. -/
def fallback (start : Point) : Point := ⟨⟨start.date.year + 1, 1, 1⟩, 0, 0⟩

/-- The first admitted minute after a point, as far as the bound on passes lets it be found. The
weekday of the start stands beside its date for completeness only: weekdays are reckoned from
dates. -/
def nextAfter (s : Schedule) (start : Point) (_weekday : Int) : Outcome Point := do
  Outcome.ofExcept s.check
  match ← Outcome.ofExcept
      (s.sets.search daysInMonth s.searchLimit.toNat (s.sets.minuteAfter start)) with
  | some p => pure p
  | none =>
    Outcome.report (.searchExhausted s.expression s.searchLimit (start.date.year + 1))
    pure (fallback start)

/-- The first run after a timestamp. Seconds within the minute of the timestamp do not count. -/
def nextRun (s : Schedule) (now : Int) : Outcome Int := do
  let t := CivilTime.ofTimestamp now
  let p ← s.nextAfter t.point t.weekday
  pure p.timestamp

/-- The first `n` runs after a timestamp, each after the one before. -/
def runs (s : Schedule) : Nat → Int → Outcome (List Int)
  | 0, _ => pure []
  | n + 1, now => do
    let run ← s.nextRun now
    let rest ← s.runs n run
    pure (run :: rest)

end Schedule

end Timetable
