import Timetable.Calendar.CivilTime
import Timetable.Cron.FieldText
import Timetable.Outcome

/-!
# Schedules

A schedule is a cron expression of five fields between blanks, together with the values that each
field admits. All five fields must hold, the day of the month and the weekday included.

* Reading an expression (`Schedule.ofExpression`) does not refuse flawed ones: the schedule of a
  flawed expression keeps the flaw, admits nothing, and is a fault only when it is put to use
  (`Schedule.check`). Fields are read from the left up to the first flawed one; the others stay
  without values.
-/

namespace Timetable

open Text

/-- The values that are admitted for each field. -/
structure FieldSets where
  minutes : ValueSet
  hours : ValueSet
  days : ValueSet
  months : ValueSet
  weekdays : ValueSet
  deriving DecidableEq

namespace FieldSets

def empty : FieldSets where
  minutes := .empty Field.minute.lo Field.minute.hi
  hours := .empty Field.hour.lo Field.hour.hi
  days := .empty Field.day.lo Field.day.hi
  months := .empty Field.month.lo Field.month.hi
  weekdays := .empty Field.weekday.lo Field.weekday.hi

def get (s : FieldSets) : Field → ValueSet
  | .minute => s.minutes
  | .hour => s.hours
  | .day => s.days
  | .month => s.months
  | .weekday => s.weekdays

def set (s : FieldSets) (f : Field) (values : ValueSet) : FieldSets :=
  match f with
  | .minute => { s with minutes := values }
  | .hour => { s with hours := values }
  | .day => { s with days := values }
  | .month => { s with months := values }
  | .weekday => { s with weekdays := values }

theorem get_empty (f : Field) : empty.get f = .empty f.lo f.hi := by
  cases f <;> rfl

theorem get_set (s : FieldSets) (f g : Field) (values : ValueSet) :
    (s.set f values).get g = if g = f then values else s.get g := by
  cases f <;> cases g <;> rfl

end FieldSets

inductive ScheduleFlaw where
  /-- The expression has another number of fields. -/
  | fieldCount (count : Nat)
  | field (field : Field) (text : String) (flaw : FieldFlaw)
  deriving DecidableEq, Repr

def ScheduleFlaw.message (expression : String) : ScheduleFlaw → String
  | fieldCount count =>
    s!"expected {decimal Field.all.length} fields, got {decimal count} in {quoted expression}"
  | field f text flaw => s!"invalid {f.name} field {quoted text}: {flaw.message}"

/-- A cron expression and what it admits. -/
structure Schedule where
  expression : String
  /-- The number of passes that a search for a run time may take. -/
  searchLimit : Int
  sets : FieldSets
  flaw : Option ScheduleFlaw
  deriving DecidableEq

/-- Reads fields from the left up to the first flawed one. The texts behind it are not read. -/
def readFields : List (Field × String) → FieldSets → Except Fault (FieldSets × Option ScheduleFlaw)
  | [], sets => .ok (sets, none)
  | (f, text) :: rest, sets =>
    match f.read text with
    | .ok values => readFields rest (sets.set f values)
    | .error (.flawed flaw) => .ok (sets, some (.field f text flaw))
    | .error (.numeralTooLong digits) => .error (.numeralTooLong digits)

namespace Schedule

/-- The usual number of passes: as many as a leap year has minutes. -/
def defaultSearchLimit : Int := 366 * 24 * 60

def fieldTexts (expression : String) : List String :=
  (words expression.toList).map String.ofList

def readExpression (expression : String) : Except Fault (FieldSets × Option ScheduleFlaw) :=
  let texts := fieldTexts expression
  if texts.length = Field.all.length then readFields (Field.all.zip texts) .empty
  else .ok (.empty, some (.fieldCount texts.length))

/-- The schedule of an expression, with a bound for its searches. A flaw is reported. -/
def ofExpressionWithin (searchLimit : Int) (expression : String) : Outcome Schedule := do
  let (sets, flaw) ← Outcome.ofExcept (readExpression expression)
  match flaw with
  | none => pure ()
  | some flaw => Outcome.report (.expressionFlawed (flaw.message expression))
  pure { expression, searchLimit, sets, flaw }

def ofExpression (expression : String) : Outcome Schedule :=
  ofExpressionWithin defaultSearchLimit expression

def isValid (s : Schedule) : Bool := s.flaw.isNone

/-- What is wrong with the expression, or the empty text. -/
def errorText (s : Schedule) : String :=
  match s.flaw with
  | none => ""
  | some flaw => flaw.message s.expression

/-- A flawed schedule is a fault. -/
def check (s : Schedule) : Except Fault Unit :=
  if s.isValid then .ok () else .error (.invalidSchedule s.expression s.errorText)

/-- Whether the fields admit a minute that is given by its components. A flawed schedule admits
none. -/
def admits (s : Schedule) (minute hour day month weekday : Int) : Bool :=
  s.isValid && s.sets.minutes.contains minute && s.sets.hours.contains hour &&
    s.sets.days.contains day && s.sets.months.contains month && s.sets.weekdays.contains weekday

def admitsTimestamp (s : Schedule) (timestamp : Int) : Bool :=
  let t := CivilTime.ofTimestamp timestamp
  s.admits t.minute t.hour t.date.day t.date.month t.weekday

def text (s : Schedule) : String :=
  s!"Schedule(expression={quoted s.expression}, is_valid={truth s.isValid})"

end Schedule

end Timetable
