import Timetable.Cron.Search

/-!
# Triggers

A trigger is what a job knows of its run times: the expression it was made from, whether that is
of use, and the first run after a given time. A trigger source makes triggers from expressions.

* `TriggerSource.cron` reads cron expressions; `TriggerSource.interval` takes any expression and
  lets a fixed number of seconds pass between runs.
-/

namespace Timetable

/-- What determines the run times of a job. -/
structure Trigger where
  expression : String
  isValid : Bool
  errorText : String
  /-- A fault if the trigger is of no use. -/
  check : Outcome Unit
  nextRun : Int → Outcome Int

abbrev TriggerSource := String → Outcome Trigger

def Schedule.trigger (s : Schedule) : Trigger where
  expression := s.expression
  isValid := s.isValid
  errorText := s.errorText
  check := Outcome.ofExcept s.check
  nextRun := s.nextRun

namespace TriggerSource

/-- Schedules whose searches take at most a number of passes. -/
def cronWithin (searchLimit : Int) : TriggerSource := fun expression => do
  let schedule ← Schedule.ofExpressionWithin searchLimit expression
  pure schedule.trigger

/-- Schedules with the usual bound on passes. -/
def cron : TriggerSource := cronWithin Schedule.defaultSearchLimit

/-- Runs at a fixed distance from the time that is asked about, whatever the expression. With an
error text the triggers are of no use. -/
def interval (seconds : Int) (errorText : String) : TriggerSource := fun expression =>
  pure {
    expression
    isValid := errorText.isEmpty
    errorText
    check :=
      if errorText.isEmpty then pure () else Outcome.fault (.invalidSchedule expression errorText)
    nextRun := fun now => pure (now + seconds) }

end TriggerSource

end Timetable
