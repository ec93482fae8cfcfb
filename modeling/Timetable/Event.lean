import Timetable.Text.Numeral
import Timetable.Text.Quoted

/-!
# Events

What schedules and schedulers report while they work. An event holds the data that it reports; its
severity, its channel and its text follow from them.
-/

namespace Timetable

open Text

inductive Severity where
  | debug
  | warning
  deriving DecidableEq, Repr

/-- The part of the library that an event comes from. -/
inductive Channel where
  | schedule
  | scheduler
  deriving DecidableEq, Repr

/-- Something worth reporting. Times are held as their written form. -/
inductive Event where
  | expressionFlawed (reason : String)
  /-- The search for a run time used up its passes. -/
  | searchExhausted (expression : String) (limit fallbackYear : Int)
  /-- A job was not added, since its identifier is taken. -/
  | alreadyRegistered (id : String)
  /-- A job was not added, since its expression is flawed. -/
  | rejected (id reason : String)
  | added (id nextRun : String)
  | removed (id : String)
  | clockSet (time : String)
  | statusChanged (id status time : String)
  | runFailed (id reason : String)
  deriving DecidableEq, Repr

namespace Event

/-- Refused jobs and exhausted searches are warnings; all else is detail. -/
def severity : Event → Severity
  | searchExhausted .. | alreadyRegistered _ | rejected .. => .warning
  | _ => .debug

/-- Events about an expression come from its schedule, the others from the scheduler. -/
def channel : Event → Channel
  | expressionFlawed _ | searchExhausted .. => .schedule
  | _ => .scheduler

def message : Event → String
  | expressionFlawed reason => s!"Cron parse failed: {reason}"
  | searchExhausted expression limit year =>
    s!"No run time found for {quoted expression} within {decimal limit} search steps; " ++
      s!"falling back to {decimal year}-01-01 00:00"
  | alreadyRegistered id => s!"Job {quoted id} is already registered"
  | rejected id reason => s!"Job {quoted id} rejected: {reason}"
  | added id nextRun => s!"Job {quoted id} added, next run at {nextRun}"
  | removed id => s!"Job {quoted id} removed"
  | clockSet time => s!"Clock set to {time}"
  | statusChanged id status time => s!"Job {quoted id} is now {status} at {time}"
  | runFailed id reason => s!"Job {quoted id} failed: {reason}"

end Event

end Timetable
