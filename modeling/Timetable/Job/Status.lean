import Timetable.Fault

/-!
# The status of a job

A job waits, runs, has completed or failed its last run, or is disabled.
-/

namespace Timetable

inductive Status where
  | pending
  | running
  | completed
  | failed
  | disabled
  deriving DecidableEq, Repr

namespace Status

def all : List Status := [pending, running, completed, failed, disabled]

/-- The text that stands for a status in records and messages. -/
def text : Status → String
  | pending => "pending"
  | running => "running"
  | completed => "completed"
  | failed => "failed"
  | disabled => "disabled"

def name : Status → String
  | pending => "PENDING"
  | running => "RUNNING"
  | completed => "COMPLETED"
  | failed => "FAILED"
  | disabled => "DISABLED"

def ofText (text : String) : Except Fault Status :=
  match all.find? (·.text == text) with
  | some status => .ok status
  | none => .error (.unknownStatus text)

end Status

end Timetable
