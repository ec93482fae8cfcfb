import Timetable.Job.Status
import Timetable.Trigger

/-!
# Jobs

The record of one job. A job runs nothing: it holds what its executor reports, counts runs and
failures, and knows when the next run falls.

* `Job.isDue` says whether a run should be started by now: the job must be enabled, not already
  running, and its next run must have come.
* `Job.Edit` lists the parts of a record that may be overwritten from outside.
-/

namespace Timetable

open Text

structure Job where
  id : String
  name : String
  metadata : String
  trigger : Trigger
  status : Status
  enabled : Bool
  nextRun : Int
  lastRun : Int
  runCount : Int
  failCount : Int

namespace Job

/-- The time that stands for a run that has not been determined or has not taken place. -/
def never : Int := 0

/-- A new job: enabled and pending, without runs. -/
def ofTrigger (id name metadata : String) (trigger : Trigger) : Job where
  id
  name
  metadata
  trigger
  status := .pending
  enabled := true
  nextRun := never
  lastRun := never
  runCount := 0
  failCount := 0

def create (source : TriggerSource) (id name expression metadata : String) : Outcome Job := do
  let trigger ← source expression
  pure (ofTrigger id name metadata trigger)

/-- Whether a run should be started by now. -/
def isDue (job : Job) (now : Int) : Bool :=
  job.enabled && job.status != .disabled && job.status != .running && job.nextRun ≤ now

def text (job : Job) : Except Fault String := do
  let nextRun ← timestampText job.nextRun
  .ok s!"Job(id={quoted job.id}, status={job.status.text}, next_run={nextRun})"

/-- A part of the record with a new value for it. -/
inductive Edit where
  | id (value : String)
  | name (value : String)
  | metadata (value : String)
  | enabled (value : Bool)
  | nextRun (value : Int)
  | lastRun (value : Int)
  | runCount (value : Int)
  | failCount (value : Int)
  deriving DecidableEq, Repr

def edit (job : Job) : Edit → Job
  | .id value => { job with id := value }
  | .name value => { job with name := value }
  | .metadata value => { job with metadata := value }
  | .enabled value => { job with enabled := value }
  | .nextRun value => { job with nextRun := value }
  | .lastRun value => { job with lastRun := value }
  | .runCount value => { job with runCount := value }
  | .failCount value => { job with failCount := value }

end Job

end Timetable
