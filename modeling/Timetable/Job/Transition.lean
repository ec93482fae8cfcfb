import Timetable.Action
import Timetable.Job.Basic

/-!
# Transitions of a job

What an executor reports of a job, and what its owner decides about it.

* Every transition but starting and disabling determines the next run anew, as the first one after
  the time of the transition (`Job.reschedule`).
* A transition writes the record first and determines the next run last. If that ends in a fault,
  what was written stays.
-/

namespace Timetable.Job

/-- Determines the next run as the first one after a time. -/
def reschedule (now : Int) : Action Job Unit := do
  let job ← Action.get
  Action.lift job.trigger.check
  let run ← Action.lift (job.trigger.nextRun now)
  Action.modify fun job => { job with nextRun := run }

inductive Transition where
  | start
  | complete
  | fail
  | disable
  | enable
  | reset
  deriving DecidableEq, Repr

namespace Transition

/-- What a transition writes into the record before the next run is determined. -/
def write (now : Int) : Transition → Job → Job
  | start, job => { job with status := .running, lastRun := now }
  | complete, job => { job with status := .completed, runCount := job.runCount + 1 }
  | fail, job =>
    { job with status := .failed, runCount := job.runCount + 1, failCount := job.failCount + 1 }
  | disable, job => { job with status := .disabled, enabled := false }
  | enable, job => { job with status := .pending, enabled := true }
  | reset, job => { job with status := .pending }

def reschedules : Transition → Bool
  | start | disable => false
  | complete | fail | enable | reset => true

def perform (t : Transition) (now : Int) : Action Job Unit := do
  Action.modify (t.write now)
  if t.reschedules then reschedule now else pure ()

end Transition

end Timetable.Job
