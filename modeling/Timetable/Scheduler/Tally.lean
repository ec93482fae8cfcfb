import Timetable.Numeric.Binary64
import Timetable.Scheduler.Basic

/-!
# Tallies

Counts over the jobs of a scheduler, and the share of runs that succeeded.

* `Tally.successRatio` is the exact share, and `Tally.successRate` the binary64 number nearest to it.
  Without runs the share is 1.
* The counts of single jobs add up, so that a total may have more digits than can be written even
  where no job's count has; `Tally.text` is then a fault.
-/

namespace Timetable

open Text

structure Tally where
  totalJobs : Int
  enabledJobs : Int
  pendingJobs : Int
  runningJobs : Int
  dueJobs : Int
  totalRuns : Int
  totalFailures : Int
  deriving DecidableEq, Repr

namespace Tally

/-- The exact share of runs that succeeded. -/
def successRatio (t : Tally) : Rat :=
  if t.totalRuns = 0 then 1 else ((t.totalRuns - t.totalFailures : Int) : Rat) / (t.totalRuns : Rat)

/-- The share of runs that succeeded, rounded. -/
def successRate (t : Tally) : Except Fault Binary64 :=
  if t.totalRuns = 0 then .ok .one
  else match Binary64.ofQuotient? (t.totalRuns - t.totalFailures) t.totalRuns with
    | some rate => .ok rate
    | none => .error .quotientTooLarge

/-- The counts of a tally under their names, in the order in which they are written. -/
def entries (t : Tally) : List (String × Int) := [
  ("total_jobs", t.totalJobs), ("enabled_jobs", t.enabledJobs), ("pending_jobs", t.pendingJobs),
  ("running_jobs", t.runningJobs), ("due_jobs", t.dueJobs), ("total_runs", t.totalRuns),
  ("total_failures", t.totalFailures)]

/-- The written form of a tally; a fault if one of its counts has too many digits. -/
def text (t : Tally) : Except Fault String := do
  let counts ← t.entries.mapM fun (name, count) => do
    let written ← boundedDecimal count
    .ok s!"{name}={written}"
  .ok ("SchedulerStats(" ++ String.intercalate ", " counts ++ ")")

end Tally

def Scheduler.total (s : Scheduler) (count : Job → Int) : Int :=
  s.jobs.values.foldr (fun job sum => count job + sum) 0

def Scheduler.tally (s : Scheduler) : Tally where
  totalJobs := s.jobCount
  enabledJobs := s.enabledCount
  pendingJobs := s.statusCount .pending
  runningJobs := s.statusCount .running
  dueJobs := s.dueCount
  totalRuns := s.total (·.runCount)
  totalFailures := s.total (·.failCount)

end Timetable
