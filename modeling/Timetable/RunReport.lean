import Timetable.Fault

/-!
# Run reports

What an executor reports of one run of a job. A scheduler takes the outcome from it and keeps
nothing else.
-/

namespace Timetable

open Text

structure RunReport where
  jobId : String
  success : Bool
  start : Int
  stop : Int
  error : String
  output : String
  deriving DecidableEq, Repr

namespace RunReport

/-- The seconds from start to end; none if the end lies before the start. -/
def duration (r : RunReport) : Int := max 0 (r.stop - r.start)

/-- The written form of a report; a fault if one of its times has too many digits. -/
def text (r : RunReport) : Except Fault String := do
  let start ← boundedDecimal r.start
  let stop ← boundedDecimal r.stop
  .ok (s!"JobResult(job_id={quoted r.jobId}, success={truth r.success}, " ++
    s!"start_time={start}, end_time={stop}, " ++
    s!"error={quoted r.error}, output={quoted r.output})")

end RunReport

end Timetable
