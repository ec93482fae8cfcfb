import Timetable.Job.Transition
import Timetable.Register

/-!
# Schedulers

A scheduler keeps jobs in the order of their registration, against a clock that moves only when it
is told to. It runs nothing: its owner asks which jobs are due, runs them and reports back.

* Jobs are registered under the identifier that they are added with. A later change of a job's own
  identifier does not change that.
-/

namespace Timetable

/-- The release of the library. -/
def version : String := "0.1.0"

structure Scheduler.Settings where
  /-- Where the triggers of jobs come from. -/
  source : Option TriggerSource
  startTime : Int

structure Scheduler where
  source : TriggerSource
  now : Int
  jobs : Register Job

namespace Scheduler

/-- The answer when there is no such job or no such time. -/
def notFound : Int := -1

/-- The time that the clock shows if nothing else is asked for. -/
def defaultStartTime : Int := 0

def start (source : TriggerSource) (now : Int) : Scheduler := ⟨source, now, .empty⟩

/-- A scheduler without jobs, unless the settings lack a trigger source. -/
def ofSettings (settings : Settings) : Except Fault Scheduler :=
  match settings.source with
  | some source => .ok (start source settings.startTime)
  | none => .error .noTriggerSource

/-! ## Queries -/

def ids (s : Scheduler) : List String := s.jobs.keys

def has (s : Scheduler) (id : String) : Bool := s.jobs.contains id

def find? (s : Scheduler) (id : String) : Option Job := s.jobs.find? id

/-- The job under an identifier, which must be registered. -/
def job (s : Scheduler) (id : String) : Except Fault Job :=
  match s.find? id with
  | some job => .ok job
  | none => .error (.jobNotFound id)

def index (s : Scheduler) (id : String) : Int :=
  match s.jobs.indexOf? id with
  | some i => i
  | none => notFound

def jobCount (s : Scheduler) : Nat := s.jobs.size

def dueJobs (s : Scheduler) : List Job := s.jobs.values.filter (·.isDue s.now)

/-- The identifiers of the jobs that are due, in order. -/
def dueIds (s : Scheduler) : List String := s.dueJobs.map (·.id)

def dueCount (s : Scheduler) : Nat := s.jobs.values.countP (·.isDue s.now)

def enabledCount (s : Scheduler) : Nat := s.jobs.values.countP (·.enabled)

def statusCount (s : Scheduler) (status : Status) : Nat :=
  s.jobs.values.countP (·.status == status)

/-- The earliest next run of an enabled job, or `notFound`. -/
def nextDue (s : Scheduler) : Int :=
  (((s.jobs.values.filter (·.enabled)).map (·.nextRun)).min?).getD notFound

/-- The seconds until the earliest next run of an enabled job, none if it has passed; `notFound` if
`nextDue` says so. -/
def untilNextDue (s : Scheduler) : Int :=
  if s.nextDue = notFound then notFound else max 0 (s.nextDue - s.now)

end Scheduler

end Timetable
