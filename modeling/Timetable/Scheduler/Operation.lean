import Timetable.RunReport
import Timetable.Scheduler.Basic

/-!
# Operations of a scheduler

Adding and removing jobs, moving the clock, and transitions of registered jobs.

* Moving the clock with `setTime` determines the next run of every enabled job that is not running;
  `advance` only moves the clock.
* An operation that addresses a job answers whether there was one. Adding a job answers whether it
  was added.
* `Operation` lists the operations, and `Operation.perform` carries one out.
-/

namespace Timetable.Scheduler

/-- Adds a job, unless its identifier is taken or its expression is flawed. -/
def add (id name expression metadata : String) : Action Scheduler Bool := do
  let s ← Action.get
  if s.has id then
    Action.report (.alreadyRegistered id)
    pure false
  else
    let job ← Action.lift (Job.create s.source id name expression metadata)
    if job.trigger.isValid then
      -- A fault on the way leaves the jobs as they were; one behind it finds the job added.
      let job ← Action.lift ((Job.reschedule s.now).exec job)
      Action.modify fun s => { s with jobs := s.jobs.add id job }
      let nextRun ← Action.lift (Outcome.ofExcept (timestampText job.nextRun))
      Action.report (.added id nextRun)
      pure true
    else
      Action.report (.rejected id job.trigger.errorText)
      pure false

def remove (id : String) : Action Scheduler Bool := do
  let s ← Action.get
  if s.has id then
    Action.modify fun s => { s with jobs := s.jobs.erase id }
    Action.report (.removed id)
    pure true
  else
    pure false

def clear : Action Scheduler Unit := Action.modify fun s => { s with jobs := .empty }

/-- Determines the next run of a job that is enabled and not running. -/
def refresh (now : Int) : Action Job Unit := fun job =>
  if job.enabled && job.status != .running then Job.reschedule now job else ⟨job, .ok (), []⟩

/-- Determines the next runs of all jobs that are enabled and not running. -/
def refreshAll (now : Int) : Action Scheduler Unit := fun s =>
  let step := Register.each (refresh now) s.jobs
  ⟨{ s with jobs := step.state }, step.result, step.events⟩

def setTime (time : Int) : Action Scheduler Unit := do
  Action.modify fun s => { s with now := time }
  refreshAll time
  let shown ← Action.lift (Outcome.ofExcept (timestampText time))
  Action.report (.clockSet shown)

def advance (seconds : Int) : Action Scheduler Unit :=
  Action.modify fun s => { s with now := s.now + seconds }

def advanceMinutes (minutes : Int) : Action Scheduler Unit := advance (minutes * secondsPerMinute)

def advanceHours (hours : Int) : Action Scheduler Unit := advance (hours * secondsPerHour)

def advanceDays (days : Int) : Action Scheduler Unit := advance (days * secondsPerDay)

/-- Lets an action work on a job and keeps what becomes of the job, also after a fault. -/
def withJob (id : String) (job : Job) (act : Action Job Unit) : Action Scheduler Job := fun s =>
  let step := act job
  ⟨{ s with jobs := s.jobs.replace id step.state }, step.result.map fun _ => step.state,
    step.events⟩

/-- Carries out a transition of a job at the time of the clock. -/
def transition (id : String) (t : Job.Transition) : Action Scheduler Bool := do
  let s ← Action.get
  match s.find? id with
  | none => pure false
  | some job =>
    let job ← withJob id job (t.perform s.now)
    let shown ← Action.lift (Outcome.ofExcept (timestampText s.now))
    Action.report (.statusChanged id job.status.text shown)
    pure true

/-- Takes the outcome of a run from a report. A failure is reported even of an unknown job. -/
def takeReport (r : RunReport) : Action Scheduler Bool :=
  if r.success then transition r.jobId .complete
  else do
    Action.report (.runFailed r.jobId r.error)
    transition r.jobId .fail

def editJob (id : String) (e : Job.Edit) : Action Scheduler Unit := do
  let s ← Action.get
  let job ← Action.lift (Outcome.ofExcept (s.job id))
  Action.modify fun s => { s with jobs := s.jobs.replace id (job.edit e) }

/-- Removes jobs one after the other, and answers for each whether there was one. -/
def removeEach : List String → Action Scheduler (List (String × Bool))
  | [] => pure []
  | id :: rest => do
    let removed ← remove id
    let others ← removeEach rest
    pure ((id, removed) :: others)

/-- Removes every job by the identifier that it calls its own. -/
def drain : Action Scheduler (List (String × Bool)) := do
  let s ← Action.get
  removeEach (s.jobs.values.map (·.id))

inductive Operation where
  | add (id name expression metadata : String)
  | remove (id : String)
  | clear
  | setTime (time : Int)
  | advance (seconds : Int)
  | transition (id : String) (t : Job.Transition)
  | takeReport (r : RunReport)
  deriving DecidableEq, Repr

/-- Carries out an operation. Clearing and moving the clock answer nothing. -/
def Operation.perform : Operation → Action Scheduler (Option Bool)
  | .add id name expression metadata => some <$> Scheduler.add id name expression metadata
  | .remove id => some <$> Scheduler.remove id
  | .clear => (fun _ => none) <$> Scheduler.clear
  | .setTime time => (fun _ => none) <$> Scheduler.setTime time
  | .advance seconds => (fun _ => none) <$> Scheduler.advance seconds
  | .transition id t => some <$> Scheduler.transition id t
  | .takeReport r => some <$> Scheduler.takeReport r

end Timetable.Scheduler
