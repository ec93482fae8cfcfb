import Timetable.Proofs.OperationAnswer

/-!
# Jobs of flawed expressions

A job can be made of any expression, and no scheduler registers one whose expression is flawed. What becomes
of such a job is therefore a matter of the job alone.

* `Job.Request` is what can be asked of a job, and `Job.after` is the job after any requests. None of them
  changes the trigger (`Job.trigger_after`).
* A request is a fault exactly when it has to determine the next run of a flawed expression. What a transition
  has written by then is not taken back (`Job.perform_fault_iff`), so that of all requests only the one for the
  next run alone leaves every job as it was (`Job.Request.WritesNothing`).
-/

namespace Timetable.Job

/-- What can be asked of a job: a transition, or only its next run. -/
inductive Request where
  | transition (t : Transition)
  | reschedule
  deriving DecidableEq, Repr

/-- The jobs agree in the times of their runs, and in all that they were made of. -/
structure SameTimes (job job' : Job) : Prop where
  id_eq : job'.id = job.id
  name_eq : job'.name = job.name
  metadata_eq : job'.metadata = job.metadata
  trigger_eq : job'.trigger = job.trigger
  nextRun_eq : job'.nextRun = job.nextRun
  lastRun_eq : job'.lastRun = job.lastRun

namespace Request

def perform (now : Int) : Request → Action Job Unit
  | transition t => t.perform now
  | reschedule => Job.reschedule now

/-- What is written into the record before the next run is determined. -/
def write (now : Int) : Request → Job → Job
  | transition t => t.write now
  | reschedule => fun job => job

/-- Whether the next run is determined. -/
def determines : Request → Bool
  | transition t => t.reschedules
  | reschedule => true

/-- What is written is what the record says already. -/
def WritesNothing (job : Job) : Request → Prop
  | reschedule => True
  | transition .reset => job.status = .pending
  | transition .enable => job.status = .pending ∧ job.enabled = true
  | transition _ => False

variable {job : Job} {now : Int} {r : Request}

theorem perform_eq (r : Request) (now : Int) (job : Job) : r.perform now job =
    if r.determines then Job.reschedule now (r.write now job) else ⟨r.write now job, .ok (), []⟩ := by
  cases r with
  | reschedule => rfl
  | transition t => exact Job.perform_eq t now job

theorem trigger_write (r : Request) (now : Int) (job : Job) : (r.write now job).trigger = job.trigger := by
  cases r with
  | reschedule => rfl
  | transition t => exact Job.trigger_write t now job

theorem trigger_perform (r : Request) (now : Int) (job : Job) :
    (r.perform now job).state.trigger = job.trigger := by
  rw [perform_eq]
  by_cases h : r.determines = true
  · rw [if_pos h, trigger_reschedule, trigger_write]
  · rw [if_neg h, trigger_write]

-- Only the start of a run is written down as a time.
theorem sameTimes_write (h : r.determines = true) (now : Int) (job : Job) : job.SameTimes (r.write now job) := by
  cases r with
  | reschedule => exact ⟨rfl, rfl, rfl, rfl, rfl, rfl⟩
  | transition t =>
    cases t with
    | start | disable => exact absurd h Bool.false_ne_true
    | complete | fail | enable | reset => exact ⟨rfl, rfl, rfl, rfl, rfl, rfl⟩

theorem write_eq_iff (h : r.determines = true) : r.write now job = job ↔ r.WritesNothing job := by
  cases r with
  | reschedule => exact iff_of_true rfl trivial
  | transition t =>
    cases t with
    | start | disable => exact absurd h Bool.false_ne_true
    | complete | fail =>
      -- A run more is counted.
      refine iff_of_false (fun heq => ?_) (fun hnothing => hnothing)
      have hcount : job.runCount + 1 = job.runCount := congrArg Job.runCount heq
      omega
    | enable =>
      constructor
      · intro heq
        exact ⟨(congrArg Job.status heq).symm, (congrArg Job.enabled heq).symm⟩
      · intro hrecord
        show { job with status := .pending, enabled := true } = job
        rw [← hrecord.1, ← hrecord.2]
    | reset =>
      constructor
      · intro heq
        exact (congrArg Job.status heq).symm
      · intro hrecord
        show { job with status := .pending } = job
        rw [← show job.status = .pending from hrecord]

end Request

/-- The job after requests, each at its own time. A fault ends a request, but not what follows. -/
def after (job : Job) (requests : List (Request × Int)) : Job :=
  requests.foldl (fun job request => (request.1.perform request.2 job).state) job

theorem trigger_after (requests : List (Request × Int)) (job : Job) :
    (job.after requests).trigger = job.trigger := by
  induction requests generalizing job with
  | nil => rfl
  | cons request requests ih => exact (ih _).trans (request.1.trigger_perform request.2 job)

/-! ## Jobs of cron expressions -/

section

variable {schedule : Schedule} {job : Job} {now : Int} {r : Request} {e : Fault}

theorem reschedule_of_check_error (h : job.trigger.check.result = .error e) (now : Int) :
    (reschedule now job).state = job ∧ (reschedule now job).result = .error e := by
  unfold reschedule
  rw [Action.get_bind, Action.bind_error h]
  exact ⟨rfl, rfl⟩

-- The check comes first, so that nothing is searched for a flawed schedule.
theorem reschedule_of_flawed (htrigger : job.trigger = schedule.trigger) (h : schedule.isValid = false) (now : Int) :
    (reschedule now job).state = job ∧
      (reschedule now job).result = .error (.invalidSchedule schedule.expression schedule.errorText) := by
  apply reschedule_of_check_error
  rw [htrigger]
  show schedule.check = _
  rw [Schedule.check, h]
  rfl

theorem perform_of_flawed (htrigger : job.trigger = schedule.trigger) (h : schedule.isValid = false)
    (hr : r.determines = true) (now : Int) : (r.perform now job).state = r.write now job ∧
      (r.perform now job).result = .error (.invalidSchedule schedule.expression schedule.errorText) := by
  rw [r.perform_eq, if_pos hr]
  exact reschedule_of_flawed ((r.trigger_write now job).trans htrigger) h now

theorem perform_of_valid (hruns : job.trigger.Runs) (r : Request) (now : Int) :
    (r.perform now job).result = .ok () := by
  cases r with
  | reschedule => exact result_reschedule hruns now
  | transition t => exact result_perform hruns t now

theorem result_perform_eq_error_iff (htrigger : job.trigger = schedule.trigger)
    (hruns : schedule.isValid = true → job.trigger.Runs) (r : Request) (now : Int) :
    (r.perform now job).result = .error e ↔ r.determines = true ∧ schedule.isValid = false ∧
      e = .invalidSchedule schedule.expression schedule.errorText := by
  cases hvalid : schedule.isValid with
  | true =>
    rw [perform_of_valid (hruns hvalid)]
    simp
  | false =>
    by_cases hr : r.determines = true
    · rw [(perform_of_flawed htrigger hvalid hr now).2, Except.error.injEq]
      exact ⟨fun heq => ⟨hr, rfl, heq.symm⟩, fun hfault => hfault.2.2.symm⟩
    · rw [r.perform_eq, if_neg hr]
      exact ⟨fun heq => absurd heq (by simp), fun hfault => absurd hfault.1 hr⟩

end

/-- Whatever has been asked of a job before, a request is a fault exactly when its expression is flawed and the
next run has to be determined. The fault tells the expression and what is wrong with it. What the request wrote
first stays, which is nothing for the next run alone. The times of the runs, and all that the job was made of,
are as they were. -/
theorem perform_fault_iff (searchLimit : Int) {id name expression metadata : String} {created : Job}
    (h : (create (.cronWithin searchLimit) id name expression metadata).result = .ok created)
    (requests : List (Request × Int)) (r : Request) (now : Int) :
    (∀ e, (r.perform now (created.after requests)).result = .error e ↔
      r.determines = true ∧ created.trigger.isValid = false ∧
        e = .invalidSchedule expression created.trigger.errorText) ∧
    ∀ e, (r.perform now (created.after requests)).result = .error e →
      (r.perform now (created.after requests)).state = r.write now (created.after requests) ∧
      (created.after requests).SameTimes (r.perform now (created.after requests)).state ∧
      ((r.perform now (created.after requests)).state = created.after requests ↔
        r.WritesNothing (created.after requests)) := by
  rw [create_result] at h
  obtain ⟨trigger, hsource, rfl⟩ := exists_of_map_eq_ok h
  have htrigger := trigger_after requests (ofTrigger id name metadata trigger)
  generalize (ofTrigger id name metadata trigger).after requests = job at htrigger ⊢
  change job.trigger = trigger at htrigger
  have hruns := (TriggerSource.cronWithin_buildsSchedules searchLimit).dependable expression trigger hsource
  rw [cronWithin_result] at hsource
  obtain ⟨schedule, hread, rfl⟩ := exists_of_map_eq_ok hsource
  have hexpression := (Schedule.readExpression_of_ofExpressionWithin hread).2.2
  have hiff : ∀ e, (r.perform now job).result = .error e ↔ r.determines = true ∧ schedule.isValid = false ∧
      e = .invalidSchedule expression schedule.errorText := by
    intro e
    rw [← hexpression]
    exact result_perform_eq_error_iff htrigger (fun hvalid => htrigger ▸ hruns hvalid) r now
  refine ⟨hiff, fun e he => ?_⟩
  obtain ⟨hr, hflawed, -⟩ := (hiff e).mp he
  rw [(perform_of_flawed htrigger hflawed hr now).1]
  exact ⟨rfl, Request.sameTimes_write hr now job, Request.write_eq_iff hr⟩

-- A run is started and reported as completed, and reported as failed after that.
theorem perform_fault_iff_invalid :
    ∃ created, (create .cron "broken" "Broken" "invalid" "").result = .ok created ∧
      ∃ job, job = created.after [(.transition .start, 5), (.transition .complete, 60)] ∧
        ((Request.transition .fail).perform 120 job).result =
          .error (.invalidSchedule "invalid" "expected 5 fields, got 1 in 'invalid'") ∧
        ((Request.transition .fail).perform 120 job).state.runCount = 2 ∧
        ((Request.transition .fail).perform 120 job).state.nextRun = 0 ∧
        ((Request.transition .fail).perform 120 job).state.lastRun = 5 ∧
        ((Request.transition .fail).perform 120 job).state ≠ job ∧
        (Request.reschedule.perform 120 job).state = job := by
  have hcreate : ∃ created, (create .cron "broken" "Broken" "invalid" "").result = .ok created ∧
      created.trigger.isValid = false ∧ created.trigger.errorText = "expected 5 fields, got 1 in 'invalid'" ∧
      (created.after [(.transition .start, 5), (.transition .complete, 60)]).runCount = 1 ∧
      (created.after [(.transition .start, 5), (.transition .complete, 60)]).nextRun = 0 ∧
      (created.after [(.transition .start, 5), (.transition .complete, 60)]).lastRun = 5 :=
    ⟨_, rfl, rfl, rfl, rfl, rfl, rfl⟩
  obtain ⟨created, h, hflawed, herror, hcount, hnext, hlast⟩ := hcreate
  have hfail := perform_fault_iff _ h [(.transition .start, 5), (.transition .complete, 60)] (.transition .fail) 120
  have hreschedule := perform_fault_iff _ h [(.transition .start, 5), (.transition .complete, 60)] .reschedule 120
  have hfault := (hfail.1 _).mpr ⟨rfl, hflawed, rfl⟩
  obtain ⟨hwrite, htimes, hsame⟩ := hfail.2 _ hfault
  rw [herror] at hfault
  refine ⟨created, h, _, rfl, hfault, ?_, htimes.nextRun_eq.trans hnext, htimes.lastRun_eq.trans hlast,
    fun heq => hsame.mp heq, (hreschedule.2 _ ((hreschedule.1 _).mpr ⟨rfl, hflawed, rfl⟩)).2.2.mpr trivial⟩
  rw [hwrite]
  show (created.after _).runCount + 1 = 2
  rw [hcount]
  rfl

/-- A report that is a fault can still be counted. The next run of `invalid` cannot be determined, but its run
is completed all the same. -/
theorem complete_not_undone :
    ∃ created, (create .cron "broken" "Broken" "invalid" "").result = .ok created ∧
      (created.status, created.runCount) = (.pending, 0) ∧
      (Transition.complete.perform 0 created).result =
        .error (.invalidSchedule "invalid" "expected 5 fields, got 1 in 'invalid'") ∧
      ((Transition.complete.perform 0 created).state.status, (Transition.complete.perform 0 created).state.runCount) =
        (.completed, 1) :=
  ⟨_, rfl, rfl, rfl, rfl⟩

end Timetable.Job
