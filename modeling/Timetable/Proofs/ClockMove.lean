import Timetable.Proofs.ReachableState
import Timetable.Proofs.RunSequence

/-!
# Awaited runs and the clock

A job awaits a run by some time if it is enabled, not running, and its next run comes no later.

* Advancing the clock makes every such job due (`Scheduler.mem_dueIds_advance`).
* When the clock is set, the next run of a job that follows a schedule is determined without a fault, and
  comes after the time that is set (`Scheduler.refresh_of_followsSchedule`).
-/

namespace Timetable

namespace Job

variable {source : TriggerSource} {job : Job} {now : Int}

theorem isDue_iff : job.isDue now = true ↔
    job.enabled = true ∧ job.status ≠ .disabled ∧ job.status ≠ .running ∧ job.nextRun ≤ now := by
  rw [isDue]
  simp only [Bool.and_eq_true, bne_iff_ne, decide_eq_true_eq, and_assoc]

/-- The job awaits a run that comes by some time. -/
def AwaitsBy (job : Job) (time : Int) : Prop :=
  job.enabled = true ∧ job.status ≠ .running ∧ job.nextRun ≤ time

instance (job : Job) (time : Int) : Decidable (job.AwaitsBy time) := inferInstanceAs (Decidable (_ ∧ _))

/-- The runs of the job are those of a schedule without flaws. -/
def FollowsSchedule (job : Job) : Prop := ∃ s : Schedule, s.Valid ∧ job.trigger = s.trigger

theorem trigger_reschedule (now : Int) (job : Job) : (reschedule now job).state.trigger = job.trigger := by
  rcases reschedule_cases now job with h | ⟨run, h⟩
  · rw [h]
  · rw [h]

theorem create_result (source : TriggerSource) (id name expression metadata : String) :
    (create source id name expression metadata).result =
      (source expression).result.map (ofTrigger id name metadata) := by
  show (ofTrigger id name metadata <$> source expression).result = _
  rw [Outcome.map_eq]

theorem cronWithin_result (searchLimit : Int) (expression : String) :
    (TriggerSource.cronWithin searchLimit expression).result =
      (Schedule.ofExpressionWithin searchLimit expression).result.map Schedule.trigger := by
  show (Schedule.trigger <$> Schedule.ofExpressionWithin searchLimit expression).result = _
  rw [Outcome.map_eq]

-- No change of a job's record touches its trigger.
theorem trigger_invariant {P : Trigger → Prop}
    (h : ∀ {expression : String} {trigger : Trigger}, (source expression).result = .ok trigger →
      trigger.isValid = true → P trigger) :
    Scheduler.JobInvariant source fun job => P job.trigger where
  created := by
    intro id name expression metadata job hjob hvalid
    rw [create_result] at hjob
    rcases exists_of_map_eq_ok hjob with ⟨trigger, htrigger, rfl⟩
    exact h htrigger hvalid
  written := by
    intro t now job hP
    cases t <;> exact hP
  rescheduled := by
    intro now job hP
    rw [trigger_reschedule]
    exact hP

-- Only disabling a job gives it that status, and enabling it takes the status away.
theorem status_invariant (source : TriggerSource) :
    Scheduler.JobInvariant source fun job => job.enabled = true → job.status ≠ .disabled where
  created := by
    intro id name expression metadata job hjob _ _
    rw [create_result] at hjob
    rcases exists_of_map_eq_ok hjob with ⟨trigger, -, rfl⟩
    exact Status.noConfusion
  written := by
    intro t now job h henabled
    cases t with
    | disable => exact absurd henabled Bool.false_ne_true
    | start | complete | fail | enable | reset => exact Status.noConfusion
  rescheduled := by
    intro now job h
    rcases reschedule_cases now job with hstate | ⟨run, hstate⟩
    · rw [hstate]
      exact h
    · rw [hstate]
      exact h

-- The next run of a job that follows a schedule is determined without a fault, and lies ahead.
theorem FollowsSchedule.reschedule (h : job.FollowsSchedule) (now : Int) :
    (reschedule now job).result = .ok () ∧ now < (reschedule now job).state.nextRun := by
  rcases h with ⟨s, hs, htrigger⟩
  rcases hs.lt_nextRun now with ⟨run, events, hrun, hlt⟩
  have hcheck : job.trigger.check.result = .ok () := by
    rw [htrigger]
    exact hs.check_eq
  have hnext : (job.trigger.nextRun now).result = .ok run := by
    rw [htrigger]
    exact congrArg Outcome.result hrun
  have hstep := reschedule_of_ok hcheck hnext
  rw [hstep.1]
  exact ⟨hstep.2, hlt⟩

end Job

namespace Scheduler

variable {source : TriggerSource} {s : Scheduler} {job : Job}

theorem refresh_of_followsSchedule (h : job.FollowsSchedule) (time : Int) :
    (refresh time job).result = .ok () ∧ (refresh time job).state.isDue time = false := by
  unfold refresh
  by_cases hrefresh : (job.enabled && job.status != .running) = true
  · rw [if_pos hrefresh]
    refine ⟨(h.reschedule time).1, Bool.eq_false_iff.mpr fun hdue => ?_⟩
    have hlt := (h.reschedule time).2
    have hle := (Job.isDue_iff.mp hdue).2.2.2
    omega
  · rw [if_neg hrefresh]
    refine ⟨rfl, Bool.eq_false_iff.mpr fun hdue => hrefresh ?_⟩
    have hdue : job.enabled = true ∧ _ ∧ job.status ≠ .running ∧ _ := Job.isDue_iff.mp hdue
    rw [hdue.1, Bool.true_and, bne_iff_ne]
    exact hdue.2.2.1

theorem mem_dueIds (hjob : job ∈ s.jobs.values) (hdue : job.isDue s.now = true) : job.id ∈ s.dueIds := by
  rw [dueIds, dueJobs]
  exact List.mem_map_of_mem (List.mem_filter.mpr ⟨hjob, hdue⟩)

/-- Advancing the clock makes every job due whose run comes by then. -/
theorem mem_dueIds_advance (h : Reachable source s) (seconds : Int) (hjob : job ∈ s.jobs.values)
    (hawaits : job.AwaitsBy (s.now + seconds)) : job.id ∈ (advance seconds s).state.dueIds := by
  have hstatus := h.forall_jobs (Job.status_invariant source) job hjob hawaits.1
  exact mem_dueIds hjob (Job.isDue_iff.mpr ⟨hawaits.1, hstatus, hawaits.2⟩)

-- Noon of December 30, 2023, with a job that runs at midnight.
def nightly : Scheduler :=
  (Operation.perform (.add "backup" "Nightly backup" "0 0 * * *" "") (start .cron 1703937600)).state

theorem nightly_reachable : Reachable .cron nightly := .perform _ (.start _)

end Scheduler

end Timetable
