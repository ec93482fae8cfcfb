import Timetable.Proofs.DueRuns

/-!
# Setting the clock

Setting the clock determines anew the next run of every job that is enabled and not running. It comes after
the time that is set, so that no job is due then (`Scheduler.dueIds_setTime`).

A run that was awaited by that time is passed over, also where the clock is set to the very time of the run
(`Scheduler.not_keepsAwaited_nightly`). Advancing the clock passes over none.
-/

namespace Timetable

namespace Job

variable {job job' : Job} {time : Int}

theorem FollowsUsualSchedule.followsSchedule (h : job.FollowsUsualSchedule) : job.FollowsSchedule := by
  rcases h with ⟨schedule, ⟨hvalid, -⟩, htrigger⟩
  exact ⟨schedule, hvalid, htrigger⟩

/-- What setting the clock makes of a job. One that is enabled and not running has its next run determined by
the schedule that its expression is read as, and keeps the rest of its record; all others are kept. -/
structure SetTo (time : Int) (job job' : Job) : Prop where
  determined : job.enabled = true → job.status ≠ .running →
    job' = { job with nextRun := job'.nextRun } ∧ ∃ schedule : Schedule,
      (Schedule.ofExpression job.trigger.expression).result = .ok schedule ∧ schedule.RunsNext time job'.nextRun
  kept : ¬ (job.enabled = true ∧ job.status ≠ .running) → job' = job

theorem FollowsUsualSchedule.reschedule (h : job.FollowsUsualSchedule) (time : Int) :
    (reschedule time job).state = { job with nextRun := (reschedule time job).state.nextRun } ∧
      ∃ schedule : Schedule, (Schedule.ofExpression job.trigger.expression).result = .ok schedule ∧
        schedule.RunsNext time (reschedule time job).state.nextRun := by
  have htrigger := trigger_reschedule time job
  have hfollows : (Job.reschedule time job).state.FollowsUsualSchedule := by
    rw [FollowsUsualSchedule, htrigger]
    exact h
  constructor
  · rcases reschedule_cases time job with hstate | ⟨run, hstate⟩
    · rw [hstate]
    · rw [hstate]
  · rcases hfollows.runsNext (nextRunAfter_reschedule (h.followsSchedule.reschedule time).1) with
      ⟨schedule, hread, -, -, hrun⟩
    rw [htrigger] at hread
    exact ⟨schedule, hread, hrun⟩

theorem FollowsUsualSchedule.setTo_refresh (h : job.FollowsUsualSchedule) (time : Int) :
    job.SetTo time (Scheduler.refresh time job).state := by
  have hiff : (job.enabled && job.status != .running) = true ↔ job.enabled = true ∧ job.status ≠ .running := by
    rw [Bool.and_eq_true, bne_iff_ne]
  unfold Scheduler.refresh
  by_cases hrefresh : (job.enabled && job.status != .running) = true
  · rw [if_pos hrefresh]
    exact ⟨fun _ _ => h.reschedule time, fun hkept => absurd (hiff.mp hrefresh) hkept⟩
  · rw [if_neg hrefresh]
    exact ⟨fun henabled hstatus => absurd (hiff.mpr ⟨henabled, hstatus⟩) hrefresh, fun _ => rfl⟩

end Job

namespace Scheduler

variable {s : Scheduler}

theorem dueIds_setTime_eq_nil (h : ∀ job ∈ s.jobs.values, job.FollowsSchedule) (time : Int) :
    (setTime time s).state.dueIds = [] := by
  have hvalues : (Register.each (refresh time) s.jobs).state.values =
      s.jobs.values.map fun job => (refresh time job).state :=
    Register.values_each_of_ok fun job hjob => (refresh_of_followsSchedule (h job hjob) time).1
  rw [dueIds, dueJobs, state_setTime]
  show ((Register.each (refresh time) s.jobs).state.values.filter (·.isDue time)).map _ = []
  rw [hvalues, List.map_eq_nil_iff, List.filter_eq_nil_iff]
  intro job' hjob'
  rcases List.mem_map.mp hjob' with ⟨job, hjob, rfl⟩
  rw [(refresh_of_followsSchedule (h job hjob) time).2]
  exact Bool.false_ne_true

theorem find?_setTime (h : ∀ job ∈ s.jobs.values, job.FollowsSchedule) (time : Int) (id : String) :
    (setTime time s).state.find? id = (s.find? id).map fun job => (refresh time job).state := by
  rw [state_setTime]
  exact Register.find?_each_of_ok fun job hjob => (refresh_of_followsSchedule (h job hjob) time).1

/-- Setting the clock keeps the runs that are awaited by the time that is set. -/
def KeepsAwaited (s : Scheduler) (time : Int) : Prop :=
  ∀ job ∈ s.jobs.values, job.AwaitsBy time → job.id ∈ (setTime time s).state.dueIds

/-- After the clock is set no job is due, so that runs are kept only where none was awaited. The jobs remain
registered as they were. The next run of each one that is enabled and not running is its first run after the
time that is set, and nothing else of a record changes. Advancing the clock keeps all runs that are awaited by
the time that it comes to. -/
theorem dueIds_setTime (h : Reachable .cron s) (time : Int) :
    (setTime time s).state.dueIds = [] ∧
      (s.KeepsAwaited time ↔ ∀ job ∈ s.jobs.values, ¬ job.AwaitsBy time) ∧
      (setTime time s).state.ids = s.ids ∧
      (∀ (id : String) (job : Job), s.find? id = some job →
        ∃ job', (setTime time s).state.find? id = some job' ∧ job.SetTo time job') ∧
      ∀ (seconds : Int), ∀ job ∈ s.jobs.values, job.AwaitsBy (s.now + seconds) →
        job.id ∈ (advance seconds s).state.dueIds := by
  have husual := h.forall_jobs Job.followsUsualSchedule_invariant
  have hfollows : ∀ job ∈ s.jobs.values, job.FollowsSchedule := fun job hjob => (husual job hjob).followsSchedule
  have hdue := dueIds_setTime_eq_nil hfollows time
  refine ⟨hdue, ?_, ?_, fun id job hjob => ?_, fun seconds job hjob => mem_dueIds_advance h seconds hjob⟩
  · rw [KeepsAwaited, hdue]
    simp only [List.not_mem_nil, imp_false]
  · rw [state_setTime]
    exact Register.keys_each (refresh time) s.jobs
  · rw [find?_setTime hfollows, hjob]
    exact ⟨_, rfl, (husual job (Register.mem_values_of_find? hjob)).setTo_refresh time⟩

-- A second before midnight nothing is lost. At midnight the run of the job is passed over and that of the
-- following night comes next, but twelve hours after noon it is due.
theorem dueIds_setTime_nightly :
    Reachable .cron nightly ∧ nightly.KeepsAwaited 1703980799 ∧ ¬ nightly.KeepsAwaited 1703980800 ∧
      (setTime 1703980800 nightly).state.ids = ["backup"] ∧
      ((setTime 1703980800 nightly).state.find? "backup").map (·.nextRun) = some 1704067200 ∧
      "backup" ∈ (advance 43200 nightly).state.dueIds := by
  have hbefore : ∀ job ∈ nightly.jobs.values, ¬ job.AwaitsBy 1703980799 := by decide +kernel
  have hmidnight : ∃ job ∈ nightly.jobs.values, job.id = "backup" ∧ job.AwaitsBy 1703980800 := by decide +kernel
  have hset := dueIds_setTime nightly_reachable 1703980800
  rcases hmidnight with ⟨job, hjob, hid, hawaits⟩
  refine ⟨nightly_reachable, (dueIds_setTime nightly_reachable 1703980799).2.1.mpr hbefore, fun hkeeps => ?_,
    hset.2.2.1.trans (by decide +kernel), by decide +kernel, ?_⟩
  · exact hset.2.1.mp hkeeps job hjob hawaits
  · rw [← hid]
    exact hset.2.2.2.2 43200 job hjob hawaits

-- The clock moves forward to the time of the run, and the run is not reported as due.
theorem not_keepsAwaited_nightly :
    Reachable .cron nightly ∧ nightly.now ≤ 1703980800 ∧ ¬ nightly.KeepsAwaited 1703980800 := by
  have hawaits : ∃ job ∈ nightly.jobs.values, job.AwaitsBy 1703980800 := by decide +kernel
  have hdue : (setTime 1703980800 nightly).state.dueIds = [] := by rfl
  refine ⟨nightly_reachable, by decide +kernel, fun hkeeps => ?_⟩
  rcases hawaits with ⟨job, hjob, hawaits⟩
  have hmem := hkeeps job hjob hawaits
  rw [hdue] at hmem
  exact absurd hmem List.not_mem_nil

end Scheduler

end Timetable
