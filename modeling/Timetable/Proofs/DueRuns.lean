import Timetable.Proofs.OperationHistory

/-!
# Due runs over whole histories

A job is due exactly when a minute of its schedule has come since its next run was determined
(`Scheduler.mem_dueIds_iff_awaited`). Of a schedule that admits no minute, the beginning of the year
that follows takes the place of such minutes.
-/

namespace Timetable

namespace Schedule

variable {s : Schedule} {now time t : Int}

/-- The next run of a schedule that admits no minute is the beginning of the year that follows. -/
theorem Valid.nextRun_of_not_admits (h : s.Valid) (hno : ¬ ∃ t, s.admitsTimestamp t = true) (now : Int) :
    (s.nextRun now).result =
      .ok (CivilTime.newYear ((CivilTime.ofTimestamp now).date.year + 1)).timestamp := by
  rcases FieldSets.search_spec h.wellFormed s.searchLimit.toNat (s.sets.minuteAfter (Point.ofTimestamp now)) with
    ⟨found, hfound, hspec⟩
  rw [h.nextRun_of_search hfound]
  cases found with
  | none => rfl
  | some p =>
    have hruns := h.runsAt_iff.mpr (hspec p rfl).1
    exact absurd ⟨p.timestamp, admitsTimestamp_timestamp hruns⟩ hno

/-- A time is the first second of the first minute after another that the schedule admits. If the schedule
admits none, it is the beginning of the year that follows. -/
structure RunsNext (s : Schedule) (time run : Int) : Prop where
  isLeast : (∃ t, s.admitsTimestamp t = true) → IsLeast (s.runTimes time) run
  newYear : (¬ ∃ t, s.admitsTimestamp t = true) →
    run = (CivilTime.newYear ((CivilTime.ofTimestamp time).date.year + 1)).timestamp

theorem le_iff_of_isLeast (h : IsLeast (s.runTimes time) t) :
    t ≤ now ↔ ∃ m, 60 ∣ m ∧ time < m ∧ m ≤ now ∧ s.admitsTimestamp m = true := by
  constructor
  · intro hle
    exact ⟨t, h.1.2.1, h.1.1, hle, h.1.2.2⟩
  · rintro ⟨m, hdvd, hlt, hle, hadmits⟩
    exact (h.2 ⟨hlt, hdvd, hadmits⟩).trans hle

end Schedule

/-- The runs of the job are those of a schedule without flaws that was made with the usual bound. -/
def Job.FollowsUsualSchedule (job : Job) : Prop :=
  ∃ s : Schedule, (s.Valid ∧ s.searchLimit = Schedule.defaultSearchLimit) ∧ job.trigger = s.trigger

theorem Job.followsUsualSchedule_invariant : Scheduler.JobInvariant .cron FollowsUsualSchedule := by
  apply trigger_invariant (P := fun trigger => ∃ s : Schedule,
    (s.Valid ∧ s.searchLimit = Schedule.defaultSearchLimit) ∧ trigger = s.trigger)
  intro expression trigger htrigger hvalid
  rw [TriggerSource.cron, cronWithin_result] at htrigger
  rcases exists_of_map_eq_ok htrigger with ⟨s, hread, rfl⟩
  have hlimit := (Schedule.readExpression_of_ofExpressionWithin hread).2.1
  exact ⟨s, ⟨Schedule.valid_of_ofExpressionWithin hread hvalid, hlimit⟩, rfl⟩

-- The schedule is the one that the expression of the job is read as.
theorem Job.FollowsUsualSchedule.runsNext {job : Job} {time : Int} (h : job.FollowsUsualSchedule)
    (hnext : job.NextRunAfter time) :
    ∃ schedule : Schedule, (Schedule.ofExpression job.trigger.expression).result = .ok schedule ∧
      job.trigger = schedule.trigger ∧ time < job.nextRun ∧ schedule.RunsNext time job.nextRun := by
  rcases h with ⟨schedule, ⟨hvalid, hlimit⟩, htrigger⟩
  have hread := hvalid.read
  rw [hlimit] at hread
  rw [NextRunAfter, htrigger] at hnext
  refine ⟨schedule, ?_, htrigger, ?_, fun hadmits => ?_, fun hno => ?_⟩
  · rw [htrigger]
    exact hread
  · rcases hvalid.lt_nextRun time with ⟨t, events, ht, hlt⟩
    rw [← Except.ok.inj ((congrArg Outcome.result ht).symm.trans hnext)]
    exact hlt
  · rcases hvalid.nextRun_default hlimit hadmits time with ⟨t, ht, hleast⟩
    rw [← Except.ok.inj ((congrArg Outcome.result ht).symm.trans hnext)]
    exact hleast
  · exact Except.ok.inj (hnext.symm.trans (hvalid.nextRun_of_not_admits hno time))

namespace Scheduler

variable {source : TriggerSource} {s : Scheduler} {id : String} {job : Job}

/-- A registered job is due when it is enabled and not running, and its next run has come. -/
theorem Reachable.mem_dueIds_iff (h : Reachable source s) (hjob : s.find? id = some job) :
    id ∈ s.dueIds ↔ job.enabled = true ∧ job.status ≠ .running ∧ job.nextRun ≤ s.now := by
  have hstatus := h.forall_jobs (Job.status_invariant source) job (Register.mem_values_of_find? hjob)
  rw [h.consistent.mem_dueIds_iff, hjob]
  constructor
  · rintro ⟨found, hfound, hdue⟩
    obtain rfl := Option.some.inj hfound
    have hdue := Job.isDue_iff.mp hdue
    exact ⟨hdue.1, hdue.2.2⟩
  · intro hawaits
    exact ⟨job, rfl, Job.isDue_iff.mpr ⟨hawaits.1, hstatus hawaits.1, hawaits.2⟩⟩

/-- After any history a job is due exactly when it is enabled and not running, and a minute that its
schedule admits has come after the time at which its next run was determined. If the schedule admits
none, the beginning of the year after that time counts instead. -/
theorem mem_dueIds_iff_awaited (now : Int) (ops : List Operation)
    (hrun : (start .cron now).run ops = s) (hjob : s.find? id = some job) :
    ∃ (time : Int) (schedule : Schedule), determinedAt id (start .cron now) ops = some time ∧
      (Schedule.ofExpression job.trigger.expression).result = .ok schedule ∧
      job.trigger = schedule.trigger ∧
      ((∃ t, schedule.admitsTimestamp t = true) →
        (id ∈ s.dueIds ↔ job.enabled = true ∧ job.status ≠ .running ∧
          ∃ m, 60 ∣ m ∧ time < m ∧ m ≤ s.now ∧ schedule.admitsTimestamp m = true)) ∧
      ((¬ ∃ t, schedule.admitsTimestamp t = true) →
        (id ∈ s.dueIds ↔ job.enabled = true ∧ job.status ≠ .running ∧
          ∃ m, m = (CivilTime.newYear ((CivilTime.ofTimestamp time).date.year + 1)).timestamp ∧
            time < m ∧ m ≤ s.now)) := by
  subst hrun
  have hreachable : Reachable .cron ((start .cron now).run ops) := (Reachable.start now).run ops
  have hbuilds := TriggerSource.cronWithin_buildsSchedules Schedule.defaultSearchLimit
  rcases nextRunAfter_determinedAt hbuilds now ops hjob with ⟨time, htime, hnext⟩
  have hfollows := hreachable.forall_jobs Job.followsUsualSchedule_invariant job (Register.mem_values_of_find? hjob)
  rcases hfollows.runsNext hnext with ⟨schedule, hread, htrigger, hlt, hrun⟩
  refine ⟨time, schedule, htime, hread, htrigger, fun hadmits => ?_, fun hno => ?_⟩
  · rw [hreachable.mem_dueIds_iff hjob, Schedule.le_iff_of_isLeast (hrun.isLeast hadmits)]
  · rw [hreachable.mem_dueIds_iff hjob, ← hrun.newYear hno, exists_eq_left]
    simp only [hlt, true_and]

-- A nightly job is added at noon. The clock is set back by a day, which determines the next run anew, and
-- moved on to the night that follows.
def backupDay : List Operation :=
  [.add "backup" "Nightly backup" "0 0 * * *" "", .setTime 1703851200, .advance 43200]

theorem mem_dueIds_iff_awaited_backup :
    ∃ (job : Job) (schedule : Schedule),
      ((start .cron 1703937600).run backupDay).find? "backup" = some job ∧
        determinedAt "backup" (start .cron 1703937600) backupDay = some 1703851200 ∧
        job.trigger = schedule.trigger ∧ (∃ t, schedule.admitsTimestamp t = true) ∧
        ∃ m, 60 ∣ m ∧ 1703851200 < m ∧ m ≤ 1703894400 ∧ schedule.admitsTimestamp m = true := by
  have hfound : ((start .cron 1703937600).run backupDay).has "backup" = true := by decide +kernel
  rw [has_eq, Option.isSome_iff_exists] at hfound
  rcases hfound with ⟨job, hjob⟩
  have hdue : "backup" ∈ ((start .cron 1703937600).run backupDay).dueIds := by decide +kernel
  have htime : determinedAt "backup" (start .cron 1703937600) backupDay = some 1703851200 := by
    decide +kernel
  rcases mem_dueIds_iff_awaited 1703937600 backupDay rfl hjob with
    ⟨time, schedule, htime', hread, htrigger, hawaited, -⟩
  obtain rfl := Option.some.inj (htime'.symm.trans htime)
  have hadmits : ∃ t, schedule.admitsTimestamp t = true := by
    have hexpression : (((start .cron 1703937600).run backupDay).find? "backup").map (·.trigger.expression) =
        some "0 0 * * *" := by rfl
    have hepoch : (Schedule.ofExpression "0 0 * * *").result.map (·.admitsTimestamp 0) = .ok true := by rfl
    rw [hjob] at hexpression
    rw [← Option.some.inj hexpression, hread] at hepoch
    exact ⟨0, Except.ok.inj hepoch⟩
  exact ⟨job, schedule, hjob, htime, htrigger, hadmits, ((hawaited hadmits).mp hdue).2.2⟩

end Scheduler

end Timetable
