import Timetable.Proofs.OperationHistory

/-!
# The next due time

The earliest next run of the enabled jobs, and the time that is left until it. Both answer -1 where no job is
enabled. The next runs of schedules are full minutes, so that no time is mistaken for that answer
(`Job.OnMinute`), and no run comes before the time that is left has passed
(`Scheduler.untilNextDue_agrees`).
-/

namespace Timetable

theorem Schedule.sixty_dvd_nextRun {s : Schedule} {now t : Int} (h : (s.nextRun now).result = .ok t) :
    60 ∣ t := by
  change (Point.timestamp <$> s.nextAfter (Point.ofTimestamp now) _).result = .ok t at h
  rw [Outcome.map_eq] at h
  obtain ⟨p, -, rfl⟩ := exists_of_map_eq_ok h
  exact p.sixty_dvd_timestamp

namespace Job

variable {job : Job}

/-- The job follows a schedule, and its next run falls on a full minute, also before it is determined. -/
structure OnMinute (job : Job) : Prop where
  follows : job.FollowsSchedule
  sixty_dvd : 60 ∣ job.nextRun

theorem OnMinute.reschedule (h : job.OnMinute) (now : Int) : (reschedule now job).state.OnMinute := by
  have hnext : (Job.reschedule now job).state.NextRunAfter now :=
    nextRunAfter_reschedule (h.follows.reschedule now).1
  obtain ⟨s, hs, htrigger⟩ := h.follows
  have htrigger' : (Job.reschedule now job).state.trigger = s.trigger := by
    rw [trigger_reschedule, htrigger]
  refine ⟨⟨s, hs, htrigger'⟩, ?_⟩
  rw [NextRunAfter, htrigger'] at hnext
  exact Schedule.sixty_dvd_nextRun hnext

theorem onMinute_invariant {source : TriggerSource} (hsource : source.BuildsSchedules) :
    Scheduler.JobInvariant source OnMinute where
  created := by
    intro id name expression metadata job hjob hvalid
    refine ⟨(followsSchedule_invariant_of_builds hsource).created hjob hvalid, ?_⟩
    rw [create_result] at hjob
    obtain ⟨trigger, -, rfl⟩ := exists_of_map_eq_ok hjob
    show 60 ∣ never
    decide
  written := by
    intro t now job h
    refine ⟨h.follows.write t now, ?_⟩
    have hkept : (t.write now job).nextRun = job.nextRun := by
      cases t <;> rfl
    rw [hkept]
    exact h.sixty_dvd
  rescheduled := fun now _ h => h.reschedule now

end Job

namespace Scheduler

variable {source : TriggerSource} {s : Scheduler} {first : Job}

/-! ## The job whose run comes first -/

/-- No enabled job has an earlier next run than this one. -/
structure ComesFirst (s : Scheduler) (first : Job) : Prop where
  mem : first ∈ s.jobs.values
  enabled : first.enabled = true
  le : ∀ job ∈ s.jobs.values, job.enabled = true → first.nextRun ≤ job.nextRun

theorem nextDue_cases (s : Scheduler) :
    (s.nextDue = notFound ∧ ∀ job ∈ s.jobs.values, job.enabled = false) ∨
      ∃ first, s.ComesFirst first ∧ s.nextDue = first.nextRun := by
  unfold nextDue
  cases hmin : ((s.jobs.values.filter (·.enabled)).map (·.nextRun)).min? with
  | none =>
    left
    rw [List.min?_eq_none_iff, List.map_eq_nil_iff, List.filter_eq_nil_iff] at hmin
    exact ⟨rfl, fun job hjob => Bool.eq_false_iff.mpr (hmin job hjob)⟩
  | some t =>
    right
    rw [List.min?_eq_some_iff, List.mem_map] at hmin
    obtain ⟨⟨first, hfirst, rfl⟩, hle⟩ := hmin
    rw [List.mem_filter] at hfirst
    refine ⟨first, ⟨hfirst.1, hfirst.2, fun job hjob henabled => ?_⟩, rfl⟩
    exact hle job.nextRun (List.mem_map_of_mem (List.mem_filter.mpr ⟨hjob, henabled⟩))

-- The answer for no enabled job is not a full minute.
theorem Reachable.nextRun_ne_notFound (hsource : source.BuildsSchedules) (h : Reachable source s)
    (hfirst : s.ComesFirst first) : first.nextRun ≠ notFound := by
  have hdvd := (h.forall_jobs (Job.onMinute_invariant hsource) first hfirst.mem).sixty_dvd
  unfold notFound
  omega

theorem Reachable.untilNextDue_cases (hsource : source.BuildsSchedules) (h : Reachable source s) :
    (s.nextDue = notFound ∧ s.untilNextDue = notFound ∧ ∀ job ∈ s.jobs.values, job.enabled = false) ∨
      ∃ first, s.ComesFirst first ∧ s.nextDue = first.nextRun ∧ s.nextDue ≠ notFound ∧
        s.untilNextDue = max 0 (first.nextRun - s.now) := by
  rcases s.nextDue_cases with ⟨hnone, hdisabled⟩ | ⟨first, hfirst, hdue⟩
  · exact .inl ⟨hnone, if_pos hnone, hdisabled⟩
  · have hne : s.nextDue ≠ notFound := by
      rw [hdue]
      exact h.nextRun_ne_notFound hsource hfirst
    refine .inr ⟨first, hfirst, hdue, hne, ?_⟩
    rw [untilNextDue, if_neg hne, hdue]

/-! ## What is due -/

theorem dueIds_eq_nil_iff : s.dueIds = [] ↔ ∀ job ∈ s.jobs.values, job.isDue s.now = false := by
  rw [dueIds, List.map_eq_nil_iff, dueJobs, List.filter_eq_nil_iff]
  simp only [Bool.not_eq_true]

-- A due job is enabled, so the run that comes first has come as well.
theorem ComesFirst.le_now (h : s.ComesFirst first) (hdue : s.dueIds ≠ []) : first.nextRun ≤ s.now := by
  by_contra hlater
  apply hdue
  rw [dueIds_eq_nil_iff]
  intro job hjob
  rw [Bool.eq_false_iff]
  intro hisDue
  have hdue := Job.isDue_iff.mp hisDue
  have hle : first.nextRun ≤ job.nextRun := h.le job hjob hdue.1
  omega

theorem ComesFirst.dueIds_advance (h : s.ComesFirst first) {seconds : Int}
    (hbefore : s.now + seconds < first.nextRun) : (advance seconds s).state.dueIds = [] := by
  have hadvanced : (advance seconds s).state.ComesFirst first := ⟨h.mem, h.enabled, h.le⟩
  by_contra hdue
  have hle : first.nextRun ≤ s.now + seconds := hadvanced.le_now hdue
  omega

theorem ComesFirst.dueIds_advance_ne_nil (hs : Reachable source s) (h : s.ComesFirst first) {seconds : Int}
    (hrunning : first.status ≠ .running) (hcome : first.nextRun ≤ s.now + seconds) :
    (advance seconds s).state.dueIds ≠ [] :=
  List.ne_nil_of_mem (mem_dueIds_advance hs seconds h.mem ⟨h.enabled, hrunning, hcome⟩)

/-- The earliest next run and the time until it say of every state that can be reached what is due in it
and later. Both answer -1 exactly if no job is enabled, whatever the clock shows, and otherwise the time is
not negative. It is 0 if a job is due. If no enabled job is running, then no job is due before the time has
passed, and one is when it has. -/
theorem untilNextDue_agrees (hsource : source.BuildsSchedules) (h : Reachable source s) :
    (s.untilNextDue = notFound ↔ ∀ job ∈ s.jobs.values, job.enabled = false) ∧
      (s.nextDue = notFound ↔ ∀ job ∈ s.jobs.values, job.enabled = false) ∧
      (s.untilNextDue ≠ notFound → 0 ≤ s.untilNextDue) ∧
      (s.dueIds ≠ [] → s.untilNextDue = 0) ∧
      ((∀ job ∈ s.jobs.values, job.enabled = true → job.status ≠ .running) → s.untilNextDue ≠ notFound →
        (∀ seconds, 0 ≤ seconds → seconds < s.untilNextDue → (advance seconds s).state.dueIds = []) ∧
          (advance s.untilNextDue s).state.dueIds ≠ []) := by
  rcases h.untilNextDue_cases hsource with ⟨hnext, huntil, hdisabled⟩ | ⟨first, hfirst, hnext, hne, huntil⟩
  · have hnotDue : s.dueIds = [] := by
      rw [dueIds_eq_nil_iff]
      intro job hjob
      rw [Job.isDue, hdisabled job hjob]
      rfl
    refine ⟨⟨fun _ => hdisabled, fun _ => huntil⟩, ⟨fun _ => hdisabled, fun _ => hnext⟩, ?_, ?_, ?_⟩
    · exact fun hfound => absurd huntil hfound
    · exact fun hdue => absurd hnotDue hdue
    · exact fun _ hfound => absurd huntil hfound
  · have hnonneg : 0 ≤ s.untilNextDue := by omega
    have hfound : s.untilNextDue ≠ notFound := by
      unfold notFound
      omega
    have hsome : ¬ ∀ job ∈ s.jobs.values, job.enabled = false := by
      intro hdisabled
      exact absurd (hdisabled first hfirst.mem) (by simp [hfirst.enabled])
    refine ⟨iff_of_false hfound hsome, iff_of_false hne hsome, fun _ => hnonneg, fun hdue => ?_,
      fun hidle _ => ⟨fun seconds hlo hhi => ?_, ?_⟩⟩
    · have hle := hfirst.le_now hdue
      omega
    · apply hfirst.dueIds_advance
      omega
    · exact hfirst.dueIds_advance_ne_nil h (hidle first hfirst.mem hfirst.enabled) (by omega)

-- Half an hour before 1970. A job runs every hour, and a disabled one would run every minute.
def hourly : Scheduler :=
  (start .cron (-1800)).run
    [.add "backup" "Hourly backup" "0 * * * *" "", .add "probe" "Probe" "* * * * *" "",
      .transition "probe" .disable]

theorem untilNextDue_agrees_hourly :
    TriggerSource.cron.BuildsSchedules ∧ Reachable .cron hourly ∧ hourly.untilNextDue = 1800 ∧
      (∀ seconds, 0 ≤ seconds → seconds < 1800 → (advance seconds hourly).state.dueIds = []) ∧
      (advance 1800 hourly).state.dueIds ≠ [] := by
  have hsource : TriggerSource.cron.BuildsSchedules :=
    TriggerSource.cronWithin_buildsSchedules Schedule.defaultSearchLimit
  have hreachable : Reachable .cron hourly := (Reachable.start (-1800)).run _
  have hidle : ∀ job ∈ hourly.jobs.values, job.enabled = true → job.status ≠ .running := by decide +kernel
  have huntil : hourly.untilNextDue = 1800 := by decide +kernel
  have hagrees := (untilNextDue_agrees hsource hreachable).2.2.2.2 hidle
  rw [huntil] at hagrees
  exact ⟨hsource, hreachable, huntil, hagrees (by decide)⟩

end Scheduler

end Timetable
