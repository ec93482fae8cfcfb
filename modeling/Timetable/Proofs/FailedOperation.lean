import Timetable.Proofs.OperationAnswer
import Timetable.Proofs.TimestampText

/-!
# Operations that fail

An operation that answers that it did nothing, or that ends in a fault, leaves the scheduler as it was
(`Scheduler.state_eq_of_failed`). This rests on every registered job following a schedule without flaws, so
that nothing that happens after the first change of the state can end in a fault.

A message is written last, when the job that it is about has already been registered or changed. So the
times that an operation shows must be of years that can be written (`Scheduler.Operation.TimesFit`): the time of
the clock, and the first run of a job that is added. That run is at most 400 years away
(`Scheduler.Reachable.timesFit`). In the last year that can be written, a job may be registered by an operation
that ends in a fault (`Scheduler.not_state_eq_of_failed_lastYear`).
-/

namespace Timetable

/-! ## The year of the next run -/

-- The calendar repeats itself after 400 years, so that a search that succeeds need not look further.
theorem Schedule.Valid.year_nextRun {schedule : Schedule} (h : schedule.Valid) {now run : Int}
    (hrun : (schedule.nextRun now).result = .ok run) :
    (CivilTime.ofTimestamp now).date.year ≤ (CivilTime.ofTimestamp run).date.year ∧
      (CivilTime.ofTimestamp run).date.year ≤ (CivilTime.ofTimestamp now).date.year + 400 := by
  have hs := h.wellFormed
  show (Point.ofTimestamp now).date.year ≤ (Point.ofTimestamp run).date.year ∧
    (Point.ofTimestamp run).date.year ≤ (Point.ofTimestamp now).date.year + 400
  cases FieldSets.search_spec hs schedule.searchLimit.toNat
      (schedule.sets.minuteAfter (Point.ofTimestamp now)) with
  | intro found hfound =>
    rw [h.nextRun_of_search hfound.1] at hrun
    rw [← Except.ok.inj hrun]
    cases found with
    | none =>
      -- The search answers with the beginning of the year that follows.
      rw [Option.getD_none, Point.ofTimestamp_timestamp (Schedule.isReal_fallback _)]
      show _ ≤ (Point.ofTimestamp now).date.year + 1 ∧ (Point.ofTimestamp now).date.year + 1 ≤ _
      omega
    | some p =>
      have hp : schedule.sets.Admits p ∧ schedule.sets.Skips _ p := hfound.2 p rfl
      rw [Option.getD_some, Point.ofTimestamp_timestamp hp.1.isReal]
      have hleast := FieldSets.isLeast_of_skips hs hp.1 hp.2
      have hyear : (Point.ofTimestamp now).date.year ≤ p.date.year := Point.year_le hleast.1.1.le
      cases FieldSets.exists_admits_after hp.1 (Point.ofTimestamp now).date.year with
      | intro r hr =>
        have hafter : Point.ofTimestamp now < r := Point.lt_of_date_lt (Date.lt_iff.mpr (.inl hr.2.1))
        have hbound : p.date.year ≤ r.date.year := Point.year_le (hleast.2 ⟨hafter, hr.1⟩)
        omega

/-- A schedule without flaws has its next run in a year that can be written, as long as the clock is not
within 400 years of the last one. -/
theorem Job.FollowsSchedule.yearFits {job : Job} {now : Int} (h : job.FollowsSchedule)
    (hrun : job.NextRunAfter now) (hclock : YearFits now)
    (hlater : Text.fitsDecimal ((CivilTime.ofTimestamp now).date.year + 400) = true) : YearFits job.nextRun := by
  cases h with
  | intro schedule hschedule =>
    rw [Job.NextRunAfter, hschedule.2] at hrun
    have hyear := hschedule.1.year_nextRun hrun
    exact Text.fitsDecimal_of_between hclock hlater hyear.1 hyear.2

namespace Scheduler

variable {source : TriggerSource} {s : Scheduler} {id : String} {job : Job} {op : Operation}

/-- The answer is that nothing was done, or there is none. -/
def Failed (answer : Except Fault (Option Bool)) : Prop :=
  answer = .ok (some false) ∨ ∃ e, answer = .error e

theorem not_failed_ok {done : Option Bool} (h : done ≠ some false) : ¬ Failed (.ok done) := by
  intro hfailed
  cases hfailed with
  | inl hfalse => exact h (Except.ok.inj hfalse)
  | inr hfault =>
    cases hfault with
    | intro e he => exact absurd he (by simp)

/-- The times that the messages of an operation show are of years that can be written: the time of the
clock after it, and the first run of a job that it registers. -/
structure Operation.TimesFit (s : Scheduler) (op : Operation) : Prop where
  clock : YearFits (op.clock s.now)
  firstRun : ∀ {id : String} {job : Job}, s.find? id = none →
    (op.perform s).state.find? id = some job → YearFits job.nextRun

theorem Reachable.timesFit (hsource : source.BuildsSchedules) (h : Reachable source s)
    (hclock : YearFits (op.clock s.now))
    (hlater : ∀ id name expression metadata, op = .add id name expression metadata →
      Text.fitsDecimal ((CivilTime.ofTimestamp s.now).date.year + 400) = true) : op.TimesFit s := by
  have hinvariant := Job.followsSchedule_invariant_of_builds hsource
  refine ⟨hclock, fun {id job} hnone hjob => ?_⟩
  cases op with
  | add id' name expression metadata =>
    cases find?_perform_cases (h.forall_jobs hinvariant) _ hjob with
    | inl hnew =>
      have hfollows := followsSchedule_of_find? ((h.perform _).forall_jobs hinvariant) hjob
      have hrun := hnew.2
      rw [now_perform] at hrun
      exact hfollows.yearFits hrun hclock (hlater id' name expression metadata rfl)
    | inr hold =>
      cases hold.2 with
      | intro old hfound =>
        rw [hnone] at hfound
        exact absurd hfound.1 (by simp)
  | remove | clear | setTime | advance | transition | takeReport =>
    -- Nothing else makes a job found that was not.
    rw [find?_perform _ (h.refresh_ok hsource.dependable), hnone] at hjob
    exact absurd hjob (by simp [Operation.effect])

/-! ## Adding -/

theorem state_perform_add (id name expression metadata : String) (hid : s.find? id = none) :
    ((Operation.add id name expression metadata).perform s).state =
      (newJob? s.source s.now id name expression metadata).elim s fun job =>
        { s with jobs := s.jobs.add id job } := by
  rw [Operation.perform, Action.state_map, state_add, has_eq, hid]
  cases newJob? s.source s.now id name expression metadata with
  | none => rfl
  | some job => rfl

theorem perform_add_of_has (name expression metadata : String) (hid : s.has id = true) :
    ((Operation.add id name expression metadata).perform s).state = s ∧
      ((Operation.add id name expression metadata).perform s).result = .ok (some false) := by
  rw [Operation.perform, Action.state_map, Action.result_map, state_add, result_add, if_pos hid, if_pos hid]
  exact ⟨rfl, rfl⟩

-- Adding is refused, ends in a fault of the source, or registers the job.
theorem perform_add_cases (hsource : source.Dependable) (h : Reachable source s)
    (id name expression metadata : String) (hop : op = .add id name expression metadata)
    (hfits : op.TimesFit s) :
    ((op.perform s).state = s ∧ (op.perform s).result = .ok (some false) ∧
      (s.has id = true ∨ ∃ trigger, (source expression).result = .ok trigger ∧ trigger.isValid = false)) ∨
    ((op.perform s).state = s ∧ s.has id = false ∧
      ∃ e, (source expression).result = .error e ∧ (op.perform s).result = .error e) ∨
    ((op.perform s).result = .ok (some true) ∧ s.has id = false ∧
      ∃ trigger, (source expression).result = .ok trigger ∧ trigger.isValid = true) := by
  subst hop
  by_cases hid : s.has id = true
  · have hrefused := perform_add_of_has name expression metadata hid
    exact .inl ⟨hrefused.1, hrefused.2, .inl hid⟩
  have hfree : s.has id = false := Bool.eq_false_iff.mpr hid
  have hnone : s.find? id = none := by rwa [has_eq, Option.isSome_eq_false_iff, Option.isNone_iff_eq_none] at hfree
  have hstate := state_perform_add id name expression metadata hnone
  have hresult : ((Operation.add id name expression metadata).perform s).result =
      (addAnswer s.source s.now id name expression metadata).map some := by
    rw [Operation.perform, Action.result_map, result_add, if_neg hid]
  rw [h.source_eq] at hstate hresult
  rcases addAnswer_cases hsource s.now id name expression metadata with
    ⟨e, hsrc, hjob, hanswer⟩ | ⟨trigger, hsrc, hvalid, hjob, hanswer⟩ | ⟨trigger, job, hsrc, hvalid, hjob, hanswer⟩
  · rw [hjob, Option.elim_none] at hstate
    rw [hanswer] at hresult
    exact .inr (.inl ⟨hstate, hfree, e, hsrc, hresult⟩)
  · rw [hjob, Option.elim_none] at hstate
    rw [hanswer] at hresult
    exact .inl ⟨hstate, hresult, .inr ⟨trigger, hsrc, hvalid⟩⟩
  · -- The job is registered by now, and writing the message is all that is left.
    rw [hjob, Option.elim_some] at hstate
    have hfound : ((Operation.add id name expression metadata).perform s).state.find? id = some job := by
      rw [hstate]
      show (s.jobs.add id job).find? id = some job
      rw [Register.find?_add, if_pos rfl]
      show (s.find? id).or (some job) = some job
      rw [hnone, Option.none_or]
    rw [hanswer, map_timestampText (hfits.firstRun hnone hfound)] at hresult
    exact .inr (.inr ⟨hresult, hfree, trigger, hsrc, hvalid⟩)

/-! ## Transitions, and setting the clock -/

theorem Operation.clock_of_transition? {t : Job.Transition} (hop : op.transition? = some (id, t)) (now : Int) :
    op.clock now = now := by
  cases op with
  | transition | takeReport => rfl
  | add | remove | clear | setTime | advance => exact absurd hop (by simp [transition?])

theorem perform_transition_cases (hsource : source.Dependable) (h : Reachable source s)
    (hfits : op.TimesFit s) {t : Job.Transition} (hop : op.transition? = some (id, t)) :
    (s.find? id = none ∧ (op.perform s).state = s ∧ (op.perform s).result = .ok (some false)) ∨
      ((op.perform s).result = .ok (some true) ∧ s.has id = true) := by
  have hclock : YearFits s.now := Operation.clock_of_transition? hop s.now ▸ hfits.clock
  rw [result_of_transition? hop, state_of_transition? hop, state_transition, has_eq]
  cases hid : s.find? id with
  | none => exact .inl ⟨rfl, rfl, rfl⟩
  | some job =>
    right
    rw [Option.elim_some, transitionAnswer, h.perform_ok hsource hid, map_timestampText hclock]
    exact ⟨rfl, rfl⟩

theorem result_perform_setTime (hsource : source.Dependable) (h : Reachable source s) {time : Int}
    (hclock : YearFits time) : ((Operation.setTime time).perform s).result = .ok none := by
  rw [Operation.perform, Action.result_map, result_setTime,
    Register.result_each_of_ok (h.refresh_ok hsource time), map_timestampText hclock]
  rfl

/-! ## Every operation -/

-- An operation fails, and leaves everything as it was, or does what it was asked for.
theorem perform_cases (hsource : source.Dependable) (h : Reachable source s) (hfits : op.TimesFit s) :
    ((op.perform s).state = s ∧ (op.perform s).result = .ok (some false)) ∨
    ((op.perform s).state = s ∧ ∃ id name expression metadata e, op = .add id name expression metadata ∧
      s.has id = false ∧ (source expression).result = .error e ∧ (op.perform s).result = .error e) ∨
    ∃ done, done ≠ some false ∧ (op.perform s).result = .ok done := by
  cases op with
  | add id name expression metadata =>
    rcases perform_add_cases hsource h id name expression metadata rfl hfits with hrefused | hfault | hadded
    · exact .inl ⟨hrefused.1, hrefused.2.1⟩
    · cases hfault.2.2 with
      | intro e he =>
        exact .inr (.inl ⟨hfault.1, id, name, expression, metadata, e, rfl, hfault.2.1, he.1, he.2⟩)
    · exact .inr (.inr ⟨some true, by decide, hadded.1⟩)
  | remove id =>
    rw [Operation.perform, Action.state_map, Action.result_map, state_remove, result_remove]
    by_cases hid : s.has id = true
    · rw [hid]
      exact .inr (.inr ⟨some true, by decide, rfl⟩)
    · rw [if_neg hid, Bool.eq_false_iff.mpr hid]
      exact .inl ⟨rfl, rfl⟩
  | transition id t =>
    cases perform_transition_cases hsource h hfits rfl with
    | inl hrefused => exact .inl hrefused.2
    | inr hdone => exact .inr (.inr ⟨some true, by decide, hdone.1⟩)
  | takeReport r =>
    cases perform_transition_cases hsource h hfits rfl with
    | inl hrefused => exact .inl hrefused.2
    | inr hdone => exact .inr (.inr ⟨some true, by decide, hdone.1⟩)
  | setTime time => exact .inr (.inr ⟨none, by decide, result_perform_setTime hsource h hfits.clock⟩)
  | clear | advance seconds => exact .inr (.inr ⟨none, by decide, rfl⟩)

theorem add_succeeds_iff (hsource : source.Dependable) (h : Reachable source s)
    {name expression metadata : String} (hfits : (Operation.add id name expression metadata).TimesFit s) :
    ((Operation.add id name expression metadata).perform s).result = .ok (some true) ↔
      s.has id = false ∧ ∃ trigger, (source expression).result = .ok trigger ∧ trigger.isValid = true := by
  rcases perform_add_cases hsource h id name expression metadata rfl hfits with hrefused | hfault | hadded
  · rw [hrefused.2.1]
    refine ⟨fun heq => absurd heq (by simp), fun hfree => ?_⟩
    cases hrefused.2.2 with
    | inl htaken => exact absurd (htaken.symm.trans hfree.1) (by decide)
    | inr hflawed =>
      obtain ⟨trigger, htrigger, hflawed⟩ := hflawed
      obtain ⟨-, trigger', htrigger', hvalid⟩ := hfree
      obtain rfl := Except.ok.inj (htrigger.symm.trans htrigger')
      exact absurd (hflawed.symm.trans hvalid) (by decide)
  · obtain ⟨-, -, e, hfault, hresult⟩ := hfault
    rw [hresult, hfault]
    simp
  · rw [hadded.1]
    exact ⟨fun _ => hadded.2, fun _ => rfl⟩

-- No job ends the refreshing, so that each one behind it has its turn.
theorem state_perform_setTime (hsource : source.Dependable) (h : Reachable source s) (time : Int) :
    ((Operation.setTime time).perform s).state =
      { s with
        now := time
        jobs := ⟨s.jobs.entries.map fun entry => (entry.1, (refresh time entry.2).state)⟩ } := by
  rw [Operation.perform, Action.state_map, state_setTime,
    ← Register.entries_each_of_ok (h.refresh_ok hsource time)]

/-- Where triggers are schedules, an operation that fails changes nothing. A fault comes only from reading
the expression of a job to add, whose identifier is free, and adding succeeds exactly where the identifier
is free and the expression without flaws. As every registered job follows a schedule without flaws, a
transition of one succeeds, and setting the clock reaches every job. The year of the clock can be written,
and where a job is added so can the year that comes 400 years later. -/
theorem state_eq_of_failed (hsource : source.BuildsSchedules) (h : Reachable source s) (op : Operation)
    (hclock : YearFits (op.clock s.now))
    (hlater : ∀ id name expression metadata, op = .add id name expression metadata →
      Text.fitsDecimal ((CivilTime.ofTimestamp s.now).date.year + 400) = true) :
    (Failed (op.perform s).result → (op.perform s).state = s) ∧
      (∀ e, (op.perform s).result = .error e → ∃ id name expression metadata,
        op = .add id name expression metadata ∧ s.has id = false ∧ (source expression).result = .error e) ∧
      (∀ id name expression metadata, op = .add id name expression metadata →
        ((op.perform s).result = .ok (some true) ↔ s.has id = false ∧
          ∃ trigger, (source expression).result = .ok trigger ∧ trigger.isValid = true)) ∧
      (∀ job ∈ s.jobs.values, job.FollowsSchedule) ∧
      (∀ id t, op.transition? = some (id, t) → s.has id = true → (op.perform s).result = .ok (some true)) ∧
      ∀ time, op = .setTime time → (op.perform s).result = .ok none ∧
        (op.perform s).state = { s with
          now := time
          jobs := ⟨s.jobs.entries.map fun entry => (entry.1, (refresh time entry.2).state)⟩ } := by
  have hdependable : source.Dependable := hsource.dependable
  have hfits : op.TimesFit s := h.timesFit hsource hclock hlater
  refine ⟨?_, ?_, ?_, h.forall_jobs (Job.followsSchedule_invariant_of_builds hsource), ?_, ?_⟩
  · intro hfailed
    rcases perform_cases hdependable h hfits with hrefused | hfault | hdone
    · exact hrefused.1
    · exact hfault.1
    · obtain ⟨done, hdone, hresult⟩ := hdone
      rw [hresult] at hfailed
      exact absurd hfailed (not_failed_ok hdone)
  · intro e he
    rcases perform_cases hdependable h hfits with hrefused | hfault | hdone
    · exact absurd (hrefused.2.symm.trans he) (by simp)
    · obtain ⟨-, id, name, expression, metadata, e', hop, hfree, hsrc, hresult⟩ := hfault
      rw [Except.error.inj (he.symm.trans hresult)]
      exact ⟨id, name, expression, metadata, hop, hfree, hsrc⟩
    · obtain ⟨done, -, hresult⟩ := hdone
      exact absurd (hresult.symm.trans he) (by simp)
  · intro id name expression metadata hop
    subst hop
    exact add_succeeds_iff hdependable h hfits
  · intro id t hop hhas
    cases perform_transition_cases hdependable h hfits hop with
    | inl hrefused => exact absurd hhas (by rw [has_eq, hrefused.1]; decide)
    | inr hdone => exact hdone.1
  · intro time hop
    subst hop
    exact ⟨result_perform_setTime hdependable h hfits.clock, state_perform_setTime hdependable h time⟩

-- The identifier of the nightly job is taken.
theorem state_eq_of_failed_nightly :
    let op := Operation.add "backup" "Second backup" "*/5 * * * *" ""
    Reachable .cron nightly ∧ YearFits (op.clock nightly.now) ∧
      Text.fitsDecimal ((CivilTime.ofTimestamp nightly.now).date.year + 400) = true ∧
      Failed (op.perform nightly).result ∧ (op.perform nightly).state = nightly := by
  intro op
  have hsource := TriggerSource.cronWithin_buildsSchedules Schedule.defaultSearchLimit
  have hclock : YearFits (op.clock nightly.now) := by decide +kernel
  have hlater : Text.fitsDecimal ((CivilTime.ofTimestamp nightly.now).date.year + 400) = true := by
    decide +kernel
  have hfailed : Failed (op.perform nightly).result := .inl (by decide +kernel)
  exact ⟨nightly_reachable, hclock, hlater, hfailed,
    (state_eq_of_failed hsource nightly_reachable op hclock fun _ _ _ _ _ => hlater).1 hfailed⟩

-- The first second of the last year that can be written.
def lastYear : Scheduler := start .cron (CivilTime.newYear (10 ^ Text.maxDigits - 1)).timestamp

-- The first run of the job comes a year later. It is registered before this is written.
theorem not_state_eq_of_failed_lastYear :
    let op := Operation.add "party" "New year party" "0 0 1 1 *" ""
    TriggerSource.cron.BuildsSchedules ∧ Reachable .cron lastYear ∧ YearFits (op.clock lastYear.now) ∧
      (op.perform lastYear).result = .error .integerTooLong ∧ Failed (op.perform lastYear).result ∧
      (op.perform lastYear).state.has "party" = true ∧ (op.perform lastYear).state ≠ lastYear := by
  intro op
  have hresult : (op.perform lastYear).result = .error .integerTooLong := by decide +kernel
  have hadded : (op.perform lastYear).state.has "party" = true := by decide +kernel
  refine ⟨TriggerSource.cronWithin_buildsSchedules _, .start _, by decide +kernel, hresult, .inr ⟨_, hresult⟩,
    hadded, fun hsame => ?_⟩
  rw [hsame] at hadded
  exact absurd hadded (by decide)

end Scheduler

end Timetable
