import Mathlib.Data.List.Induction
import Timetable.Proofs.JobLookup

/-!
# Histories of operations

What one operation does to the next run of one job, and from it what a whole history does.

* `Scheduler.Operation.determines` says when an operation determines the next run of a job anew, and
  `Scheduler.determinedAt` gives the time of the clock at the latest such operation of a history.
* After any history the next run of a job is the first one after that time
  (`Scheduler.nextRunAfter_determinedAt`).
-/

namespace Timetable

/-- A source whose triggers are schedules, whatever expressions and bounds on passes it makes them of. -/
def TriggerSource.BuildsSchedules (source : TriggerSource) : Prop :=
  ∀ (expression : String) (trigger : Trigger), (source expression).result = .ok trigger →
    ∃ (searchLimit : Int) (text : String) (s : Schedule),
      (Schedule.ofExpressionWithin searchLimit text).result = .ok s ∧ trigger = s.trigger

theorem TriggerSource.cronWithin_buildsSchedules (searchLimit : Int) :
    (cronWithin searchLimit).BuildsSchedules := by
  intro expression trigger h
  rw [Job.cronWithin_result] at h
  rcases exists_of_map_eq_ok h with ⟨s, hread, rfl⟩
  exact ⟨searchLimit, expression, s, hread, rfl⟩

namespace Job

variable {job job' : Job} {now time : Int}

theorem followsSchedule_invariant_of_builds {source : TriggerSource} (h : source.BuildsSchedules) :
    Scheduler.JobInvariant source FollowsSchedule := by
  apply trigger_invariant (P := fun trigger => ∃ s : Schedule, s.Valid ∧ trigger = s.trigger)
  intro expression trigger htrigger hvalid
  rcases h expression trigger htrigger with ⟨searchLimit, text, s, hread, rfl⟩
  exact ⟨s, Schedule.valid_of_ofExpressionWithin hread hvalid, rfl⟩

/-- The next run in the record is the first one after a time. -/
def NextRunAfter (job : Job) (time : Int) : Prop := (job.trigger.nextRun time).result = .ok job.nextRun

theorem nextRunAfter_reschedule (h : (reschedule now job).result = .ok ()) :
    (reschedule now job).state.NextRunAfter now := by
  unfold reschedule at h
  rw [Action.get_bind] at h
  cases hcheck : job.trigger.check.result with
  | error e =>
    rw [Action.bind_error hcheck] at h
    exact absurd h (by simp)
  | ok _ =>
    rw [Action.bind_ok hcheck] at h
    cases hrun : (job.trigger.nextRun now).result with
    | error e =>
      rw [Action.bind_error hrun] at h
      exact absurd h (by simp)
    | ok run =>
      rw [(reschedule_of_ok hcheck hrun).1]
      exact hrun

/-- The next run is kept, and so is the status unless the job is started or disabled. -/
structure Keeps (job job' : Job) : Prop where
  trigger_eq : job'.trigger = job.trigger
  nextRun_eq : job'.nextRun = job.nextRun
  status : job'.status = job.status ∨ job'.status = .running ∨ job'.status = .disabled

theorem Keeps.refl (job : Job) : job.Keeps job := ⟨rfl, rfl, .inl rfl⟩

theorem FollowsSchedule.write (h : job.FollowsSchedule) (t : Transition) (now : Int) :
    (t.write now job).FollowsSchedule := by
  cases t <;> exact h

-- Starting and disabling keep the next run, and the other transitions determine it.
theorem FollowsSchedule.perform (h : job.FollowsSchedule) (t : Transition) (now : Int) :
    if t = .start ∨ t = .disable then job.Keeps (t.perform now job).state
    else (t.perform now job).state.NextRunAfter now := by
  have hok := ((h.write t now).reschedule now).1
  rw [state_perform]
  cases t with
  | start => exact ⟨rfl, rfl, .inr (.inl rfl)⟩
  | disable => exact ⟨rfl, rfl, .inr (.inr rfl)⟩
  | complete | fail | enable | reset => exact nextRunAfter_reschedule hok

end Job

namespace Scheduler

variable {source : TriggerSource} {s : Scheduler} {id : String} {job job' : Job}

/-! ## One operation -/

/-- Whether an operation determines the next run of the job under an identifier. Adding does when it
registers the job, setting the clock does for a job that is enabled and not running, and of the
transitions all do but starting and disabling. -/
def Operation.determines (s : Scheduler) (id : String) : Operation → Bool
  | op@(.add id' ..) => id = id' && !s.has id && (op.perform s).state.has id
  | .setTime _ => (s.find? id).any fun job => job.enabled && job.status != .running
  | .transition id' t => id = id' && t != .start && t != .disable
  | .takeReport r => id = r.jobId
  | .remove _ | .clear | .advance _ => false

/-- The time that the clock shows after an operation. -/
def Operation.clock (now : Int) : Operation → Int
  | .setTime time => time
  | .advance seconds => now + seconds
  | .add .. | .remove _ | .clear | .transition .. | .takeReport _ => now

theorem now_transition (id : String) (t : Job.Transition) (s : Scheduler) :
    (transition id t s).state.now = s.now := by
  rw [state_transition]
  split
  · rfl
  · rfl

theorem now_perform (op : Operation) (s : Scheduler) : (op.perform s).state.now = op.clock s.now := by
  cases op with
  | add id name expression metadata =>
    rw [Operation.perform, Action.state_map, state_add]
    split
    · rfl
    · split
      · rfl
      · rfl
  | remove id =>
    rw [Operation.perform, Action.state_map, state_remove]
    split
    · rfl
    · rfl
  | clear => rfl
  | setTime time =>
    rw [Operation.perform, Action.state_map, state_setTime]
    rfl
  | advance seconds => rfl
  | transition id t =>
    rw [Operation.perform, Action.state_map]
    exact now_transition id t s
  | takeReport r =>
    rw [Operation.perform, Action.state_map, state_takeReport]
    exact now_transition r.jobId _ s

theorem followsSchedule_of_find? (hs : ∀ job ∈ s.jobs.values, job.FollowsSchedule)
    (h : s.find? id = some job) : job.FollowsSchedule :=
  hs job (Register.mem_values_of_find? h)

-- Starting and disabling a job, and whatever happens to another, keeps its next run.
theorem transition_cases (hs : ∀ job ∈ s.jobs.values, job.FollowsSchedule) (id' : String)
    (t : Job.Transition)
    (h : (if id = id' then (s.find? id).map fun job => (t.perform s.now job).state else s.find? id) =
      some job') :
    ((id = id' ∧ t ≠ .start ∧ t ≠ .disable) ∧ job'.NextRunAfter s.now) ∨
      (¬ (id = id' ∧ t ≠ .start ∧ t ≠ .disable) ∧ ∃ job, s.find? id = some job ∧ job.Keeps job') := by
  by_cases hid : id = id'
  · rw [if_pos hid, Option.map_eq_some_iff] at h
    rcases h with ⟨job, hjob, rfl⟩
    have hperform := (followsSchedule_of_find? hs hjob).perform t s.now
    by_cases ht : t = .start ∨ t = .disable
    · rw [if_pos ht] at hperform
      exact .inr ⟨by tauto, job, hjob, hperform⟩
    · rw [if_neg ht] at hperform
      rw [not_or] at ht
      exact .inl ⟨⟨hid, ht⟩, hperform⟩
  · rw [if_neg hid] at h
    exact .inr ⟨fun hall => hid hall.1, job', h, .refl job'⟩

theorem refresh_cases (h : job.FollowsSchedule) (time : Int) :
    if job.enabled && job.status != .running then (refresh time job).state.NextRunAfter time
    else (refresh time job).state = job := by
  unfold refresh
  by_cases hrefresh : (job.enabled && job.status != .running) = true
  · rw [if_pos hrefresh, if_pos hrefresh]
    exact Job.nextRunAfter_reschedule (h.reschedule time).1
  · rw [if_neg hrefresh, if_neg hrefresh]

/-- An operation either determines the next run of the job that is found after it, at the time that the
clock shows then, or keeps that of the job found before. -/
theorem find?_perform_cases (hs : ∀ job ∈ s.jobs.values, job.FollowsSchedule) (op : Operation)
    (h : (op.perform s).state.find? id = some job') :
    (op.determines s id = true ∧ job'.NextRunAfter (op.perform s).state.now) ∨
      (op.determines s id = false ∧ ∃ job, s.find? id = some job ∧ job.Keeps job') := by
  have hok : ∀ time, ∀ job ∈ s.jobs.values, (refresh time job).result = .ok () :=
    fun time job hjob => (refresh_of_followsSchedule (hs job hjob) time).1
  have hhas : (op.perform s).state.has id = true := by
    rw [has_eq, h]
    rfl
  rw [now_perform]
  rw [find?_perform op hok] at h
  cases op with
  | add id' name expression metadata =>
    rw [Operation.determines, Operation.clock]
    rw [Operation.effect, Option.or_eq_some_iff] at h
    rcases h with hold | ⟨hnone, hnew⟩
    · right
      refine ⟨?_, job', hold, .refl job'⟩
      rw [has_eq, hold]
      simp
    · left
      by_cases hid : id = id'
      · rw [if_pos hid] at hnew
        rcases newJob?_eq_some hnew with ⟨created, -, -, hresult, rfl⟩
        refine ⟨?_, Job.nextRunAfter_reschedule hresult⟩
        rw [hhas, has_eq, hnone]
        simp [hid]
      · rw [if_neg hid] at hnew
        exact absurd hnew (by simp)
  | remove id' =>
    rw [Operation.effect] at h
    by_cases hid : id = id'
    · rw [if_pos hid] at h
      exact absurd h (by simp)
    · rw [if_neg hid] at h
      exact .inr ⟨rfl, job', h, .refl job'⟩
  | clear => exact absurd h (by simp [Operation.effect])
  | setTime time =>
    rw [Operation.effect, Option.map_eq_some_iff] at h
    rcases h with ⟨job, hjob, rfl⟩
    have hrefresh := refresh_cases (followsSchedule_of_find? hs hjob) time
    rw [Operation.determines, Operation.clock, hjob, Option.any_some]
    by_cases hactive : (job.enabled && job.status != .running) = true
    · rw [if_pos hactive] at hrefresh
      exact .inl ⟨hactive, hrefresh⟩
    · rw [if_neg hactive] at hrefresh
      rw [hrefresh]
      exact .inr ⟨Bool.not_eq_true _ ▸ hactive, job, rfl, .refl job⟩
  | advance seconds => exact .inr ⟨rfl, job', h, .refl job'⟩
  | transition id' t =>
    rw [Operation.determines, Operation.clock]
    rcases transition_cases hs id' t h with ⟨hall, hnext⟩ | ⟨hnot, hkeeps⟩
    · exact .inl ⟨by simp [hall], hnext⟩
    · refine .inr ⟨?_, hkeeps⟩
      rw [Bool.eq_false_iff]
      simpa [and_assoc] using hnot
  | takeReport r =>
    have hreported : reported r ≠ .start ∧ reported r ≠ .disable := by
      unfold reported
      split
      · decide
      · decide
    rw [Operation.determines, Operation.clock]
    rcases transition_cases hs r.jobId (reported r) h with ⟨hall, hnext⟩ | ⟨hnot, hkeeps⟩
    · exact .inl ⟨by simp [hall.1], hnext⟩
    · refine .inr ⟨decide_eq_false fun hid => hnot ⟨hid, hreported⟩, hkeeps⟩

/-! ## Whole histories -/

/-- The state that a list of operations leads to, one after the other. -/
def run (s : Scheduler) (ops : List Operation) : Scheduler := ops.foldl (fun s op => (op.perform s).state) s

theorem run_append (s : Scheduler) (ops ops' : List Operation) : s.run (ops ++ ops') = (s.run ops).run ops' :=
  List.foldl_append

theorem run_append_singleton (s : Scheduler) (ops : List Operation) (op : Operation) :
    s.run (ops ++ [op]) = (op.perform (s.run ops)).state := by
  rw [run_append]
  rfl

theorem Reachable.run (h : Reachable source s) (ops : List Operation) : Reachable source (s.run ops) := by
  induction ops generalizing s with
  | nil => exact h
  | cons op ops ih => exact ih (h.perform op)

/-- The time of the clock after the latest operation that determined the next run of the job under an
identifier. -/
def determinedAt (id : String) : Scheduler → List Operation → Option Int
  | _, [] => none
  | s, op :: ops =>
    (determinedAt id (op.perform s).state ops).or
      (if op.determines s id then some (op.perform s).state.now else none)

theorem determinedAt_append_singleton (id : String) (s : Scheduler) (ops : List Operation) (op : Operation) :
    determinedAt id s (ops ++ [op]) =
      if op.determines (s.run ops) id then some (s.run (ops ++ [op])).now else determinedAt id s ops := by
  rw [run_append_singleton]
  induction ops generalizing s with
  | nil =>
    show (none : Option Int).or (if op.determines s id then some (op.perform s).state.now else none) =
      if op.determines s id then some (op.perform s).state.now else none
    exact Option.none_or
  | cons op' ops ih =>
    rw [List.cons_append, determinedAt, ih, determinedAt]
    show _ = if op.determines ((op'.perform s).state.run ops) id then
      some (op.perform ((op'.perform s).state.run ops)).state.now else _
    by_cases h : op.determines ((op'.perform s).state.run ops) id = true
    · rw [if_pos h, if_pos h, Option.some_or]
    · rw [if_neg h, if_neg h]

/-- After any history the next run of a job is the first one after the time at which it was determined. -/
theorem nextRunAfter_determinedAt (hsource : source.BuildsSchedules) (now : Int) (ops : List Operation)
    (h : ((start source now).run ops).find? id = some job) :
    ∃ time, determinedAt id (start source now) ops = some time ∧ job.NextRunAfter time := by
  induction ops using List.reverseRecOn generalizing job with
  | nil => exact absurd ((find?_start source now id).symm.trans h) (Option.some_ne_none job).symm
  | append_singleton ops op ih =>
    have hreachable : Reachable source ((start source now).run ops) := (Reachable.start now).run ops
    have hfollows := hreachable.forall_jobs (Job.followsSchedule_invariant_of_builds hsource)
    rw [determinedAt_append_singleton]
    rw [run_append_singleton] at h ⊢
    rcases find?_perform_cases hfollows op h with ⟨hdetermines, hnext⟩ | ⟨hkeeps, old, hold, hjob⟩
    · rw [if_pos hdetermines]
      exact ⟨_, rfl, hnext⟩
    · rw [hkeeps]
      rcases ih hold with ⟨time, htime, hnext⟩
      refine ⟨time, htime, ?_⟩
      unfold Job.NextRunAfter
      rw [hjob.trigger_eq, hjob.nextRun_eq]
      exact hnext

end Scheduler

end Timetable
