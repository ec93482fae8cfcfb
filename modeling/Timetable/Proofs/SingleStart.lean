import Timetable.Proofs.OperationHistory

/-!
# No run is started twice

Where the clock never goes back, a run that was due when its job was started is not due again: whatever
happens to the job after the start, the next run that is due under its identifier lies after the time of
the start (`Scheduler.start_lt_nextRun_of_due`).

The invariant is `Job.PastBy`: a job that has not been given a later next run since the start is either
running or disabled, and so not due.
-/

namespace Timetable

namespace Job

variable {source : TriggerSource} {job job' : Job} {time : Int}

theorem NextRunAfter.lt (h : job.NextRunAfter time) (hfollows : job.FollowsSchedule) : time < job.nextRun := by
  rcases hfollows with ⟨s, hs, htrigger⟩
  rcases hs.lt_nextRun time with ⟨t, events, ht, hlt⟩
  rw [NextRunAfter, htrigger] at h
  have heq : t = job.nextRun := Except.ok.inj ((congrArg Outcome.result ht).symm.trans h)
  rwa [← heq]

/-- No run that came by a time can be due. -/
def PastBy (job : Job) (time : Int) : Prop :=
  time < job.nextRun ∨ job.status = .running ∨ job.status = .disabled

theorem PastBy.keeps (h : job.PastBy time) (hkeeps : job.Keeps job') : job'.PastBy time := by
  rw [PastBy, hkeeps.nextRun_eq]
  rcases hkeeps.status with hstatus | hstatus | hstatus
  · rw [hstatus]
    exact h
  · exact .inr (.inl hstatus)
  · exact .inr (.inr hstatus)

theorem PastBy.lt_of_isDue {now : Int} (h : job.PastBy time) (hdue : job.isDue now = true) :
    time < job.nextRun := by
  have hdue := isDue_iff.mp hdue
  rcases h with hlt | hrunning | hdisabled
  · exact hlt
  · exact absurd hrunning hdue.2.2.1
  · exact absurd hdisabled hdue.2.1

end Job

namespace Scheduler

variable {source : TriggerSource} {s : Scheduler} {id : String} {job : Job} {time : Int} {op : Operation}
  {ops : List Operation}

/-! ## A clock that never goes back -/

/-- The operation does not move the clock back. -/
def Operation.Forward (s : Scheduler) : Operation → Prop
  | .setTime time => s.now ≤ time
  | .advance seconds => 0 ≤ seconds
  | .add .. | .remove _ | .clear | .transition .. | .takeReport _ => True

/-- No operation of the list moves the clock back. -/
def Forward : Scheduler → List Operation → Prop
  | _, [] => True
  | s, op :: ops => op.Forward s ∧ Forward (op.perform s).state ops

instance decidableForward (s : Scheduler) : (op : Operation) → Decidable (op.Forward s)
  | .setTime time => inferInstanceAs (Decidable (s.now ≤ time))
  | .advance seconds => inferInstanceAs (Decidable (0 ≤ seconds))
  | .add .. | .remove _ | .clear | .transition .. | .takeReport _ => isTrue trivial

instance decidableForwardAll : (s : Scheduler) → (ops : List Operation) → Decidable (s.Forward ops)
  | _, [] => isTrue trivial
  | s, op :: ops =>
    have := decidableForwardAll (op.perform s).state ops
    inferInstanceAs (Decidable (_ ∧ _))

theorem forward_append {ops' : List Operation} :
    s.Forward (ops ++ ops') ↔ s.Forward ops ∧ (s.run ops).Forward ops' := by
  induction ops generalizing s with
  | nil => exact ⟨fun h => ⟨trivial, h⟩, fun h => h.2⟩
  | cons op ops ih =>
    show op.Forward s ∧ Forward (op.perform s).state (ops ++ ops') ↔
      (op.Forward s ∧ Forward (op.perform s).state ops) ∧ (run (op.perform s).state ops).Forward ops'
    rw [ih, and_assoc]

theorem Operation.Forward.now_le (h : op.Forward s) : s.now ≤ (op.perform s).state.now := by
  rw [now_perform]
  cases op with
  | setTime time => exact h
  | advance seconds => exact Int.le_add_of_nonneg_right h
  | add | remove | clear | transition | takeReport => exact Int.le_refl s.now

theorem Forward.now_le (h : s.Forward ops) : s.now ≤ (s.run ops).now := by
  induction ops generalizing s with
  | nil => exact Int.le_refl s.now
  | cons op ops ih => exact Int.le_trans h.1.now_le (ih h.2)

/-! ## After a start -/

theorem pastBy_perform (hsource : source.BuildsSchedules) (hs : Reachable source s) (hforward : op.Forward s)
    (htime : time ≤ s.now) (hpast : ∀ job, s.find? id = some job → job.PastBy time) :
    ∀ job, (op.perform s).state.find? id = some job → job.PastBy time := by
  intro job hjob
  have hinvariant := Job.followsSchedule_invariant_of_builds hsource
  rcases find?_perform_cases (hs.forall_jobs hinvariant) op hjob with ⟨-, hnext⟩ | ⟨-, old, hold, hkeeps⟩
  · have hfollows := followsSchedule_of_find? ((hs.perform op).forall_jobs hinvariant) hjob
    exact .inl (lt_of_le_of_lt (htime.trans hforward.now_le) (hnext.lt hfollows))
  · exact (hpast old hold).keeps hkeeps

theorem pastBy_run (hsource : source.BuildsSchedules) (hs : Reachable source s) (hforward : s.Forward ops)
    (htime : time ≤ s.now) (hpast : ∀ job, s.find? id = some job → job.PastBy time) :
    ∀ job, (s.run ops).find? id = some job → job.PastBy time := by
  induction ops generalizing s with
  | nil => exact hpast
  | cons op ops ih =>
    exact ih (hs.perform op) hforward.2 (htime.trans hforward.1.now_le)
      (pastBy_perform hsource hs hforward.1 htime hpast)

-- A job that has just been started is running.
theorem pastBy_start (time : Int) :
    ∀ job, ((Operation.transition id .start).perform s).state.find? id = some job → job.PastBy time := by
  intro job hjob
  rw [Operation.perform, Action.state_map, find?_transition, if_pos rfl, Option.map_eq_some_iff] at hjob
  rcases hjob with ⟨old, -, rfl⟩
  exact .inr (.inl rfl)

/-- If a due job is started, and a job is due under the same identifier at any later point of a history
whose clock never goes back, then the run that is due then lies after the time of the start. -/
theorem start_lt_nextRun_of_due (hsource : source.BuildsSchedules) (now : Int)
    (before between : List Operation) (id : String)
    (hforward : (start source now).Forward (before ++ .transition id .start :: between))
    (hfirst : id ∈ ((start source now).run before).dueIds)
    (hsecond : id ∈ ((start source now).run (before ++ .transition id .start :: between)).dueIds) :
    ∃ first second : Job, ((start source now).run before).find? id = some first ∧
      ((start source now).run (before ++ .transition id .start :: between)).find? id = some second ∧
      first.nextRun ≤ ((start source now).run before).now ∧
      ((start source now).run before).now < second.nextRun ∧
      second.nextRun ≤ ((start source now).run (before ++ .transition id .start :: between)).now := by
  have hreachable : Reachable source (start source now) := .start now
  rw [forward_append] at hforward
  rw [(hreachable.run _).consistent.mem_dueIds_iff] at hfirst hsecond
  rcases hfirst with ⟨first, hfirst, hfirstDue⟩
  rcases hsecond with ⟨second, hsecond, hsecondDue⟩
  have hpast : second.PastBy ((start source now).run before).now := by
    rw [run_append] at hsecond
    exact pastBy_run hsource ((hreachable.run before).perform _) hforward.2.2 hforward.2.1.now_le
      (pastBy_start _) second hsecond
  exact ⟨first, second, hfirst, hsecond, (Job.isDue_iff.mp hfirstDue).2.2.2,
    hpast.lt_of_isDue hsecondDue, (Job.isDue_iff.mp hsecondDue).2.2.2⟩

-- With a single pass for each search, runs that are not found fall at the beginnings of years.
def untilNewYear : List Operation :=
  [.add "backup" "Nightly backup" "0 0 * * *" "", .advance 129600]

def throughTheYear : List Operation :=
  [.transition "backup" .complete, .setTime 1704067201, .advance 31622399]

-- Started when it is first due and completed at once, the job is due again a year later.
theorem start_lt_nextRun_of_due_yearly :
    (TriggerSource.cronWithin 1).BuildsSchedules ∧
      (start (.cronWithin 1) 1703937600).Forward
        (untilNewYear ++ .transition "backup" .start :: throughTheYear) ∧
      ∃ second, ((start (.cronWithin 1) 1703937600).run
          (untilNewYear ++ .transition "backup" .start :: throughTheYear)).find? "backup" = some second ∧
        1704067200 < second.nextRun ∧ second.nextRun ≤ 1735689600 := by
  have hsource := TriggerSource.cronWithin_buildsSchedules 1
  have hforward : (start (.cronWithin 1) 1703937600).Forward
      (untilNewYear ++ .transition "backup" .start :: throughTheYear) := by decide +kernel
  have hfirst : "backup" ∈ ((start (.cronWithin 1) 1703937600).run untilNewYear).dueIds := by
    decide +kernel
  have hsecond : "backup" ∈ ((start (.cronWithin 1) 1703937600).run
      (untilNewYear ++ .transition "backup" .start :: throughTheYear)).dueIds := by decide +kernel
  rcases start_lt_nextRun_of_due hsource 1703937600 untilNewYear throughTheYear "backup" hforward hfirst
    hsecond with ⟨first, second, -, hfound, -, hlt, hle⟩
  exact ⟨hsource, hforward, second, hfound, hlt, hle⟩

end Scheduler

end Timetable
