import Timetable.Proofs.OperationHistory

/-!
# Answers of operations

What an operation answers, or the fault in which it ends.

* `Scheduler.Operation.answer` is the answer of an operation that addresses a job. It depends on the
  trigger source, on the time of the clock and on the job that is found under the identifier
  (`Scheduler.result_perform`).
* `Scheduler.result_setTime` is the answer of setting the clock.
* Where triggers keep what they promise (`TriggerSource.Dependable`), no job that is registered ends an
  operation in a fault (`Scheduler.Reachable.perform_ok`, `Scheduler.Reachable.refresh_ok`).
-/

namespace Timetable

/-! ## Triggers that keep what they promise -/

/-- The trigger passes its check, and finds a run after every time. -/
def Trigger.Runs (trigger : Trigger) : Prop :=
  trigger.check.result = .ok () ∧ ∀ now, ∃ run, (trigger.nextRun now).result = .ok run

/-- A trigger of the source that calls itself valid runs. The source itself may end in a fault. -/
def TriggerSource.Dependable (source : TriggerSource) : Prop :=
  ∀ (expression : String) (trigger : Trigger), (source expression).result = .ok trigger →
    trigger.isValid = true → trigger.Runs

theorem TriggerSource.BuildsSchedules.dependable {source : TriggerSource} (h : source.BuildsSchedules) :
    source.Dependable := by
  intro expression trigger htrigger hvalid
  obtain ⟨searchLimit, text, s, hread, rfl⟩ := h expression trigger htrigger
  have hs : s.Valid := Schedule.valid_of_ofExpressionWithin hread hvalid
  refine ⟨hs.check_eq, fun now => ?_⟩
  obtain ⟨run, events, hrun, -⟩ := hs.lt_nextRun now
  exact ⟨run, congrArg Outcome.result hrun⟩

theorem Job.result_reschedule {job : Job} (h : job.trigger.Runs) (now : Int) :
    (reschedule now job).result = .ok () := by
  cases h.2 now with
  | intro run hrun => exact (reschedule_of_ok h.1 hrun).2

theorem Job.result_perform {job : Job} (h : job.trigger.Runs) (t : Transition) (now : Int) :
    (t.perform now job).result = .ok () := by
  rw [perform_eq]
  by_cases ht : t.reschedules = true
  · rw [if_pos ht]
    exact result_reschedule (by rwa [trigger_write]) now
  · rw [if_neg ht]

/-! ## The answers of actions -/

namespace Action

variable {σ α β : Type}

theorem result_bind (x : Action σ α) (f : α → Action σ β) (s : σ) :
    ((x >>= f) s).result = (x s).result >>= fun a => (f a (x s).state).result := by
  cases h : (x s).result with
  | error e =>
    rw [bind_error h]
    rfl
  | ok a =>
    rw [bind_ok h]
    rfl

theorem result_map (f : α → β) (x : Action σ α) (s : σ) : ((f <$> x) s).result = (x s).result.map f := by
  rw [map_apply]

-- What is written into an event is all that can still fail.
theorem result_report (x : Except Fault α) (e : α → Event) (b : β) (s : σ) :
    ((do
      let a ← lift (Outcome.ofExcept x)
      report (e a)
      pure b : Action σ β) s).result = x.map fun _ => b := by
  cases x with
  | error e => rfl
  | ok a => rfl

end Action

theorem Register.result_each_of_ok {α : Type} {act : Action α Unit} {r : Register α}
    (h : ∀ v ∈ r.values, (act v).result = .ok ()) : (each act r).result = .ok () := by
  cases r with
  | mk entries =>
    show (eachEntry act entries).result = .ok ()
    change ∀ v ∈ entries.map (·.2), (act v).result = .ok () at h
    induction entries with
    | nil => rfl
    | cons entry rest ih =>
      rw [List.map_cons, List.forall_mem_cons] at h
      rw [eachEntry_cons_ok h.1]
      exact ih h.2

namespace Scheduler

variable {source : TriggerSource} {s : Scheduler} {id : String} {job : Job} {op : Operation}

theorem Reachable.runs (hsource : source.Dependable) (h : Reachable source s) :
    ∀ job ∈ s.jobs.values, job.trigger.Runs :=
  h.forall_jobs (Job.trigger_invariant fun htrigger hvalid => hsource _ _ htrigger hvalid)

theorem Reachable.refresh_ok (hsource : source.Dependable) (h : Reachable source s) (time : Int) :
    ∀ job ∈ s.jobs.values, (refresh time job).result = .ok () := by
  intro job hjob
  unfold refresh
  split
  · exact Job.result_reschedule (h.runs hsource job hjob) time
  · rfl

theorem Reachable.perform_ok (hsource : source.Dependable) (h : Reachable source s)
    (hjob : s.find? id = some job) (t : Job.Transition) (now : Int) : (t.perform now job).result = .ok () :=
  Job.result_perform (h.runs hsource job (Register.mem_values_of_find? hjob)) t now

/-! ## The answers of operations -/

/-- The identifier that an operation addresses. Clearing and moving the clock address none. -/
def Operation.address : Operation → Option String
  | .add id .. | .remove id | .transition id _ => some id
  | .takeReport r => some r.jobId
  | .clear | .setTime _ | .advance _ => none

/-- The transition that an operation asks for, with the identifier of the job. -/
def Operation.transition? : Operation → Option (String × Job.Transition)
  | .transition id t => some (id, t)
  | .takeReport r => some (r.jobId, reported r)
  | .add .. | .remove _ | .clear | .setTime _ | .advance _ => none

/-- What adding a job answers where its identifier is free. -/
def addAnswer (source : TriggerSource) (now : Int) (id name expression metadata : String) :
    Except Fault Bool := do
  let job ← (Job.create source id name expression metadata).result
  if job.trigger.isValid then
    let job ← ((Job.reschedule now).exec job).result
    (timestampText job.nextRun).map fun _ => true
  else .ok false

/-- What a transition of a registered job answers. -/
def transitionAnswer (now : Int) (t : Job.Transition) (job : Job) : Except Fault Bool := do
  (t.perform now job).result
  (timestampText now).map fun _ => true

/-- What an operation that addresses a job answers, from what is found under the identifier. -/
def Operation.answer (source : TriggerSource) (now : Int) : Operation → Option Job → Except Fault (Option Bool)
  | .add id name expression metadata, none => (addAnswer source now id name expression metadata).map some
  | .add .., some _ => .ok (some false)
  | .remove _, found => .ok (some found.isSome)
  | .transition _ t, some job => (transitionAnswer now t job).map some
  | .takeReport r, some job => (transitionAnswer now (reported r) job).map some
  | .transition .., none | .takeReport _, none => .ok (some false)
  | .clear, _ | .setTime _, _ | .advance _, _ => .ok none

theorem result_add (id name expression metadata : String) (s : Scheduler) :
    (add id name expression metadata s).result =
      if s.has id then .ok false else addAnswer s.source s.now id name expression metadata := by
  unfold add
  rw [Action.get_bind]
  by_cases hid : s.has id = true
  · rw [if_pos hid, if_pos hid]
    rfl
  · rw [if_neg hid, if_neg hid, Action.result_bind]
    apply bind_congr
    intro job
    by_cases hvalid : job.trigger.isValid = true
    · rw [if_pos hvalid, if_pos hvalid, Action.result_bind]
      apply bind_congr
      intro job
      rw [Action.modify_bind, Action.result_report]
    · rw [if_neg hvalid, if_neg hvalid]
      rfl

-- An expression without a trigger, one with a trigger of no use, and one with a job to register.
theorem addAnswer_cases (hsource : source.Dependable) (now : Int) (id name expression metadata : String) :
    (∃ e, (source expression).result = .error e ∧ newJob? source now id name expression metadata = none ∧
      addAnswer source now id name expression metadata = .error e) ∨
    (∃ trigger, (source expression).result = .ok trigger ∧ trigger.isValid = false ∧
      newJob? source now id name expression metadata = none ∧
      addAnswer source now id name expression metadata = .ok false) ∨
    ∃ trigger job, (source expression).result = .ok trigger ∧ trigger.isValid = true ∧
      newJob? source now id name expression metadata = some job ∧
      addAnswer source now id name expression metadata = (timestampText job.nextRun).map fun _ => true := by
  unfold addAnswer newJob?
  rw [Job.create_result]
  cases hsrc : (source expression).result with
  | error e => exact .inl ⟨e, rfl, rfl, rfl⟩
  | ok trigger =>
    right
    by_cases hvalid : trigger.isValid = true
    · right
      have hresult : (Job.reschedule now (.ofTrigger id name metadata trigger)).result = .ok () :=
        Job.result_reschedule (hsource expression trigger hsrc hvalid) now
      refine ⟨trigger, (Job.reschedule now (.ofTrigger id name metadata trigger)).state, rfl, hvalid, ?_, ?_⟩
      · show (if trigger.isValid && (Job.reschedule now (.ofTrigger id name metadata trigger)).result.isOk then
          _ else _) = _
        rw [hvalid, hresult]
        rfl
      · show (if trigger.isValid then _ else _) = _
        rw [if_pos hvalid, Action.exec, hresult]
        rfl
    · left
      have hinvalid : trigger.isValid = false := Bool.eq_false_iff.mpr hvalid
      refine ⟨trigger, rfl, hinvalid, ?_, ?_⟩
      · show (if trigger.isValid && _ then _ else _) = _
        rw [hinvalid]
        rfl
      · show (if trigger.isValid then _ else _) = _
        rw [hinvalid]
        rfl

theorem result_remove (id : String) (s : Scheduler) : (remove id s).result = .ok (s.has id) := by
  unfold remove
  rw [Action.get_bind]
  by_cases hid : s.has id = true
  · rw [if_pos hid, hid]
    rfl
  · rw [if_neg hid, Bool.eq_false_iff.mpr hid]
    rfl

theorem result_transition (id : String) (t : Job.Transition) (s : Scheduler) :
    (transition id t s).result = (s.find? id).elim (.ok false) (transitionAnswer s.now t) := by
  unfold transition
  rw [Action.get_bind]
  cases s.find? id with
  | none => rfl
  | some job =>
    show ((withJob id job (t.perform s.now) >>= _) s).result = transitionAnswer s.now t job
    rw [Action.result_bind, transitionAnswer]
    simp only [Action.result_report]
    rw [withJob]
    cases (t.perform s.now job).result with
    | error e => rfl
    | ok _ => rfl

theorem result_takeReport (r : RunReport) (s : Scheduler) :
    (takeReport r s).result = (transition r.jobId (reported r) s).result := by
  unfold takeReport reported
  cases r.success with
  | true => rfl
  | false => rfl

/-- The answer of setting the clock: a fault of one of the jobs, or of writing the time. -/
theorem result_setTime (time : Int) (s : Scheduler) :
    (setTime time s).result = (do
      (Register.each (refresh time) s.jobs).result
      (timestampText time).map fun _ => ()) := by
  unfold setTime
  rw [Action.modify_bind, Action.result_bind]
  apply bind_congr
  intro _
  cases timestampText time with
  | error e => rfl
  | ok shown => rfl

/-- An operation that addresses a job answers from the source, the clock and that job only. -/
theorem result_perform (h : op.address = some id) :
    (op.perform s).result = op.answer s.source s.now (s.find? id) := by
  cases op with
  | add id' name expression metadata =>
    obtain rfl := Option.some.inj h
    rw [Operation.perform, Action.result_map, result_add, has_eq]
    cases s.find? id' with
    | none => rfl
    | some job => rfl
  | remove id' =>
    obtain rfl := Option.some.inj h
    rw [Operation.perform, Action.result_map, result_remove, has_eq]
    rfl
  | transition id' t =>
    obtain rfl := Option.some.inj h
    rw [Operation.perform, Action.result_map, result_transition]
    cases s.find? id' with
    | none => rfl
    | some job => rfl
  | takeReport r =>
    obtain rfl := Option.some.inj h
    rw [Operation.perform, Action.result_map, result_takeReport, result_transition]
    cases s.find? r.jobId with
    | none => rfl
    | some job => rfl
  | clear | setTime time | advance seconds => exact absurd h (by simp [Operation.address])

theorem result_of_transition? {t : Job.Transition} (h : op.transition? = some (id, t)) :
    (op.perform s).result = ((s.find? id).elim (.ok false) (transitionAnswer s.now t)).map some := by
  cases op with
  | transition id' t' =>
    obtain ⟨rfl, rfl⟩ := Prod.mk.inj (Option.some.inj h)
    rw [Operation.perform, Action.result_map, result_transition]
  | takeReport r =>
    obtain ⟨rfl, rfl⟩ := Prod.mk.inj (Option.some.inj h)
    rw [Operation.perform, Action.result_map, result_takeReport, result_transition]
  | add | remove | clear | setTime | advance => exact absurd h (by simp [Operation.transition?])

theorem state_of_transition? {t : Job.Transition} (h : op.transition? = some (id, t)) :
    (op.perform s).state = (transition id t s).state := by
  cases op with
  | transition id' t' =>
    obtain ⟨rfl, rfl⟩ := Prod.mk.inj (Option.some.inj h)
    rw [Operation.perform, Action.state_map]
  | takeReport r =>
    obtain ⟨rfl, rfl⟩ := Prod.mk.inj (Option.some.inj h)
    rw [Operation.perform, Action.state_map, state_takeReport]
    rfl
  | add | remove | clear | setTime | advance => exact absurd h (by simp [Operation.transition?])

end Scheduler

end Timetable
