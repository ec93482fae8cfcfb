import Timetable.Proofs.OperationAnswer

/-!
# The record of a job over its history

Apart from its next run, the record of a job depends on nothing but the transitions that have addressed it
since it was registered.

* `Scheduler.find?_perform_rescheduled` says what one operation makes of the record.
* `Scheduler.transitionsOf` lists the transitions of a history, and `Scheduler.record_of_transitions` is
  the induction over them, for every trigger source, also one whose triggers end in faults.
-/

namespace Timetable

namespace Job

variable {job job' : Job} {now : Int}

/-- The records are the same but for the next run. -/
def Rescheduled (job job' : Job) : Prop := ∃ run, job' = { job with nextRun := run }

theorem Rescheduled.refl (job : Job) : job.Rescheduled job := ⟨job.nextRun, rfl⟩

theorem rescheduled_reschedule (now : Int) (job : Job) : job.Rescheduled (reschedule now job).state := by
  cases reschedule_cases now job with
  | inl h =>
    rw [h]
    exact .refl job
  | inr h => exact h

theorem rescheduled_refresh (now : Int) (job : Job) : job.Rescheduled (Scheduler.refresh now job).state := by
  unfold Scheduler.refresh
  split
  · exact rescheduled_reschedule now job
  · exact .refl job

theorem rescheduled_perform (t : Transition) (now : Int) (job : Job) :
    (t.write now job).Rescheduled (t.perform now job).state := by
  rw [state_perform]
  split
  · exact rescheduled_reschedule now _
  · exact .refl _

end Job

namespace Scheduler

variable {source : TriggerSource} {s : Scheduler} {id : String} {job job' : Job} {op : Operation}

/-! ## One operation -/

/-- The transition that an operation asks for of the job under an identifier. -/
def Operation.transitionOf (id : String) (op : Operation) : Option Job.Transition :=
  match op.transition? with
  | some (id', t) => if id = id' then some t else none
  | none => none

theorem newJob?_rescheduled {now : Int} {name expression metadata : String}
    (h : newJob? source now id name expression metadata = some job) :
    ∃ trigger, (Job.ofTrigger id name metadata trigger).Rescheduled job := by
  obtain ⟨created, hcreated, -, -, rfl⟩ := newJob?_eq_some h
  rw [Job.create_result] at hcreated
  obtain ⟨trigger, -, rfl⟩ := exists_of_map_eq_ok hcreated
  exact ⟨trigger, Job.rescheduled_reschedule now _⟩

theorem find?_transition_rescheduled {id' : String} {t : Job.Transition} (hop : op.transition? = some (id', t))
    (h : (op.perform s).state.find? id = some job') :
    ∃ job, s.find? id = some job ∧
      ((op.transitionOf id).elim job fun t => t.write s.now job).Rescheduled job' := by
  rw [state_of_transition? hop, find?_transition] at h
  rw [Operation.transitionOf, hop]
  by_cases hid : id = id'
  · rw [if_pos hid, Option.map_eq_some_iff] at h
    obtain ⟨job, hjob, rfl⟩ := h
    refine ⟨job, hjob, ?_⟩
    show ((if id = id' then some t else none).elim job _).Rescheduled _
    rw [if_pos hid, Option.elim_some]
    exact Job.rescheduled_perform t s.now job
  · rw [if_neg hid] at h
    refine ⟨job', h, ?_⟩
    show ((if id = id' then some t else none).elim job' _).Rescheduled _
    rw [if_neg hid, Option.elim_none]
    exact .refl job'

/-- The job found after an operation is new, or the one found before with the transition of the operation
written into its record. -/
theorem find?_perform_rescheduled (op : Operation) (h : (op.perform s).state.find? id = some job') :
    (s.find? id = none ∧ ∃ name metadata trigger, (Job.ofTrigger id name metadata trigger).Rescheduled job') ∨
      ∃ job, s.find? id = some job ∧
        ((op.transitionOf id).elim job fun t => t.write s.now job).Rescheduled job' := by
  cases op with
  | add id' name expression metadata =>
    rw [Operation.perform, Action.state_map, find?_add, Option.or_eq_some_iff] at h
    rcases h with hold | ⟨hnone, hnew⟩
    · exact .inr ⟨job', hold, .refl job'⟩
    · by_cases hid : id = id'
      · rw [if_pos hid, ← hid] at hnew
        obtain ⟨trigger, htrigger⟩ := newJob?_rescheduled hnew
        exact .inl ⟨hnone, name, metadata, trigger, htrigger⟩
      · rw [if_neg hid] at hnew
        exact absurd hnew (by simp)
  | remove id' =>
    rw [Operation.perform, Action.state_map, find?_remove] at h
    by_cases hid : id = id'
    · rw [if_pos hid] at h
      exact absurd h (by simp)
    · rw [if_neg hid] at h
      exact .inr ⟨job', h, .refl job'⟩
  | clear =>
    have hnone : (Operation.clear.perform s).state.find? id = none := rfl
    rw [hnone] at h
    exact absurd h (by simp)
  | setTime time =>
    right
    rw [Operation.perform, Action.state_map, state_setTime] at h
    obtain ⟨job, hjob, hstate⟩ := Register.find?_each_cases h
    refine ⟨job, hjob, ?_⟩
    cases hstate with
    | inl hsame =>
      rw [hsame]
      exact .refl job
    | inr hrefreshed =>
      rw [hrefreshed]
      exact Job.rescheduled_refresh time job
  | advance seconds => exact .inr ⟨job', h, .refl job'⟩
  | transition id' t => exact .inr (find?_transition_rescheduled rfl h)
  | takeReport r => exact .inr (find?_transition_rescheduled rfl h)

/-! ## Whole histories -/

/-- The transitions of a job since its registration, after one more operation. Where the job is not
registered before the operation, or not behind it, there are none. -/
def Operation.extend (s : Scheduler) (id : String) (ts : List Job.Transition) (op : Operation) :
    List Job.Transition :=
  if s.has id && (op.perform s).state.has id then ts ++ (op.transitionOf id).toList else []

/-- The transitions that have addressed the job under an identifier since it was registered, after a list
of operations; `ts` are those before. -/
def transitionsOf (id : String) : Scheduler → List Job.Transition → List Operation → List Job.Transition
  | _, ts, [] => ts
  | s, ts, op :: ops => transitionsOf id (op.perform s).state (op.extend s id ts) ops

theorem transitionsOf_append_singleton (id : String) (s : Scheduler) (ts : List Job.Transition)
    (ops : List Operation) (op : Operation) :
    transitionsOf id s ts (ops ++ [op]) = op.extend (s.run ops) id (transitionsOf id s ts ops) := by
  induction ops generalizing s ts with
  | nil => rfl
  | cons first ops ih => exact ih (first.perform s).state (first.extend s id ts)

/-- What holds of new jobs, and is carried on by every transition and by every change of the next run,
holds of each job and the transitions since it was registered. -/
theorem record_of_transitions {P : List Job.Transition → Job → Prop}
    (hnew : ∀ name metadata trigger, P [] (.ofTrigger id name metadata trigger))
    (hwrite : ∀ ts t now job, P ts job → P (ts ++ [t]) (t.write now job))
    (hrun : ∀ ts job run, P ts job → P ts { job with nextRun := run })
    (now : Int) (ops : List Operation) (h : ((start source now).run ops).find? id = some job) :
    P (transitionsOf id (start source now) [] ops) job := by
  induction ops using List.reverseRecOn generalizing job with
  | nil => exact absurd ((find?_start source now id).symm.trans h) (Option.some_ne_none job).symm
  | append_singleton ops op ih =>
    rw [transitionsOf_append_singleton, Operation.extend]
    rw [run_append_singleton] at h
    have hafter : (op.perform ((start source now).run ops)).state.has id = true := by
      rw [has_eq, h, Option.isSome_some]
    rw [hafter, Bool.and_true]
    rcases find?_perform_rescheduled op h with ⟨hnone, name, metadata, trigger, run, rfl⟩ | ⟨old, hold, run, rfl⟩
    · -- A new job has no transitions yet, whatever the one before it under the identifier had.
      rw [has_eq, hnone, Option.isSome_none, if_neg Bool.false_ne_true]
      exact hrun _ _ run (hnew name metadata trigger)
    · rw [has_eq, hold, Option.isSome_some, if_pos rfl]
      apply hrun
      cases op.transitionOf id with
      | none =>
        rw [Option.elim_none, Option.toList_none, List.append_nil]
        exact ih hold
      | some t =>
        rw [Option.elim_some, Option.toList_some]
        exact hwrite _ t _ old (ih hold)

end Scheduler

end Timetable
