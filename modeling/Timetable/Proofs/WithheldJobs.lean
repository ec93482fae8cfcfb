import Timetable.Proofs.DisabledJobs

/-!
# Jobs that are withheld

A job is not due while it is disabled or running. Status and flag are written apart, and different operations
end the one and the other.

* A disabled job stays disabled until an operation revives it (`Scheduler.Operation.Revives`), whatever else
  is done to its status.
* A job that was started and is not settled (`Scheduler.Operation.Settles`) is running, or was disabled since.
  Both keep its next run.

`Scheduler.Avoids` says of a history that it is without such operations. Through one, whatever the trigger
source, the job is not due (`Scheduler.not_mem_dueIds_withheld`).
-/

namespace Timetable

namespace Scheduler

variable {source : TriggerSource} {s : Scheduler} {id : String} {event : Scheduler → Operation → Prop}
  {ops : List Operation}

/-! ## Histories without certain operations -/

/-- No operation of the list is such an event in the state that it is carried out in. -/
def Avoids (event : Scheduler → Operation → Prop) : Scheduler → List Operation → Prop
  | _, [] => True
  | s, op :: ops => ¬ event s op ∧ Avoids event (op.perform s).state ops

instance decidableAvoids [∀ s op, Decidable (event s op)] :
    (s : Scheduler) → (ops : List Operation) → Decidable (Avoids event s ops)
  | _, [] => isTrue trivial
  | s, op :: ops =>
    have := decidableAvoids (op.perform s).state ops
    inferInstanceAs (Decidable (_ ∧ _))

/-- What every operation keeps that is no such event holds to the end of the list. -/
theorem Avoids.run {P : Scheduler → Prop} (h : Avoids event s ops)
    (hstep : ∀ s op, ¬ event s op → P s → P (op.perform s).state) (hs : P s) : P (s.run ops) := by
  induction ops generalizing s with
  | nil => exact hs
  | cons op ops ih => exact ih h.2 (hstep s op h.1 hs)

/-! ## Disabled jobs -/

/-- The operation enables the job under an identifier, or registers a new one there. -/
def Operation.Revives (id : String) (s : Scheduler) (op : Operation) : Prop :=
  op = .transition id .enable ∨ (s.has id = false ∧ (op.perform s).state.has id = true)

instance (id : String) (s : Scheduler) (op : Operation) : Decidable (op.Revives id s) :=
  inferInstanceAs (Decidable (_ ∨ _))

/-- No enabled job is registered under the identifier. -/
def Disabled (id : String) (s : Scheduler) : Prop := ∀ job, s.find? id = some job → job.enabled = false

theorem disabled_transition (id : String) (s : Scheduler) :
    Disabled id ((Operation.transition id .disable).perform s).state := by
  intro job hjob
  rw [Operation.perform, Action.state_map, find?_transition, if_pos rfl, Option.map_eq_some_iff] at hjob
  obtain ⟨old, -, rfl⟩ := hjob
  rfl

theorem Disabled.perform (h : Disabled id s) {op : Operation} (hop : ¬ op.Revives id s) :
    Disabled id (op.perform s).state := by
  intro job' hjob'
  by_contra henabled
  apply hop
  cases hjob : s.find? id with
  | none =>
    right
    rw [has_eq, has_eq, hjob, hjob']
    exact ⟨rfl, rfl⟩
  | some job =>
    left
    exact eq_enable_of_enabled hjob (h job hjob) hjob' (by simpa using henabled)

/-! ## Started jobs -/

/-- The operation ends a run of the job under an identifier, or takes the job away. -/
def Operation.Settles (id : String) : Operation → Prop
  | .transition id' t => id' = id ∧ t.reschedules = true
  | .takeReport r => r.jobId = id
  | .remove id' => id' = id
  | .clear => True
  | .add .. | .setTime _ | .advance _ => False

instance (id : String) : (op : Operation) → Decidable (op.Settles id)
  | .transition id' t => inferInstanceAs (Decidable (id' = id ∧ t.reschedules = true))
  | .takeReport r => inferInstanceAs (Decidable (r.jobId = id))
  | .remove id' => inferInstanceAs (Decidable (id' = id))
  | .clear => isTrue trivial
  | .add .. | .setTime _ | .advance _ => isFalse not_false

/-- The job under the identifier has a certain next run, and is running or disabled. -/
def Withheld (id : String) (run : Int) (s : Scheduler) : Prop :=
  ∃ job, s.find? id = some job ∧ job.nextRun = run ∧ (job.status = .running ∨ job.enabled = false)

theorem refresh_of_withheld {job : Job} (h : job.status = .running ∨ job.enabled = false) (time : Int) :
    refresh time job = ⟨job, .ok (), []⟩ := by
  apply if_neg
  rcases h with hrunning | hdisabled
  · simp [hrunning]
  · simp [hdisabled]

-- Of its transitions, starting it again and disabling it remain, and neither writes a next run.
theorem Withheld.transition {run : Int} (h : Withheld id run s) {id' : String} {t : Job.Transition}
    (ht : ¬ (id' = id ∧ t.reschedules = true)) : Withheld id run (transition id' t s).state := by
  obtain ⟨job, hjob, hrun, hwithheld⟩ := h
  rw [Withheld, find?_transition]
  by_cases hid : id = id'
  · have hkeeps : t.reschedules = false := Bool.eq_false_iff.mpr fun hr => ht ⟨hid.symm, hr⟩
    rw [if_pos hid, hjob, Option.map_some, Job.state_perform, hkeeps, if_neg Bool.false_ne_true]
    refine ⟨_, rfl, ?_⟩
    cases t with
    | start => exact ⟨hrun, .inl rfl⟩
    | disable => exact ⟨hrun, .inr rfl⟩
    | complete | fail | enable | reset => exact absurd hkeeps (by decide)
  · rw [if_neg hid]
    exact ⟨job, hjob, hrun, hwithheld⟩

theorem Withheld.perform {run : Int} (h : Withheld id run s) {op : Operation} (hop : ¬ op.Settles id) :
    Withheld id run (op.perform s).state := by
  cases op with
  | add id' name expression metadata =>
    obtain ⟨job, hjob, hheld⟩ := h
    refine ⟨job, ?_, hheld⟩
    rw [Operation.perform, Action.state_map, find?_add, hjob, Option.some_or]
  | remove id' =>
    obtain ⟨job, hjob, hheld⟩ := h
    refine ⟨job, ?_, hheld⟩
    rw [Operation.perform, Action.state_map, find?_remove, if_neg (Ne.symm hop)]
    exact hjob
  | clear => exact absurd trivial hop
  | setTime time =>
    obtain ⟨job, hjob, hheld⟩ := h
    refine ⟨job, ?_, hheld⟩
    rw [Operation.perform, Action.state_map, state_setTime]
    apply Register.find?_each_of_kept hjob
    rw [refresh_of_withheld hheld.2]
  | advance seconds => exact h
  | transition id' t =>
    rw [Operation.perform, Action.state_map]
    exact h.transition hop
  | takeReport r =>
    rw [Operation.perform, Action.state_map, state_takeReport]
    exact h.transition fun hboth => hop hboth.1

theorem withheld_of_started (hresult : ((Operation.transition id .start).perform s).result = .ok (some true)) :
    ∃ job, s.find? id = some job ∧ Withheld id job.nextRun ((Operation.transition id .start).perform s).state := by
  rw [result_of_transition? rfl] at hresult
  cases hjob : s.find? id with
  | none =>
    rw [hjob] at hresult
    exact absurd (Except.ok.inj hresult) (by decide)
  | some job =>
    refine ⟨job, rfl, Job.Transition.write s.now .start job, ?_, rfl, .inl rfl⟩
    rw [Operation.perform, Action.state_map, find?_transition, if_pos rfl, hjob]
    rfl

/-! ## Withheld jobs are not due -/

theorem Reachable.not_mem_dueIds (h : Reachable source s)
    (hwithheld : ∀ job, s.find? id = some job → job.status = .running ∨ job.enabled = false) :
    id ∉ s.dueIds := by
  rw [h.consistent.mem_dueIds_iff]
  rintro ⟨job, hjob, hdue⟩
  have hdue := Job.isDue_iff.mp hdue
  rcases hwithheld job hjob with hrunning | hdisabled
  · exact hdue.2.2.1 hrunning
  · exact absurd (hdisabled.symm.trans hdue.1) Bool.false_ne_true

/-- Neither a disabled job nor a started one is due at any later time. After a job is disabled, it is not due
until an operation enables it or registers another job under its identifier. After it is started, it is
not due and keeps the next run that it had until an operation completes, fails, resets, enables or
removes it. -/
theorem not_mem_dueIds_withheld (h : Reachable source s) (id : String) :
    (((Operation.transition id .disable).perform s).result = .ok (some true) →
      ∀ ops, Avoids (fun s op => op.Revives id s) ((Operation.transition id .disable).perform s).state ops →
        id ∉ (((Operation.transition id .disable).perform s).state.run ops).dueIds) ∧
    (((Operation.transition id .start).perform s).result = .ok (some true) →
      ∃ job, s.find? id = some job ∧
        ∀ ops, Avoids (fun _ op => op.Settles id) ((Operation.transition id .start).perform s).state ops →
          id ∉ (((Operation.transition id .start).perform s).state.run ops).dueIds ∧
            ∃ job', (((Operation.transition id .start).perform s).state.run ops).find? id = some job' ∧
              job'.nextRun = job.nextRun) := by
  refine ⟨fun _ ops havoids => ?_, fun hresult => ?_⟩
  · have hdisabled : Disabled id (((Operation.transition id .disable).perform s).state.run ops) :=
      havoids.run (fun _ _ hop hs => hs.perform hop) (disabled_transition id s)
    exact ((h.perform _).run ops).not_mem_dueIds fun job hjob => .inr (hdisabled job hjob)
  · obtain ⟨job, hjob, hstarted⟩ := withheld_of_started hresult
    refine ⟨job, hjob, fun ops havoids => ?_⟩
    obtain ⟨job', hjob', hrun, hwithheld⟩ :=
      havoids.run (P := Withheld id job.nextRun) (fun _ _ hop hs => hs.perform hop) hstarted
    refine ⟨((h.perform _).run ops).not_mem_dueIds fun found hfound => ?_, job', hjob', hrun⟩
    obtain rfl := Option.some.inj (hjob'.symm.trans hfound)
    exact hwithheld

-- The nightly job is reset and fails a run while it is disabled, and its run comes.
def failedWhileDisabled : List Operation :=
  [.transition "backup" .reset, .setTime 1703940000, .transition "backup" .fail, .advance 86400]

-- The clock is set behind the run of the started job. The job is disabled, and started again.
def disabledWhileRunning : List Operation :=
  [.setTime 1704000000, .transition "backup" .disable, .transition "backup" .start, .advance 86400]

theorem not_mem_dueIds_withheld_nightly :
    Reachable .cron nightly ∧
      "backup" ∉ (((Operation.transition "backup" .disable).perform nightly).state.run
        failedWhileDisabled).dueIds ∧
      "backup" ∉ (((Operation.transition "backup" .start).perform nightly).state.run
        disabledWhileRunning).dueIds ∧
      ∃ job', (((Operation.transition "backup" .start).perform nightly).state.run
        disabledWhileRunning).find? "backup" = some job' ∧ job'.nextRun = 1703980800 := by
  have hwithheld := not_mem_dueIds_withheld nightly_reachable "backup"
  have hdisabled : ((Operation.transition "backup" .disable).perform nightly).result = .ok (some true) := by
    decide +kernel
  have hstarted : ((Operation.transition "backup" .start).perform nightly).result = .ok (some true) := by
    decide +kernel
  have hrun : (nightly.find? "backup").map (·.nextRun) = some 1703980800 := by decide +kernel
  obtain ⟨job, hjob, hheld⟩ := hwithheld.2 hstarted
  rw [hjob, Option.map_some, Option.some_inj] at hrun
  rw [hrun] at hheld
  exact ⟨nightly_reachable, hwithheld.1 hdisabled failedWhileDisabled (by decide +kernel),
    hheld disabledWhileRunning (by decide +kernel)⟩

end Scheduler

end Timetable
