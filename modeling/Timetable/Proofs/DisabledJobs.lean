import Timetable.Proofs.DueRuns
import Timetable.Proofs.JobRecord

/-!
# Disabled jobs

A job keeps apart whether it is enabled and which status it has. Disabling writes both, and so does
enabling; every other transition writes the status alone, whatever it was.

* A job is disabled from its latest disabling on until it is enabled, and has the status of its latest
  transition (`Scheduler.disabled_iff`). The status tells that the job is disabled only as long as no other
  transition follows, and what is counted as pending includes disabled jobs that were reset.
* A job that is reset while it is disabled is pending and not enabled (`Scheduler.not_disabled_iff_reset`).
-/

namespace Timetable

namespace Job

/-- The status that a transition leaves. -/
def Transition.status : Transition → Status
  | start => .running
  | complete => .completed
  | fail => .failed
  | disable => .disabled
  | enable | reset => .pending

theorem status_write (t : Transition) (now : Int) (job : Job) : (t.write now job).status = t.status := by
  cases t <;> rfl

/-- The job has been disabled, and not enabled since. -/
def DisabledBy (ts : List Transition) : Prop :=
  ∃ before after, ts = before ++ .disable :: after ∧ .enable ∉ after

theorem not_disabledBy_nil : ¬ DisabledBy [] := by
  intro h
  obtain ⟨before, after, hts, -⟩ := h
  exact absurd hts (by simp)

theorem disabledBy_append_disable (ts : List Transition) : DisabledBy (ts ++ [.disable]) :=
  ⟨ts, [], rfl, List.not_mem_nil⟩

-- The disabling is the transition that was added, or one of those before.
theorem disabledBy_append_singleton {ts : List Transition} {t : Transition} (ht : t ≠ .disable) :
    DisabledBy (ts ++ [t]) ↔ t ≠ .enable ∧ DisabledBy ts := by
  constructor
  · intro h
    obtain ⟨before, after, hts, hafter⟩ := h
    cases List.eq_nil_or_concat after with
    | inl hnil =>
      rw [hnil] at hts
      exact absurd (List.append_inj' hts rfl).2 (by simpa using ht)
    | inr hconcat =>
      obtain ⟨init, last, rfl⟩ := hconcat
      rw [List.concat_eq_append] at hts hafter
      rw [← List.cons_append, ← List.append_assoc] at hts
      have hparts := List.append_inj' hts rfl
      have hlast : t = last := List.head_eq_of_cons_eq hparts.2
      rw [List.mem_append, not_or, List.mem_singleton, ← hlast] at hafter
      exact ⟨Ne.symm hafter.2, before, init, hparts.1, hafter.1⟩
  · intro h
    obtain ⟨henable, before, after, rfl, hafter⟩ := h
    refine ⟨before, after ++ [t], by simp, ?_⟩
    rw [List.mem_append, not_or, List.mem_singleton]
    exact ⟨hafter, Ne.symm henable⟩

/-- What the transitions of a job say of its status, and of whether it is enabled. -/
structure Reflects (ts : List Transition) (job : Job) : Prop where
  status_eq : job.status = (ts.getLast?.map Transition.status).getD .pending
  disabledBy_iff : job.enabled = false ↔ DisabledBy ts

-- No other transition leaves the status for disabled jobs.
theorem Reflects.status_eq_disabled_iff {ts : List Transition} {job : Job} (h : Reflects ts job) :
    job.status = .disabled ↔ ts.getLast? = some .disable := by
  rw [h.status_eq]
  cases ts.getLast? with
  | none => decide
  | some t => cases t <;> decide

theorem Reflects.enabled_of_status {ts : List Transition} {job : Job} (h : Reflects ts job)
    (hstatus : job.status = .disabled) : job.enabled = false := by
  cases List.getLast?_eq_some_iff.mp (h.status_eq_disabled_iff.mp hstatus) with
  | intro init hts =>
    rw [h.disabledBy_iff, hts]
    exact disabledBy_append_disable init

-- New jobs and jobs that were enabled last are pending too, but they are enabled.
theorem Reflects.pending_iff_of_disabled {ts : List Transition} {job : Job} (h : Reflects ts job)
    (hdisabled : job.enabled = false) : job.status = .pending ↔ ts.getLast? = some .reset := by
  have hby := h.disabledBy_iff.mp hdisabled
  rw [h.status_eq]
  cases hlast : ts.getLast? with
  | none =>
    rw [List.getLast?_eq_none_iff] at hlast
    rw [hlast] at hby
    exact absurd hby not_disabledBy_nil
  | some t =>
    cases t with
    | enable =>
      cases List.getLast?_eq_some_iff.mp hlast with
      | intro init hts =>
        rw [hts, disabledBy_append_singleton (by decide)] at hby
        exact absurd rfl hby.1
    | start | complete | fail | disable | reset => decide

theorem Reflects.write {ts : List Transition} {job : Job} (h : Reflects ts job) (t : Transition) (now : Int) :
    Reflects (ts ++ [t]) (t.write now job) := by
  constructor
  · rw [status_write, List.getLast?_append, List.getLast?_singleton, Option.some_or, Option.map_some,
      Option.getD_some]
  · by_cases hdisable : t = .disable
    · rw [hdisable]
      exact ⟨fun _ => disabledBy_append_disable ts, fun _ => rfl⟩
    · rw [disabledBy_append_singleton hdisable, ← h.disabledBy_iff]
      cases t with
      | disable => exact absurd rfl hdisable
      | enable => simp [Transition.write]
      | start | complete | fail | reset => simp [Transition.write]

end Job

namespace Scheduler

variable {source : TriggerSource} {s : Scheduler} {id : String} {job : Job}

theorem reflects_transitionsOf (now : Int) (ops : List Operation)
    (hjob : ((start source now).run ops).find? id = some job) :
    Job.Reflects (transitionsOf id (start source now) [] ops) job :=
  record_of_transitions (fun name metadata trigger => ⟨rfl, by simp [Job.ofTrigger, Job.not_disabledBy_nil]⟩)
    (fun ts t now job h => h.write t now) (fun ts job run h => ⟨h.status_eq, h.disabledBy_iff⟩) now ops hjob

theorem transition?_of_transitionOf {op : Operation} {t : Job.Transition} (h : op.transitionOf id = some t) :
    op.transition? = some (id, t) := by
  unfold Operation.transitionOf at h
  cases hop : op.transition? with
  | none =>
    rw [hop] at h
    exact absurd h (by simp)
  | some addressed =>
    simp only [hop] at h
    by_cases hid : id = addressed.1
    · rw [if_pos hid] at h
      rw [hid, ← Option.some.inj h]
    · rw [if_neg hid] at h
      exact absurd h (by simp)

-- A report completes or fails a job, and enables none.
theorem eq_enable_of_transition? {op : Operation} (h : op.transition? = some (id, .enable)) :
    op = .transition id .enable := by
  cases op with
  | transition id' t =>
    have hparts := Prod.mk.inj (Option.some.inj h)
    rw [hparts.1, hparts.2]
  | takeReport r =>
    have hreported : reported r = .enable := (Prod.mk.inj (Option.some.inj h)).2
    unfold reported at hreported
    split at hreported
    · exact absurd hreported (by decide)
    · exact absurd hreported (by decide)
  | add | remove | clear | setTime | advance => exact absurd h (by simp [Operation.transition?])

/-- One operation enables a disabled job only by the transition for it. -/
theorem eq_enable_of_enabled {op : Operation} {job' : Job} (hjob : s.find? id = some job)
    (hdisabled : job.enabled = false) (h : (op.perform s).state.find? id = some job')
    (henabled : job'.enabled = true) : op = .transition id .enable := by
  cases find?_perform_rescheduled op h with
  | inl hnew =>
    rw [hnew.1] at hjob
    exact absurd hjob (by simp)
  | inr hold =>
    obtain ⟨old, hold, run, rfl⟩ := hold
    obtain rfl := Option.some.inj (hjob.symm.trans hold)
    cases ht : op.transitionOf id with
    | none =>
      rw [ht] at henabled
      exact absurd (hdisabled.symm.trans henabled) Bool.false_ne_true
    | some t =>
      rw [ht, Option.elim_some] at henabled
      cases t with
      | enable => exact eq_enable_of_transition? (transition?_of_transitionOf ht)
      | disable => exact absurd henabled Bool.false_ne_true
      | start | complete | fail | reset => exact absurd (hdisabled.symm.trans henabled) Bool.false_ne_true

/-! ## After any history -/

-- A job that is pending is enabled, or was reset while it was disabled.
theorem statusCount_pending (now : Int) (ops : List Operation) (hrun : (start source now).run ops = s) :
    s.statusCount .pending = s.jobs.values.countP (fun job => job.enabled && job.status == .pending) +
      s.jobs.values.countP fun job =>
        !job.enabled && (transitionsOf job.id (start source now) [] ops).getLast? == some .reset := by
  have hconsistent : s.Consistent := hrun ▸ ((Reachable.start now).run ops).consistent
  rw [statusCount, List.countP_eq_countP_filter_add s.jobs.values _ (·.enabled), List.countP_filter,
    List.countP_filter]
  congr 1
  · simp only [Bool.and_comm]
  · -- Among the disabled jobs, to be pending is to have been reset last.
    apply List.countP_congr
    intro job hjob
    have hfound := hconsistent.find?_of_mem_values hjob
    rw [← hrun] at hfound
    have hreflects := reflects_transitionsOf now ops hfound
    cases henabled : job.enabled with
    | true => simp
    | false => simpa using hreflects.pending_iff_of_disabled henabled

/-- After any history a job is disabled from its latest disabling on until it is enabled, and has the
status for it exactly when its latest transition disabled it. So a job with that status is disabled; a
disabled job is pending exactly when it was reset last; only the transition for it enables a job again;
and a pending job that is enabled is due as soon as its next run has come. What is counted as pending
beside enabled jobs are the disabled ones that were reset last. -/
theorem disabled_iff (now : Int) (ops : List Operation) (hrun : (start source now).run ops = s) :
    (∀ (id : String) (job : Job), s.find? id = some job →
      (job.status = .disabled → job.enabled = false) ∧
      (job.enabled = false ↔ Job.DisabledBy (transitionsOf id (start source now) [] ops)) ∧
      (job.status = .disabled ↔ (transitionsOf id (start source now) [] ops).getLast? = some .disable) ∧
      (job.enabled = false →
        (job.status = .pending ↔ (transitionsOf id (start source now) [] ops).getLast? = some .reset)) ∧
      (job.enabled = false → ∀ (op : Operation) (job' : Job), (op.perform s).state.find? id = some job' →
        job'.enabled = true → op = .transition id .enable) ∧
      (job.enabled = true → job.status = .pending → (id ∈ s.dueIds ↔ job.nextRun ≤ s.now))) ∧
    s.statusCount .pending = s.jobs.values.countP (fun job => job.enabled && job.status == .pending) +
      s.jobs.values.countP fun job =>
        !job.enabled && (transitionsOf job.id (start source now) [] ops).getLast? == some .reset := by
  refine ⟨?_, statusCount_pending now ops hrun⟩
  intro id job hjob
  have hreachable : Reachable source s := hrun ▸ (Reachable.start now).run ops
  have hreflects : Job.Reflects (transitionsOf id (start source now) [] ops) job :=
    reflects_transitionsOf now ops (hrun ▸ hjob)
  refine ⟨hreflects.enabled_of_status, hreflects.disabledBy_iff, hreflects.status_eq_disabled_iff,
    hreflects.pending_iff_of_disabled, ?_, ?_⟩
  · intro hdisabled op job' hjob' henabled
    exact eq_enable_of_enabled hjob hdisabled hjob' henabled
  · intro henabled hpending
    rw [hreachable.mem_dueIds_iff hjob]
    simp [henabled, hpending]

-- A nightly job is disabled and reset.
def resetWhileDisabled : List Operation :=
  [.add "backup" "Nightly backup" "0 0 * * *" "", .transition "backup" .disable, .transition "backup" .reset]

theorem find?_resetWhileDisabled :
    ∃ job, ((start .cron 1703937600).run resetWhileDisabled).find? "backup" = some job ∧
      job.enabled = false ∧ job.status = .pending := by
  have hrecord : (((start .cron 1703937600).run resetWhileDisabled).find? "backup").map
      (fun job => (job.enabled, job.status)) = some (false, .pending) := by decide +kernel
  cases Option.map_eq_some_iff.mp hrecord with
  | intro job hjob =>
    have hparts := Prod.mk.inj hjob.2
    exact ⟨job, hjob.1, hparts.1, hparts.2⟩

/-- Status and flag of a disabled job part when it is reset: it is pending, and not enabled. -/
theorem not_disabled_iff_reset :
    ∃ job, ((start .cron 1703937600).run resetWhileDisabled).find? "backup" = some job ∧
      ¬ (job.enabled = false ↔ job.status = .disabled) ∧
      ((start .cron 1703937600).run resetWhileDisabled).statusCount .pending = 1 ∧
      ((start .cron 1703937600).run resetWhileDisabled).enabledCount = 0 := by
  obtain ⟨job, hjob, henabled, hstatus⟩ := find?_resetWhileDisabled
  refine ⟨job, hjob, ?_, by decide +kernel, by decide +kernel⟩
  rw [henabled, hstatus]
  decide

/-- That the job is pending and not enabled tells that it was disabled, and reset after that. -/
theorem disabled_iff_resetWhileDisabled :
    ∃ job, ((start .cron 1703937600).run resetWhileDisabled).find? "backup" = some job ∧
      job.enabled = false ∧ job.status = .pending ∧
      Job.DisabledBy (transitionsOf "backup" (start .cron 1703937600) [] resetWhileDisabled) ∧
      (transitionsOf "backup" (start .cron 1703937600) [] resetWhileDisabled).getLast? = some .reset := by
  obtain ⟨job, hjob, henabled, hstatus⟩ := find?_resetWhileDisabled
  have hall := (disabled_iff 1703937600 resetWhileDisabled rfl).1 "backup" job hjob
  exact ⟨job, hjob, henabled, hstatus, hall.2.1.mp henabled, (hall.2.2.2.1 henabled).mp hstatus⟩

end Scheduler

end Timetable
