import Mathlib.Tactic.Common
import Timetable.Scheduler.Operation

/-!
# States that a scheduler can reach

`Scheduler.Reachable` holds of every state that the operations lead to from a scheduler without jobs.
What holds of every new job, and is kept when its record is written or its next run is determined,
holds of every job of such a state (`Scheduler.Reachable.forall_jobs`).
-/

namespace Timetable

/-! ## The states that actions reach -/

namespace Action

variable {σ α β : Type}

theorem get_bind (f : σ → Action σ β) (s : σ) : (get >>= f) s = f s s := rfl

theorem modify_bind (g : σ → σ) (f : Unit → Action σ β) (s : σ) : (modify g >>= f) s = f () (g s) := rfl

theorem state_report_bind (e : Event) (f : Unit → Action σ β) (s : σ) :
    ((report e >>= f) s).state = (f () s).state := rfl

theorem state_bind_ok {x : Action σ α} {s : σ} {a : α} (h : (x s).result = .ok a) (f : α → Action σ β) :
    ((x >>= f) s).state = (f a (x s).state).state := by
  rw [bind_ok h]

theorem state_bind_error {x : Action σ α} {s : σ} {e : Fault} (h : (x s).result = .error e)
    (f : α → Action σ β) : ((x >>= f) s).state = (x s).state := by
  rw [bind_error h]

theorem state_map (f : α → β) (x : Action σ α) (s : σ) : ((f <$> x) s).state = (x s).state := by
  rw [map_apply]

-- What only reports and answers adds nothing to the state reached before it.
theorem state_bind_of_keeps {x : Action σ α} {f : α → Action σ β} (h : ∀ a s, (f a s).state = s) (s : σ) :
    ((x >>= f) s).state = (x s).state := by
  cases hx : (x s).result with
  | error e => rw [state_bind_error hx]
  | ok a => rw [state_bind_ok hx, h]

end Action

/-! ## The values of a register -/

namespace Register

variable {α : Type} {act : Action α Unit} {r : Register α} {key : String} {value v : α}

theorem mem_values_add : v ∈ (r.add key value).values ↔ v ∈ r.values ∨ v = value := by
  simp [add, values]

theorem mem_values_erase (h : v ∈ (r.erase key).values) : v ∈ r.values := by
  rw [values, List.mem_map] at h ⊢
  rcases h with ⟨entry, hentry, rfl⟩
  exact ⟨entry, (List.mem_filter.mp hentry).1, rfl⟩

theorem mem_values_replace (h : v ∈ (r.replace key value).values) : v ∈ r.values ∨ v = value := by
  rw [values, replace, List.map_map, List.mem_map] at h
  rcases h with ⟨entry, hentry, rfl⟩
  rw [Function.comp_apply]
  split
  · exact .inr rfl
  · exact .inl (List.mem_map_of_mem hentry)

theorem mem_values_of_find? (h : r.find? key = some v) : v ∈ r.values := by
  rcases List.lookup_eq_some_iff.mp h with ⟨before, after, hentries, -⟩
  rw [values, hentries]
  simp

section Each

variable {rest : List (String × α)}

theorem eachEntry_cons_ok (h : (act v).result = .ok ()) :
    eachEntry act ((key, v) :: rest) = ⟨(key, (act v).state) :: (eachEntry act rest).state,
      (eachEntry act rest).result, (act v).events ++ (eachEntry act rest).events⟩ := by
  simp [eachEntry, h]

theorem eachEntry_cons_error {e : Fault} (h : (act v).result = .error e) :
    eachEntry act ((key, v) :: rest) = ⟨(key, (act v).state) :: rest, .error e, (act v).events⟩ := by
  simp [eachEntry, h]

-- By induction on the entries; after a fault the remaining ones stay as they are.
theorem mem_values_each (h : v ∈ (each act r).state.values) :
    ∃ u ∈ r.values, v = u ∨ v = (act u).state := by
  rcases r with ⟨entries⟩
  change v ∈ (eachEntry act entries).state.map (·.2) at h
  change ∃ u ∈ entries.map (·.2), _
  induction entries with
  | nil => exact absurd h List.not_mem_nil
  | cons entry rest ih =>
    rcases entry with ⟨key, u⟩
    rw [List.map_cons]
    cases hu : (act u).result with
    | ok _ =>
      rw [eachEntry_cons_ok hu, List.map_cons, List.mem_cons] at h
      rcases h with rfl | hrest
      · exact ⟨u, List.mem_cons_self, .inr rfl⟩
      · rcases ih hrest with ⟨w, hw, hvw⟩
        exact ⟨w, List.mem_cons_of_mem _ hw, hvw⟩
    | error e =>
      rw [eachEntry_cons_error hu, List.map_cons, List.mem_cons] at h
      rcases h with rfl | hrest
      · exact ⟨u, List.mem_cons_self, .inr rfl⟩
      · exact ⟨v, List.mem_cons_of_mem _ hrest, .inl rfl⟩

/-- Where the action never ends in a fault, it has worked on every value. -/
theorem entries_each_of_ok (h : ∀ v ∈ r.values, (act v).result = .ok ()) :
    (each act r).state.entries = r.entries.map fun entry => (entry.1, (act entry.2).state) := by
  rcases r with ⟨entries⟩
  change ∀ v ∈ entries.map (·.2), _ at h
  change (eachEntry act entries).state = entries.map _
  induction entries with
  | nil => rfl
  | cons entry rest ih =>
    rcases entry with ⟨key, u⟩
    rw [List.map_cons, List.forall_mem_cons] at h
    rw [eachEntry_cons_ok h.1, List.map_cons, ih h.2]

theorem values_each_of_ok (h : ∀ v ∈ r.values, (act v).result = .ok ()) :
    (each act r).state.values = r.values.map fun v => (act v).state := by
  rw [values, values, entries_each_of_ok h, List.map_map, List.map_map]
  rfl

end Each

end Register

/-! ## What becomes of a job -/

namespace Job

variable {now run : Int} {job : Job}

theorem reschedule_of_ok (hcheck : job.trigger.check.result = .ok ())
    (hrun : (job.trigger.nextRun now).result = .ok run) :
    (reschedule now job).state = { job with nextRun := run } ∧ (reschedule now job).result = .ok () := by
  unfold reschedule
  rw [Action.get_bind, Action.bind_ok hcheck, Action.bind_ok hrun]
  exact ⟨rfl, rfl⟩

-- Determining the next run writes nothing else, and after a fault nothing at all.
theorem reschedule_cases (now : Int) (job : Job) :
    (reschedule now job).state = job ∨ ∃ run, (reschedule now job).state = { job with nextRun := run } := by
  cases hcheck : job.trigger.check.result with
  | error e =>
    left
    unfold reschedule
    rw [Action.get_bind, Action.state_bind_error hcheck]
    rfl
  | ok _ =>
    cases hrun : (job.trigger.nextRun now).result with
    | error e =>
      left
      unfold reschedule
      rw [Action.get_bind, Action.state_bind_ok hcheck,
        Action.state_bind_error hrun]
      rfl
    | ok run => exact .inr ⟨run, (reschedule_of_ok hcheck hrun).1⟩

theorem trigger_write (t : Transition) (now : Int) (job : Job) : (t.write now job).trigger = job.trigger := by
  cases t <;> rfl

theorem perform_eq (t : Transition) (now : Int) (job : Job) : t.perform now job =
    if t.reschedules then reschedule now (t.write now job) else ⟨t.write now job, .ok (), []⟩ := by
  unfold Transition.perform
  rw [Action.modify_bind]
  by_cases h : t.reschedules = true
  · rw [if_pos h, if_pos h]
  · rw [if_neg h, if_neg h]
    rfl

theorem state_perform (t : Transition) (now : Int) (job : Job) :
    (t.perform now job).state =
      if t.reschedules then (reschedule now (t.write now job)).state else t.write now job := by
  rw [perform_eq]
  split
  · rfl
  · rfl

end Job

/-! ## What operations leave behind -/

namespace Scheduler

variable {source : TriggerSource} {s : Scheduler} {P : Job → Prop}

/-- The job that adding registers: a new one of a valid trigger, with its next run determined. -/
def newJob? (source : TriggerSource) (now : Int) (id name expression metadata : String) : Option Job :=
  match (Job.create source id name expression metadata).result with
  | .ok job =>
    if job.trigger.isValid && (Job.reschedule now job).result.isOk then some (Job.reschedule now job).state
    else none
  | .error _ => none

theorem newJob?_eq_some {now : Int} {id name expression metadata : String} {job : Job}
    (h : newJob? source now id name expression metadata = some job) :
    ∃ created, (Job.create source id name expression metadata).result = .ok created ∧
      created.trigger.isValid = true ∧ (Job.reschedule now created).result = .ok () ∧
      job = (Job.reschedule now created).state := by
  unfold newJob? at h
  cases hcreated : (Job.create source id name expression metadata).result with
  | error e =>
    rw [hcreated] at h
    exact absurd h (by simp)
  | ok created =>
    simp only [hcreated] at h
    by_cases hok : (created.trigger.isValid && (Job.reschedule now created).result.isOk) = true
    · rw [if_pos hok] at h
      rw [Bool.and_eq_true] at hok
      refine ⟨created, rfl, hok.1, ?_, (Option.some.inj h).symm⟩
      cases hresult : (Job.reschedule now created).result with
      | error e =>
        rw [hresult] at hok
        exact absurd hok.2 Bool.false_ne_true
      | ok _ => rfl
    · rw [if_neg hok] at h
      exact absurd h (by simp)

-- A fault before the registration leaves the jobs as they were, and one behind it finds the job added.
theorem state_add (id name expression metadata : String) (s : Scheduler) :
    (add id name expression metadata s).state =
      if s.has id then s
      else match newJob? s.source s.now id name expression metadata with
        | some job => { s with jobs := s.jobs.add id job }
        | none => s := by
  unfold add newJob?
  rw [Action.get_bind]
  by_cases hid : s.has id = true
  · rw [if_pos hid, if_pos hid]
    rfl
  rw [if_neg hid, if_neg hid]
  cases hjob : (Job.create s.source id name expression metadata).result with
  | error e =>
    rw [Action.state_bind_error hjob]
    rfl
  | ok job =>
    rw [Action.state_bind_ok hjob]
    by_cases hvalid : job.trigger.isValid = true
    · rw [if_pos hvalid]
      cases hrun : (Job.reschedule s.now job).result with
      | error e =>
        have hexec : ((Job.reschedule s.now).exec job).result = .error e := by
          rw [Action.exec, hrun]
          rfl
        rw [Action.state_bind_error hexec]
        simp [hrun, Except.isOk, Except.toBool]
      | ok _ =>
        have hexec : ((Job.reschedule s.now).exec job).result = .ok (Job.reschedule s.now job).state := by
          rw [Action.exec, hrun]
          rfl
        rw [Action.state_bind_ok hexec, Action.modify_bind, Action.state_bind_of_keeps]
        · simp [hrun, hvalid, Except.isOk, Except.toBool]
        · exact fun _ _ => rfl
    · rw [if_neg hvalid]
      simp [hvalid]
      rfl

theorem state_remove (id : String) (s : Scheduler) :
    (remove id s).state = if s.has id then { s with jobs := s.jobs.erase id } else s := by
  unfold remove
  rw [Action.get_bind]
  split
  · rfl
  · rfl

theorem state_setTime (time : Int) (s : Scheduler) :
    (setTime time s).state = { s with now := time, jobs := (Register.each (refresh time) s.jobs).state } := by
  unfold setTime
  rw [Action.modify_bind, Action.state_bind_of_keeps]
  · rfl
  · intro _ s
    rw [Action.state_bind_of_keeps]
    · rfl
    · exact fun _ _ => rfl

theorem state_transition (id : String) (t : Job.Transition) (s : Scheduler) :
    (transition id t s).state = match s.find? id with
      | none => s
      | some job => { s with jobs := s.jobs.replace id (t.perform s.now job).state } := by
  unfold transition
  rw [Action.get_bind]
  cases s.find? id with
  | none => rfl
  | some job =>
    show ((withJob id job (t.perform s.now) >>= _) s).state = _
    rw [Action.state_bind_of_keeps]
    · rfl
    · intro _ s
      rw [Action.state_bind_of_keeps]
      · rfl
      · exact fun _ _ => rfl

theorem state_takeReport (r : RunReport) (s : Scheduler) :
    (takeReport r s).state = (transition r.jobId (if r.success then .complete else .fail) s).state := by
  unfold takeReport
  cases r.success with
  | true => rfl
  | false =>
    show ((Action.report _ >>= _) s).state = _
    rw [Action.state_report_bind]
    rfl

/-- What an operation can make of a state. -/
inductive Change (s : Scheduler) : Scheduler → Prop where
  | nothing : Change s s
  | added {id name expression metadata : String} {job : Job}
      (hjob : (Job.create s.source id name expression metadata).result = .ok job)
      (hvalid : job.trigger.isValid = true) :
      Change s { s with jobs := s.jobs.add id (Job.reschedule s.now job).state }
  | removed (id : String) : Change s { s with jobs := s.jobs.erase id }
  | cleared : Change s { s with jobs := .empty }
  | clockSet (time : Int) :
      Change s { s with now := time, jobs := (Register.each (refresh time) s.jobs).state }
  | clockMoved (seconds : Int) : Change s { s with now := s.now + seconds }
  | transitioned {id : String} (t : Job.Transition) {job : Job} (hjob : s.find? id = some job) :
      Change s { s with jobs := s.jobs.replace id (t.perform s.now job).state }

theorem change_transition (id : String) (t : Job.Transition) (s : Scheduler) :
    s.Change (transition id t s).state := by
  rw [state_transition]
  cases hjob : s.find? id with
  | none => exact .nothing
  | some job => exact .transitioned t hjob

theorem change_perform (op : Operation) (s : Scheduler) : s.Change (op.perform s).state := by
  cases op with
  | add id name expression metadata =>
    rw [Operation.perform, Action.state_map, state_add]
    by_cases hid : s.has id = true
    · rw [if_pos hid]
      exact .nothing
    · rw [if_neg hid]
      cases hnew : newJob? s.source s.now id name expression metadata with
      | none => exact .nothing
      | some job =>
        rcases newJob?_eq_some hnew with ⟨created, hcreated, hvalid, -, rfl⟩
        exact .added hcreated hvalid
  | remove id =>
    rw [Operation.perform, Action.state_map, state_remove]
    split
    · exact .removed id
    · exact .nothing
  | clear =>
    rw [Operation.perform, Action.state_map]
    exact .cleared
  | setTime time =>
    rw [Operation.perform, Action.state_map, state_setTime]
    exact .clockSet time
  | advance seconds =>
    rw [Operation.perform, Action.state_map]
    exact .clockMoved seconds
  | transition id t =>
    rw [Operation.perform, Action.state_map]
    exact change_transition id t s
  | takeReport r =>
    rw [Operation.perform, Action.state_map, state_takeReport]
    exact change_transition _ _ s

/-! ## Every job of every state -/

/-- A property that new jobs have and that no change of a job's record takes away. -/
structure JobInvariant (source : TriggerSource) (P : Job → Prop) : Prop where
  created : ∀ {id name expression metadata : String} {job : Job},
    (Job.create source id name expression metadata).result = .ok job → job.trigger.isValid = true → P job
  written : ∀ (t : Job.Transition) (now : Int) {job : Job}, P job → P (t.write now job)
  rescheduled : ∀ (now : Int) {job : Job}, P job → P (Job.reschedule now job).state

theorem JobInvariant.performed (hP : JobInvariant source P) (t : Job.Transition) (now : Int) {job : Job}
    (h : P job) : P (t.perform now job).state := by
  rw [Job.state_perform]
  split
  · exact hP.rescheduled now (hP.written t now h)
  · exact hP.written t now h

theorem JobInvariant.refreshed (hP : JobInvariant source P) (now : Int) {job : Job} (h : P job) :
    P (refresh now job).state := by
  unfold refresh
  split
  · exact hP.rescheduled now h
  · exact h

-- One operation keeps the property of all jobs.
theorem JobInvariant.change (hP : JobInvariant s.source P) {s' : Scheduler} (hchange : s.Change s')
    (h : ∀ job ∈ s.jobs.values, P job) : ∀ job ∈ s'.jobs.values, P job := by
  intro job hmem
  cases hchange with
  | nothing => exact h job hmem
  | added hjob hvalid =>
    rcases Register.mem_values_add.mp hmem with hold | rfl
    · exact h job hold
    · exact hP.rescheduled s.now (hP.created hjob hvalid)
  | removed id => exact h job (Register.mem_values_erase hmem)
  | cleared => exact absurd hmem List.not_mem_nil
  | clockSet time =>
    rcases Register.mem_values_each hmem with ⟨old, hold, rfl | rfl⟩
    · exact h job hold
    · exact hP.refreshed time (h old hold)
  | clockMoved seconds => exact h job hmem
  | transitioned t hjob =>
    rcases Register.mem_values_replace hmem with hold | rfl
    · exact h job hold
    · exact hP.performed t s.now (h _ (Register.mem_values_of_find? hjob))

theorem Change.source_eq {s' : Scheduler} (h : s.Change s') : s'.source = s.source := by
  cases h <;> rfl

/-- The states that operations lead to from a scheduler without jobs. -/
inductive Reachable (source : TriggerSource) : Scheduler → Prop where
  | start (now : Int) : Reachable source (start source now)
  | perform {s : Scheduler} (op : Operation) : Reachable source s → Reachable source (op.perform s).state

theorem Reachable.source_eq (h : Reachable source s) : s.source = source := by
  induction h with
  | start now => rfl
  | perform op _ ih => exact (change_perform op _).source_eq.trans ih

/-- A property of new jobs that no change takes away holds of every job of every state. -/
theorem Reachable.forall_jobs (hP : JobInvariant source P) (h : Reachable source s) :
    ∀ job ∈ s.jobs.values, P job := by
  induction h with
  | start now => exact fun job hmem => absurd hmem List.not_mem_nil
  | perform op hs ih =>
    rw [← hs.source_eq] at hP
    exact hP.change (change_perform op _) ih

end Scheduler

end Timetable
