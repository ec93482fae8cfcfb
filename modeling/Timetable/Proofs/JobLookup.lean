import Timetable.Proofs.ClockMove

/-!
# The job under an identifier

What an operation makes of the job that is registered under an identifier, whatever the others do.

* `Scheduler.Operation.effect` is the change of one job, and `Scheduler.find?_perform` says that the
  job found after an operation is the changed one.
* In every state that can be reached each identifier names one job, which calls itself by it
  (`Scheduler.Consistent`), so that the due identifiers are those of due jobs.
-/

namespace Timetable

/-! ## Looking up values in a register -/

namespace Register

variable {α : Type} {act : Action α Unit} {r : Register α} {key : String} {value v : α}

theorem find?_eq_none_iff : r.find? key = none ↔ key ∉ r.keys := by
  rw [find?, List.lookup_eq_none_iff, keys, List.mem_map]
  constructor
  · rintro h ⟨entry, hentry, rfl⟩
    exact absurd rfl (bne_iff_ne.mp (h entry hentry))
  · intro h entry hentry
    exact bne_iff_ne.mpr fun heq => h ⟨entry, hentry, heq.symm⟩

theorem lookup_cons_eq (key k : String) (v : α) (rest : List (String × α)) :
    ((k, v) :: rest).lookup key = if key = k then some v else rest.lookup key := by
  rw [List.lookup_cons]
  by_cases h : key = k
  · rw [if_pos h, beq_iff_eq.mpr h]
  · rw [if_neg h, beq_eq_false_iff_ne.mpr h]

theorem find?_add (key k : String) (v : α) (r : Register α) :
    (r.add k v).find? key = (r.find? key).or (if key = k then some v else none) := by
  rw [find?, add, List.lookup_append, lookup_cons_eq]
  rfl

theorem find?_erase (key k : String) (r : Register α) :
    (r.erase k).find? key = if key = k then none else r.find? key := by
  rcases r with ⟨entries⟩
  change (entries.filter (·.1 != k)).lookup key = if key = k then none else entries.lookup key
  induction entries with
  | nil => simp
  | cons entry rest ih =>
    rcases entry with ⟨name, u⟩
    by_cases hname : name = k
    · rw [List.filter_cons_of_neg (by simp [hname]), ih, lookup_cons_eq]
      by_cases hkey : key = k
      · rw [if_pos hkey, if_pos hkey]
      · rw [if_neg hkey, if_neg hkey, if_neg (hname ▸ hkey)]
    · rw [List.filter_cons_of_pos (by simp [hname]), lookup_cons_eq, lookup_cons_eq, ih]
      by_cases hkey : key = name
      · rw [if_pos hkey, if_pos hkey, if_neg (hkey ▸ hname)]
      · rw [if_neg hkey, if_neg hkey]

theorem find?_replace (key k : String) (v : α) (r : Register α) :
    (r.replace k v).find? key = if key = k then (r.find? key).map fun _ => v else r.find? key := by
  rcases r with ⟨entries⟩
  change (entries.map fun entry => if entry.1 == k then (k, v) else entry).lookup key =
    if key = k then (entries.lookup key).map fun _ => v else entries.lookup key
  induction entries with
  | nil => simp
  | cons entry rest ih =>
    rcases entry with ⟨name, u⟩
    rw [List.map_cons]
    by_cases hname : name = k
    · rw [if_pos (by simp [hname]), lookup_cons_eq, lookup_cons_eq, ih, hname]
      by_cases hkey : key = k
      · rw [if_pos hkey, if_pos hkey, if_pos hkey]
        rfl
      · rw [if_neg hkey, if_neg hkey, if_neg hkey, if_neg hkey]
    · rw [if_neg (by simp [hname]), lookup_cons_eq, lookup_cons_eq, ih]
      by_cases hkey : key = name
      · rw [if_pos hkey, if_pos hkey, if_neg (hkey ▸ hname)]
      · rw [if_neg hkey, if_neg hkey]

theorem find?_each_of_ok (h : ∀ v ∈ r.values, (act v).result = .ok ()) :
    (each act r).state.find? key = (r.find? key).map fun v => (act v).state := by
  rw [find?, entries_each_of_ok h, find?]
  induction r.entries with
  | nil => rfl
  | cons entry rest ih =>
    rcases entry with ⟨name, u⟩
    rw [List.map_cons, lookup_cons_eq, lookup_cons_eq, ih]
    by_cases hkey : key = name
    · rw [if_pos hkey, if_pos hkey]
      rfl
    · rw [if_neg hkey, if_neg hkey]

-- By induction on the entries; after a fault the remaining ones stay as they are.
theorem keys_each (act : Action α Unit) (r : Register α) : (each act r).state.keys = r.keys := by
  rcases r with ⟨entries⟩
  change (eachEntry act entries).state.map (·.1) = entries.map (·.1)
  induction entries with
  | nil => rfl
  | cons entry rest ih =>
    rcases entry with ⟨name, u⟩
    cases hu : (act u).result with
    | ok _ => rw [eachEntry_cons_ok hu, List.map_cons, List.map_cons, ih]
    | error e => rw [eachEntry_cons_error hu, List.map_cons, List.map_cons]

theorem find?_each_cases (h : (each act r).state.find? key = some v) :
    ∃ u, r.find? key = some u ∧ (v = u ∨ v = (act u).state) := by
  rcases r with ⟨entries⟩
  change (eachEntry act entries).state.lookup key = some v at h
  change ∃ u, entries.lookup key = some u ∧ _
  induction entries with
  | nil => exact absurd h (by simp [eachEntry])
  | cons entry rest ih =>
    rcases entry with ⟨name, u⟩
    rw [lookup_cons_eq]
    by_cases hkey : key = name
    · rw [if_pos hkey]
      have hv : (act u).state = v := by
        cases hu : (act u).result with
        | ok _ =>
          rw [eachEntry_cons_ok hu, lookup_cons_eq, if_pos hkey] at h
          exact Option.some.inj h
        | error e =>
          rw [eachEntry_cons_error hu, lookup_cons_eq, if_pos hkey] at h
          exact Option.some.inj h
      exact ⟨u, rfl, .inr hv.symm⟩
    · rw [if_neg hkey]
      cases hu : (act u).result with
      | ok _ =>
        rw [eachEntry_cons_ok hu, lookup_cons_eq, if_neg hkey] at h
        exact ih h
      | error e =>
        rw [eachEntry_cons_error hu, lookup_cons_eq, if_neg hkey] at h
        exact ⟨v, h, .inl rfl⟩

-- A value that the action keeps is still found, also where a fault keeps the action from reaching it.
theorem find?_each_of_kept (h : r.find? key = some v) (hkept : (act v).state = v) :
    (each act r).state.find? key = some v := by
  cases hfound : (each act r).state.find? key with
  | none =>
    rw [find?_eq_none_iff, keys_each, ← find?_eq_none_iff, h] at hfound
    exact absurd hfound (by simp)
  | some w =>
    obtain ⟨u, hu, hw⟩ := find?_each_cases hfound
    obtain rfl := Option.some.inj (h.symm.trans hu)
    rw [hkept, or_self] at hw
    rw [hw]

-- With one entry for each key, every entry is the one that is found.
theorem find?_of_mem_entries (hnodup : r.keys.Nodup) (h : (key, v) ∈ r.entries) : r.find? key = some v := by
  rcases List.append_of_mem h with ⟨before, after, hentries⟩
  rw [keys, hentries, List.map_append, List.map_cons, List.nodup_append] at hnodup
  rw [find?, List.lookup_eq_some_iff]
  refine ⟨before, after, hentries, fun entry hentry => bne_iff_ne.mpr fun heq => ?_⟩
  exact hnodup.2.2 entry.1 (List.mem_map_of_mem hentry) key List.mem_cons_self heq.symm

end Register

/-! ## What an operation makes of one job -/

namespace Scheduler

variable {source : TriggerSource} {s : Scheduler} {id : String} {job : Job}

/-- The transition of a job that a report of its run brings about. -/
def reported (r : RunReport) : Job.Transition := if r.success then .complete else .fail

/-- What becomes of the job under an identifier, or of its absence. -/
def Operation.effect (source : TriggerSource) (now : Int) (id : String) : Operation → Option Job → Option Job
  | .add id' name expression metadata, found =>
    found.or (if id = id' then newJob? source now id' name expression metadata else none)
  | .remove id', found => if id = id' then none else found
  | .clear, _ => none
  | .setTime time, found => found.map fun job => (refresh time job).state
  | .advance _, found => found
  | .transition id' t, found => if id = id' then found.map fun job => (t.perform now job).state else found
  | .takeReport r, found =>
    if id = r.jobId then found.map fun job => ((reported r).perform now job).state else found

theorem has_eq (s : Scheduler) (id : String) : s.has id = (s.find? id).isSome := rfl

theorem find?_of_not_has (h : ¬ s.has id = true) : s.find? id = none := by
  rwa [has_eq, Bool.not_eq_true, Option.isSome_eq_false_iff, Option.isNone_iff_eq_none] at h

theorem find?_start (source : TriggerSource) (now : Int) (id : String) : (start source now).find? id = none := rfl

theorem find?_transition (t : Job.Transition) (id' : String) (s : Scheduler) (id : String) :
    (transition id' t s).state.find? id =
      if id = id' then (s.find? id).map fun job => (t.perform s.now job).state else s.find? id := by
  rw [state_transition]
  cases hfound : s.find? id' with
  | none =>
    by_cases hid : id = id'
    · rw [if_pos hid, hid, hfound]
      rfl
    · rw [if_neg hid]
  | some job =>
    show (s.jobs.replace id' _).find? id = _
    rw [Register.find?_replace]
    by_cases hid : id = id'
    · rw [if_pos hid, if_pos hid, hid]
      show (s.find? id').map _ = (s.find? id').map _
      rw [hfound]
      rfl
    · rw [if_neg hid, if_neg hid]
      rfl

theorem find?_add (id' name expression metadata : String) (s : Scheduler) (id : String) :
    (add id' name expression metadata s).state.find? id =
      (s.find? id).or (if id = id' then newJob? s.source s.now id' name expression metadata else none) := by
  rw [state_add]
  by_cases hhas : s.has id' = true
  · rw [if_pos hhas]
    by_cases hid : id = id'
    · rw [has_eq, Option.isSome_iff_exists] at hhas
      rcases hhas with ⟨job, hjob⟩
      rw [hid, hjob, Option.some_or]
    · rw [if_neg hid, Option.or_none]
  · rw [if_neg hhas]
    cases newJob? s.source s.now id' name expression metadata with
    | none =>
      rw [ite_self, Option.or_none]
    | some job => exact Register.find?_add id id' job s.jobs

theorem find?_remove (id' : String) (s : Scheduler) (id : String) :
    (remove id' s).state.find? id = if id = id' then none else s.find? id := by
  rw [state_remove]
  by_cases hhas : s.has id' = true
  · rw [if_pos hhas]
    exact Register.find?_erase id id' s.jobs
  · rw [if_neg hhas]
    by_cases hid : id = id'
    · rw [if_pos hid, hid]
      exact find?_of_not_has hhas
    · rw [if_neg hid]

/-- The job found after an operation is what the operation makes of the one found before. Only setting
the clock works on several jobs, and does so unless one of them ends it by a fault. -/
theorem find?_perform (op : Operation)
    (hok : ∀ time, ∀ job ∈ s.jobs.values, (refresh time job).result = .ok ()) :
    (op.perform s).state.find? id = op.effect s.source s.now id (s.find? id) := by
  cases op with
  | add id' name expression metadata =>
    rw [Operation.perform, Action.state_map]
    exact find?_add id' name expression metadata s id
  | remove id' =>
    rw [Operation.perform, Action.state_map]
    exact find?_remove id' s id
  | clear => rfl
  | setTime time =>
    rw [Operation.perform, Action.state_map, state_setTime]
    exact Register.find?_each_of_ok (hok time)
  | advance seconds => rfl
  | transition id' t =>
    rw [Operation.perform, Action.state_map]
    exact find?_transition t id' s id
  | takeReport r =>
    rw [Operation.perform, Action.state_map, state_takeReport]
    exact find?_transition (reported r) r.jobId s id

end Scheduler

/-! ## The identifiers of jobs -/

namespace Job

theorem id_reschedule (now : Int) (job : Job) : (reschedule now job).state.id = job.id := by
  rcases reschedule_cases now job with h | ⟨run, h⟩
  · rw [h]
  · rw [h]

theorem id_perform (t : Transition) (now : Int) (job : Job) : (t.perform now job).state.id = job.id := by
  have hwrite : (t.write now job).id = job.id := by
    cases t <;> rfl
  rw [state_perform]
  by_cases h : t.reschedules = true
  · rw [if_pos h, id_reschedule, hwrite]
  · rw [if_neg h, hwrite]

theorem id_refresh (now : Int) (job : Job) : (Scheduler.refresh now job).state.id = job.id := by
  unfold Scheduler.refresh
  split
  · exact id_reschedule now job
  · rfl

end Job

namespace Scheduler

variable {source : TriggerSource} {s : Scheduler} {id : String} {job : Job}

theorem id_newJob? {now : Int} {name expression metadata : String}
    (h : newJob? source now id name expression metadata = some job) : job.id = id := by
  rcases newJob?_eq_some h with ⟨created, hcreated, -, -, rfl⟩
  rw [Job.create_result] at hcreated
  rcases exists_of_map_eq_ok hcreated with ⟨trigger, -, rfl⟩
  exact Job.id_reschedule now _

/-- Every identifier is registered once, and names a job that calls itself by it. -/
structure Consistent (s : Scheduler) : Prop where
  nodup : s.ids.Nodup
  id_eq : ∀ {id : String} {job : Job}, s.find? id = some job → job.id = id

theorem consistent_of_empty (h : s.jobs = .empty) : s.Consistent := by
  refine ⟨?_, fun {id job} hjob => ?_⟩
  · rw [ids, h]
    exact List.nodup_nil
  · rw [find?, h] at hjob
    exact absurd hjob (by simp [Register.empty, Register.find?])

theorem Consistent.add (h : s.Consistent) (id' name expression metadata : String) :
    (add id' name expression metadata s).state.Consistent := by
  refine ⟨?_, fun {id job} hjob => ?_⟩
  · rw [state_add]
    by_cases hhas : s.has id' = true
    · rw [if_pos hhas]
      exact h.nodup
    · rw [if_neg hhas]
      cases newJob? s.source s.now id' name expression metadata with
      | none => exact h.nodup
      | some job =>
        show (s.jobs.add id' job).keys.Nodup
        have hnew : id' ∉ s.jobs.keys := Register.find?_eq_none_iff.mp (find?_of_not_has hhas)
        rw [Register.keys_add, List.nodup_append]
        refine ⟨h.nodup, List.pairwise_singleton _ id', fun old hold new hmem heq => hnew ?_⟩
        rw [← List.mem_singleton.mp hmem, ← heq]
        exact hold
  · rw [find?_add, Option.or_eq_some_iff] at hjob
    rcases hjob with hold | ⟨-, hnew⟩
    · exact h.id_eq hold
    · by_cases hid : id = id'
      · rw [if_pos hid] at hnew
        exact (id_newJob? hnew).trans hid.symm
      · rw [if_neg hid] at hnew
        exact absurd hnew (by simp)

theorem Consistent.remove (h : s.Consistent) (id' : String) : (remove id' s).state.Consistent := by
  refine ⟨?_, fun {id job} hjob => ?_⟩
  · rw [state_remove]
    by_cases hhas : s.has id' = true
    · rw [if_pos hhas]
      show (s.jobs.erase id').keys.Nodup
      rw [Register.keys_erase]
      exact h.nodup.filter _
    · rw [if_neg hhas]
      exact h.nodup
  · rw [find?_remove] at hjob
    by_cases hid : id = id'
    · rw [if_pos hid] at hjob
      exact absurd hjob (by simp)
    · rw [if_neg hid] at hjob
      exact h.id_eq hjob

theorem Consistent.setTime (h : s.Consistent) (time : Int) : (setTime time s).state.Consistent := by
  rw [state_setTime]
  refine ⟨?_, fun {id job} hjob => ?_⟩
  · show (Register.each (refresh time) s.jobs).state.keys.Nodup
    rw [Register.keys_each]
    exact h.nodup
  · rcases Register.find?_each_cases hjob with ⟨old, hold, rfl | rfl⟩
    · exact h.id_eq hold
    · rw [Job.id_refresh]
      exact h.id_eq hold

theorem Consistent.transition (h : s.Consistent) (id' : String) (t : Job.Transition) :
    (transition id' t s).state.Consistent := by
  refine ⟨?_, fun {id job} hjob => ?_⟩
  · rw [state_transition]
    split
    · exact h.nodup
    · show (s.jobs.replace id' _).keys.Nodup
      rw [Register.keys_replace]
      exact h.nodup
  · rw [find?_transition] at hjob
    by_cases hid : id = id'
    · rw [if_pos hid, Option.map_eq_some_iff] at hjob
      rcases hjob with ⟨old, hold, rfl⟩
      rw [Job.id_perform]
      exact h.id_eq hold
    · rw [if_neg hid] at hjob
      exact h.id_eq hjob

theorem Consistent.perform (h : s.Consistent) (op : Operation) : (op.perform s).state.Consistent := by
  cases op with
  | add id' name expression metadata =>
    rw [Operation.perform, Action.state_map]
    exact h.add id' name expression metadata
  | remove id' =>
    rw [Operation.perform, Action.state_map]
    exact h.remove id'
  | clear => exact consistent_of_empty rfl
  | setTime time =>
    rw [Operation.perform, Action.state_map]
    exact h.setTime time
  | advance seconds => exact ⟨h.nodup, h.id_eq⟩
  | transition id' t =>
    rw [Operation.perform, Action.state_map]
    exact h.transition id' t
  | takeReport r =>
    rw [Operation.perform, Action.state_map, state_takeReport]
    exact h.transition r.jobId _

theorem Reachable.consistent (h : Reachable source s) : s.Consistent := by
  induction h with
  | start now => exact consistent_of_empty rfl
  | perform op _ ih => exact ih.perform op

theorem Consistent.entry (h : s.Consistent) {entry : String × Job} (hentry : entry ∈ s.jobs.entries) :
    s.find? entry.1 = some entry.2 ∧ entry.2.id = entry.1 := by
  have hfound : s.find? entry.1 = some entry.2 := Register.find?_of_mem_entries h.nodup hentry
  exact ⟨hfound, h.id_eq hfound⟩

theorem Consistent.find?_of_mem_values (h : s.Consistent) (hjob : job ∈ s.jobs.values) :
    s.find? job.id = some job := by
  cases List.mem_map.mp hjob with
  | intro entry hentry =>
    have hfound := h.entry hentry.1
    rw [hentry.2] at hfound
    rw [hfound.2]
    exact hfound.1

/-- The due identifiers are those under which a due job is found. -/
theorem Consistent.mem_dueIds_iff (h : s.Consistent) :
    id ∈ s.dueIds ↔ ∃ job, s.find? id = some job ∧ job.isDue s.now = true := by
  rw [dueIds, List.mem_map]
  constructor
  · rintro ⟨job, hjob, rfl⟩
    rw [dueJobs, List.mem_filter] at hjob
    exact ⟨job, h.find?_of_mem_values hjob.1, hjob.2⟩
  · rintro ⟨job, hjob, hdue⟩
    exact ⟨job, List.mem_filter.mpr ⟨Register.mem_values_of_find? hjob, hdue⟩, h.id_eq hjob⟩

end Scheduler

end Timetable
