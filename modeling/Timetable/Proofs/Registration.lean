import Timetable.Proofs.FailedOperation

/-!
# Registrations in a history

Which operations put an identifier on the list of a scheduler, and which take it away.

* `Scheduler.ids_perform` says what one operation makes of the list of identifiers: the ones that it removes
  are left out, and the one that it registers comes last.
* `Scheduler.sinceRegistered` is what a history holds behind the latest registration of an identifier. An
  identifier is on the list exactly if nothing in there removes it (`Scheduler.mem_ids_iff_since`), and the
  list is in the order of those registrations (`Scheduler.pairwise_since`).

Nothing is asked of the trigger source here. A job is registered when its trigger is valid and its first run is
found. The answer says so unless that run falls into a year that cannot be written
(`Scheduler.answers_true_iff`).
-/

namespace Timetable

theorem map_timestampText_eq_ok_iff {α : Type} (time : Int) (a : α) :
    ((timestampText time).map fun _ => a) = .ok a ↔ YearFits time := by
  by_cases hfits : YearFits time
  · exact iff_of_true (map_timestampText hfits a) hfits
  · have hfault : timestampText time = .error .integerTooLong := if_neg hfits
    rw [hfault]
    exact iff_of_false (by simp [Except.map]) hfits

namespace Scheduler

variable {source : TriggerSource} {s : Scheduler} {id : String} {op : Operation} {ops : List Operation}

/-! ## One operation -/

/-- The identifier under which an operation registers a job: it adds one under an identifier that is free, and
a valid trigger with a first run comes of the expression. -/
def Operation.registered? (s : Scheduler) : Operation → Option String
  | .add id name expression metadata =>
    if s.has id then none else (newJob? s.source s.now id name expression metadata).map fun _ => id
  | .remove _ | .clear | .setTime _ | .advance _ | .transition .. | .takeReport _ => none

/-- Whether an operation takes away the job under an identifier. -/
def Operation.removes (id : String) : Operation → Bool
  | .remove id' => id' = id
  | .clear => true
  | .add .. | .setTime _ | .advance _ | .transition .. | .takeReport _ => false

theorem has_iff (s : Scheduler) (id : String) : s.has id = true ↔ id ∈ s.ids := by
  rw [has_eq, ids, ← Option.ne_none_iff_isSome, find?, Ne, Register.find?_eq_none_iff, not_not]

theorem mem_ids_iff (s : Scheduler) (id : String) : id ∈ s.ids ↔ ∃ job, s.find? id = some job := by
  rw [← has_iff, has_eq, Option.isSome_iff_exists]

theorem ids_transition (id : String) (t : Job.Transition) (s : Scheduler) :
    (transition id t s).state.ids = s.ids := by
  rw [state_transition]
  cases s.find? id with
  | none => rfl
  | some job => exact Register.keys_replace s.jobs id _

theorem filter_not_removes_of_none (h : ∀ id, op.removes id = false) :
    s.ids.filter (fun id => !op.removes id) = s.ids := by
  rw [List.filter_eq_self]
  intro id _
  rw [h id]
  rfl

/-- After an operation the list holds the identifiers that were on it and are not removed, in the order that
they had, and behind them the one that is registered. -/
theorem ids_perform (op : Operation) (s : Scheduler) :
    (op.perform s).state.ids = s.ids.filter (fun id => !op.removes id) ++ (op.registered? s).toList := by
  cases op with
  | add id name expression metadata =>
    rw [filter_not_removes_of_none fun _ => rfl, Operation.perform, Action.state_map, state_add,
      Operation.registered?]
    by_cases hid : s.has id = true
    · rw [if_pos hid, if_pos hid]
      exact (List.append_nil s.ids).symm
    · rw [if_neg hid, if_neg hid]
      cases newJob? s.source s.now id name expression metadata with
      | none => exact (List.append_nil s.ids).symm
      | some job => exact Register.keys_add s.jobs id job
  | remove id =>
    rw [Operation.perform, Action.state_map, state_remove]
    show _ = s.ids.filter (fun id' => !decide (id = id')) ++ []
    rw [List.append_nil]
    by_cases hid : s.has id = true
    · rw [if_pos hid]
      show (s.jobs.erase id).keys = _
      rw [Register.keys_erase]
      apply List.filter_congr
      intro id' _
      by_cases heq : id = id'
      · simp [heq]
      · simp [heq, Ne.symm heq]
    · rw [if_neg hid]
      symm
      rw [List.filter_eq_self]
      intro id' hmem
      have hne : id ≠ id' := fun heq => hid ((has_iff s id).mpr (heq ▸ hmem))
      simp [hne]
  | clear =>
    have hnone : s.ids.filter (fun id => !Operation.clear.removes id) = [] := by
      rw [List.filter_eq_nil_iff]
      exact fun id _ => Bool.false_ne_true
    rw [hnone]
    rfl
  | setTime time =>
    rw [filter_not_removes_of_none fun _ => rfl, Operation.perform, Action.state_map, state_setTime]
    show (Register.each (refresh time) s.jobs).state.keys = s.jobs.keys ++ []
    rw [Register.keys_each, List.append_nil]
  | advance seconds =>
    rw [filter_not_removes_of_none fun _ => rfl]
    exact (List.append_nil s.ids).symm
  | transition id t =>
    rw [filter_not_removes_of_none fun _ => rfl, Operation.perform, Action.state_map, ids_transition]
    exact (List.append_nil s.ids).symm
  | takeReport r =>
    rw [filter_not_removes_of_none fun _ => rfl, Operation.perform, Action.state_map, state_takeReport,
      ids_transition]
    exact (List.append_nil s.ids).symm

theorem not_mem_of_registered (h : op.registered? s = some id) : id ∉ s.ids := by
  cases op with
  | add id' name expression metadata =>
    rw [Operation.registered?] at h
    by_cases hid : s.has id' = true
    · rw [if_pos hid] at h
      exact absurd h (by simp)
    · rw [if_neg hid, Option.map_eq_some_iff] at h
      rcases h with ⟨-, -, rfl⟩
      rw [← has_iff]
      exact hid
  | remove | clear | setTime | advance | transition | takeReport => exact absurd h (by simp [Operation.registered?])

theorem mem_ids_perform :
    id ∈ (op.perform s).state.ids ↔ (id ∈ s.ids ∧ op.removes id = false) ∨ op.registered? s = some id := by
  rw [ids_perform, List.mem_append, List.mem_filter, Bool.not_eq_true', Option.mem_toList]

theorem addAnswer_eq_ok_iff (source : TriggerSource) (now : Int) (id name expression metadata : String) :
    addAnswer source now id name expression metadata = .ok true ↔
      ∃ job, newJob? source now id name expression metadata = some job ∧ YearFits job.nextRun := by
  unfold addAnswer newJob?
  cases (Job.create source id name expression metadata).result with
  | error e => exact iff_of_false (by simp [bind, Except.bind]) (by simp)
  | ok job =>
    show (if job.trigger.isValid then _ else _) = Except.ok true ↔
      ∃ new, (if job.trigger.isValid && _ then _ else _) = some new ∧ _
    by_cases hvalid : job.trigger.isValid = true
    · rw [if_pos hvalid, hvalid, Bool.true_and, Action.exec]
      cases (Job.reschedule now job).result with
      | error e => exact iff_of_false (by simp [bind, Except.bind, Except.map]) (by simp [Except.isOk, Except.toBool])
      | ok _ =>
        show ((timestampText (Job.reschedule now job).state.nextRun).map fun _ => true) = .ok true ↔
          ∃ new, some (Job.reschedule now job).state = some new ∧ YearFits new.nextRun
        rw [map_timestampText_eq_ok_iff]
        simp
    · rw [if_neg hvalid, Bool.eq_false_iff.mpr hvalid, Bool.false_and]
      exact iff_of_false (by simp) (by simp)

/-- Adding answers that it did exactly if it registers the job and can write the time of the first run. -/
theorem answers_true_iff (name expression metadata : String) :
    ((Operation.add id name expression metadata).perform s).result = .ok (some true) ↔
      (Operation.add id name expression metadata).registered? s = some id ∧
        ∀ job, ((Operation.add id name expression metadata).perform s).state.find? id = some job →
          YearFits job.nextRun := by
  rw [Operation.perform, Action.state_map, Action.result_map, result_add, find?_add, if_pos rfl,
    Operation.registered?]
  by_cases hid : s.has id = true
  · rw [if_pos hid, if_pos hid]
    exact iff_of_false (by simp [Except.map]) (by simp)
  · have hanswer : ∀ x : Except Fault Bool, x.map some = .ok (some true) ↔ x = .ok true := by
      intro x
      cases x with
      | error e => simp [Except.map]
      | ok done => simp [Except.map]
    rw [if_neg hid, if_neg hid, find?_of_not_has hid, Option.none_or, hanswer, addAnswer_eq_ok_iff]
    cases newJob? s.source s.now id name expression metadata with
    | none => simp
    | some job => simp

/-! ## Whole histories -/

/-- The operations of a history behind the latest one that registered a job under an identifier. -/
def sinceRegistered (id : String) : Scheduler → List Operation → Option (List Operation)
  | _, [] => none
  | s, op :: ops =>
    (sinceRegistered id (op.perform s).state ops).or (if op.registered? s = some id then some ops else none)

theorem sinceRegistered_append_singleton (id : String) (s : Scheduler) (ops : List Operation) (op : Operation) :
    sinceRegistered id s (ops ++ [op]) =
      if op.registered? (s.run ops) = some id then some []
      else (sinceRegistered id s ops).map fun later => later ++ [op] := by
  induction ops generalizing s with
  | nil =>
    show (none : Option (List Operation)).or (if op.registered? s = some id then some [] else none) = _
    rw [Option.none_or]
    rfl
  | cons first ops ih =>
    show (sinceRegistered id (first.perform s).state (ops ++ [op])).or
      (if first.registered? s = some id then some (ops ++ [op]) else none) = _
    rw [ih]
    show _ = if op.registered? ((first.perform s).state.run ops) = some id then some [] else
      ((sinceRegistered id (first.perform s).state ops).or
        (if first.registered? s = some id then some ops else none)).map _
    by_cases hlast : op.registered? ((first.perform s).state.run ops) = some id
    · rw [if_pos hlast, if_pos hlast, Option.some_or]
    · rw [if_neg hlast, if_neg hlast, Option.map_or]
      by_cases hfirst : first.registered? s = some id
      · rw [if_pos hfirst, if_pos hfirst]
        rfl
      · rw [if_neg hfirst, if_neg hfirst]
        rfl

/-- An identifier is on the list exactly if it was registered and has not been removed since. -/
theorem mem_ids_iff_since (now : Int) (ops : List Operation) :
    id ∈ ((start source now).run ops).ids ↔
      ∃ later, sinceRegistered id (start source now) ops = some later ∧
        ∀ op ∈ later, op.removes id = false := by
  induction ops using List.reverseRecOn with
  | nil =>
    show id ∈ ([] : List String) ↔ ∃ later, none = some later ∧ _
    simp
  | append_singleton ops op ih =>
    rw [run_append_singleton, mem_ids_perform, sinceRegistered_append_singleton, ih]
    by_cases hop : op.registered? ((start source now).run ops) = some id
    · rw [if_pos hop]
      exact iff_of_true (.inr hop) ⟨[], rfl, by simp⟩
    · rw [if_neg hop, or_iff_left hop]
      simp only [Option.map_eq_some_iff]
      constructor
      · intro h
        rcases h with ⟨⟨later, hlater, hkept⟩, hlast⟩
        refine ⟨later ++ [op], ⟨later, hlater, rfl⟩, ?_⟩
        rw [List.forall_mem_append, List.forall_mem_singleton]
        exact ⟨hkept, hlast⟩
      · intro h
        rcases h with ⟨-, ⟨later, hlater, rfl⟩, hkept⟩
        rw [List.forall_mem_append, List.forall_mem_singleton] at hkept
        exact ⟨⟨later, hlater, hkept.1⟩, hkept.2⟩

/-- The latest registration of one identifier came before that of another. -/
def RegisteredBefore (s : Scheduler) (ops : List Operation) (a b : String) : Prop :=
  ∀ laterA laterB, sinceRegistered a s ops = some laterA → sinceRegistered b s ops = some laterB →
    laterB.length < laterA.length

theorem RegisteredBefore.append_singleton {a b : String} (h : RegisteredBefore s ops a b)
    (ha : op.registered? (s.run ops) ≠ some a) (hb : op.registered? (s.run ops) ≠ some b) :
    RegisteredBefore s (ops ++ [op]) a b := by
  intro laterA laterB hlaterA hlaterB
  rw [sinceRegistered_append_singleton, if_neg ha, Option.map_eq_some_iff] at hlaterA
  rw [sinceRegistered_append_singleton, if_neg hb, Option.map_eq_some_iff] at hlaterB
  rcases hlaterA with ⟨la, hla, rfl⟩
  rcases hlaterB with ⟨lb, hlb, rfl⟩
  rw [List.length_append, List.length_append]
  have hlt := h la lb hla hlb
  omega

theorem registeredBefore_of_registered {a b : String} (ha : op.registered? (s.run ops) ≠ some a)
    (hb : op.registered? (s.run ops) = some b) : RegisteredBefore s (ops ++ [op]) a b := by
  intro laterA laterB hlaterA hlaterB
  rw [sinceRegistered_append_singleton, if_neg ha, Option.map_eq_some_iff] at hlaterA
  rw [sinceRegistered_append_singleton, if_pos hb] at hlaterB
  rcases hlaterA with ⟨la, -, rfl⟩
  rw [← Option.some.inj hlaterB, List.length_append]
  exact Nat.succ_pos la.length

/-- The list is in the order of the latest registrations. -/
theorem pairwise_since (now : Int) (ops : List Operation) :
    ((start source now).run ops).ids.Pairwise (RegisteredBefore (start source now) ops) := by
  induction ops using List.reverseRecOn with
  | nil => exact List.Pairwise.nil
  | append_singleton ops op ih =>
    -- What was on the list is not registered anew, and keeps its order.
    have hold : ∀ a ∈ ((start source now).run ops).ids, op.registered? ((start source now).run ops) ≠ some a :=
      fun a ha hregistered => not_mem_of_registered hregistered ha
    rw [run_append_singleton, ids_perform, List.pairwise_append]
    refine ⟨?_, ?_, ?_⟩
    · apply List.Pairwise.filter
      apply List.Pairwise.imp_of_mem _ ih
      intro a b ha hb hbefore
      exact hbefore.append_singleton (hold a ha) (hold b hb)
    · cases op.registered? ((start source now).run ops) with
      | none => exact List.Pairwise.nil
      | some b => exact List.pairwise_singleton _ b
    · intro a ha b hb
      rw [Option.mem_toList] at hb
      exact registeredBefore_of_registered (hold a (List.mem_filter.mp ha).1) hb

end Scheduler

end Timetable
