import Mathlib.Data.List.Find
import Mathlib.Data.List.Nodup
import Timetable.Proofs.Registration
import Timetable.Scheduler.Tally

/-!
# Jobs in the order of their registration

After any history a scheduler holds its jobs in the order in which they were registered, and its queries all
describe the one list of identifiers and what is found under them (`Scheduler.Listed`). What stands on the
list, and in which order, follows from the history alone (`Scheduler.jobs_ordered`).
-/

namespace Timetable

/-! ## Entries with distinct keys -/

theorem Register.find?_eq_map_find? {α : Type} (r : Register α) (key : String) :
    r.find? key = (r.entries.find? fun entry => entry.1 == key).map (·.2) := by
  cases r with
  | mk entries =>
    show entries.lookup key = _
    induction entries with
    | nil => rfl
    | cons entry rest ih =>
      cases entry with
      | mk name value =>
        rw [lookup_cons_eq, List.find?_cons]
        by_cases hkey : key = name
        · rw [if_pos hkey, hkey, beq_self_eq_true]
          rfl
        · rw [if_neg hkey, beq_eq_false_iff_ne.mpr (Ne.symm hkey)]
          exact ih

theorem idxOf?_eq_some_iff_of_nodup {ids : List String} (h : ids.Nodup) {id : String} {i : Nat} :
    ids.idxOf? id = some i ↔ ids[i]? = some id := by
  rw [List.idxOf?_eq_some_iff, List.getElem?_eq_some_iff]
  constructor
  · intro hfound
    rcases hfound with ⟨hi, hid, -⟩
    exact ⟨hi, hid⟩
  · intro hfound
    rcases hfound with ⟨hi, hid⟩
    refine ⟨hi, hid, ?_⟩
    intro j hj heq
    have hsame : j = i := h.getElem_inj_iff.mp (heq.trans hid.symm)
    omega

namespace Scheduler

variable {source : TriggerSource} {s : Scheduler} {id : String} {job : Job}

/-! ## The list that the queries describe -/

/-- How many of the identifiers on the list have a job with a property. -/
def countListed (s : Scheduler) (p : Job → Bool) : Nat := s.ids.countP fun id => (s.find? id).any p

/-- The sum of a number of each job, along the list of identifiers. -/
def sumListed (s : Scheduler) (count : Job → Int) : Int :=
  (s.ids.map fun id => (s.find? id).elim 0 count).sum

/-- The queries describe one list of identifiers and the jobs that are found under them. -/
structure Listed (s : Scheduler) : Prop where
  index_eq_iff : ∀ (id : String) (i : Nat), s.index id = i ↔ s.ids[i]? = some id
  index_eq_notFound_iff : ∀ id : String, s.index id = notFound ↔ id ∉ s.ids
  has_iff_mem : ∀ id : String, s.has id = true ↔ id ∈ s.ids
  map_id_values : s.jobs.values.map (·.id) = s.ids
  find?_eq : ∀ id : String, s.find? id = s.jobs.values.find? (·.id == id)
  jobCount_eq : s.jobCount = s.ids.length
  dueIds_eq : s.dueIds = s.ids.filter fun id => (s.find? id).any (·.isDue s.now)
  dueCount_eq : s.dueCount = s.dueIds.length
  tally_eq : s.tally = {
    totalJobs := s.ids.length
    enabledJobs := s.countListed (·.enabled)
    pendingJobs := s.countListed (·.status == .pending)
    runningJobs := s.countListed (·.status == .running)
    dueJobs := s.dueIds.length
    totalRuns := s.sumListed (·.runCount)
    totalFailures := s.sumListed (·.failCount) }

theorem index_eq (s : Scheduler) (id : String) : s.index id = (s.ids.idxOf? id).elim notFound Int.ofNat := by
  have hplace : s.jobs.indexOf? id = s.ids.idxOf? id := rfl
  unfold index
  rw [hplace]
  cases s.ids.idxOf? id with
  | none => rfl
  | some i => rfl

section

variable (h : s.Consistent)

include h

theorem Consistent.map_id_values : s.jobs.values.map (·.id) = s.ids := by
  show (s.jobs.entries.map (·.2)).map (·.id) = s.jobs.entries.map (·.1)
  rw [List.map_map]
  apply List.map_congr_left
  exact fun entry hentry => (h.entry hentry).2

theorem Consistent.find?_eq (id : String) : s.find? id = s.jobs.values.find? (·.id == id) := by
  show s.jobs.find? id = (s.jobs.entries.map (·.2)).find? _
  rw [Register.find?_eq_map_find?, List.find?_map]
  congr 1
  apply List.find?_congr
  intro entry hentry
  rw [Function.comp_apply, (h.entry hentry).2]

theorem Consistent.countListed_eq (p : Job → Bool) : s.countListed p = s.jobs.values.countP p := by
  show (s.jobs.entries.map (·.1)).countP _ = (s.jobs.entries.map (·.2)).countP _
  rw [List.countP_map, List.countP_map]
  apply List.countP_congr
  intro entry hentry
  rw [Function.comp_apply, (h.entry hentry).1]
  rfl

theorem Consistent.sumListed_eq (count : Job → Int) : s.sumListed count = s.total count := by
  have hvalues : (s.ids.map fun id => (s.find? id).elim 0 count) = s.jobs.values.map count := by
    show (s.jobs.entries.map (·.1)).map _ = (s.jobs.entries.map (·.2)).map _
    rw [List.map_map, List.map_map]
    apply List.map_congr_left
    intro entry hentry
    rw [Function.comp_apply, (h.entry hentry).1]
    rfl
  rw [sumListed, hvalues, List.sum_eq_foldr, List.foldr_map]
  rfl

theorem Consistent.dueIds_eq : s.dueIds = s.ids.filter fun id => (s.find? id).any (·.isDue s.now) := by
  show ((s.jobs.entries.map (·.2)).filter _).map (·.id) = (s.jobs.entries.map (·.1)).filter _
  rw [List.filter_map, List.filter_map, List.map_map]
  have hdue : s.jobs.entries.filter ((fun id => (s.find? id).any (·.isDue s.now)) ∘ (·.1)) =
      s.jobs.entries.filter ((·.isDue s.now) ∘ (·.2)) := by
    apply List.filter_congr
    intro entry hentry
    rw [Function.comp_apply, (h.entry hentry).1]
    rfl
  rw [hdue]
  apply List.map_congr_left
  exact fun entry hentry => (h.entry (List.mem_filter.mp hentry).1).2

theorem Consistent.index_eq_iff (id : String) (i : Nat) : s.index id = i ↔ s.ids[i]? = some id := by
  rw [← idxOf?_eq_some_iff_of_nodup h.nodup, s.index_eq]
  cases s.ids.idxOf? id with
  | none =>
    apply iff_of_false
    · show notFound ≠ (i : Int)
      unfold notFound
      omega
    · exact (Option.some_ne_none i).symm
  | some j =>
    show (j : Int) = i ↔ some j = some i
    rw [Int.ofNat_inj, Option.some_inj]

end

theorem index_eq_notFound_iff (s : Scheduler) (id : String) : s.index id = notFound ↔ id ∉ s.ids := by
  rw [← List.idxOf?_eq_none_iff, s.index_eq]
  cases s.ids.idxOf? id with
  | none => exact iff_of_true rfl rfl
  | some j =>
    apply iff_of_false
    · show (j : Int) ≠ notFound
      unfold notFound
      omega
    · exact Option.some_ne_none j

theorem dueCount_eq (s : Scheduler) : s.dueCount = s.dueIds.length := by
  rw [dueIds, List.length_map, dueJobs, ← List.countP_eq_length_filter]
  rfl

theorem jobCount_eq (s : Scheduler) : s.jobCount = s.ids.length := (List.length_map _).symm

theorem Consistent.listed (h : s.Consistent) : s.Listed where
  index_eq_iff := h.index_eq_iff
  index_eq_notFound_iff := s.index_eq_notFound_iff
  has_iff_mem := s.has_iff
  map_id_values := h.map_id_values
  find?_eq := h.find?_eq
  jobCount_eq := s.jobCount_eq
  dueIds_eq := h.dueIds_eq
  dueCount_eq := s.dueCount_eq
  tally_eq := by
    rw [h.countListed_eq, h.countListed_eq, h.countListed_eq, h.sumListed_eq, h.sumListed_eq,
      ← s.jobCount_eq, ← s.dueCount_eq]
    rfl

/-! ## After any history -/

/-- After any history every identifier stands on the list once, and names a job that calls itself by it. On
the list is what was registered and has not been removed since, in the order of the latest registrations. An
operation leaves out what it removes and puts what it registers at the end. Adding answers that it did exactly
if it registers the job, as long as the year of the first run can be written. All queries describe this
list. -/
theorem jobs_ordered (now : Int) (ops : List Operation) (hrun : (start source now).run ops = s) :
    s.ids.Nodup ∧ (∀ (id : String) (job : Job), s.find? id = some job → job.id = id) ∧
      (∀ id : String, id ∈ s.ids ↔ ∃ later, sinceRegistered id (start source now) ops = some later ∧
        ∀ op ∈ later, op.removes id = false) ∧
      s.ids.Pairwise (RegisteredBefore (start source now) ops) ∧
      (∀ op : Operation, (op.perform s).state.ids =
        s.ids.filter (fun id => !op.removes id) ++ (op.registered? s).toList) ∧
      (∀ id name expression metadata : String,
        ((Operation.add id name expression metadata).perform s).result = .ok (some true) ↔
          (Operation.add id name expression metadata).registered? s = some id ∧
            ∀ job, ((Operation.add id name expression metadata).perform s).state.find? id = some job →
              YearFits job.nextRun) ∧
      s.Listed := by
  have hconsistent : s.Consistent := hrun ▸ ((Reachable.start now).run ops).consistent
  refine ⟨hconsistent.nodup, fun id job => hconsistent.id_eq, ?_, ?_, fun op => ids_perform op s,
    fun id => answers_true_iff, hconsistent.listed⟩
  · intro id
    rw [← hrun]
    exact mem_ids_iff_since now ops
  · rw [← hrun]
    exact pairwise_since now ops

-- A report is added before a backup. A second one is refused, and the first is removed and added again.
def addedAgain : List Operation :=
  [.add "report" "Report" "0 6 * * *" "", .add "backup" "Backup" "0 0 * * *" "",
    .add "report" "Second report" "* * * * *" "", .remove "report", .setTime 86400,
    .add "report" "Report" "0 6 * * *" ""]

theorem jobs_ordered_addedAgain :
    ((start .cron 0).run addedAgain).ids = ["backup", "report"] ∧
      RegisteredBefore (start .cron 0) addedAgain "backup" "report" ∧
      ((start .cron 0).run addedAgain).index "report" = 1 ∧
      ((start .cron 0).run addedAgain).index "mail" = -1 := by
  have hids : ((start .cron 0).run addedAgain).ids = ["backup", "report"] := by decide +kernel
  have hrun : (start .cron 0).run addedAgain = (start .cron 0).run addedAgain := rfl
  have hordered := jobs_ordered 0 addedAgain hrun
  have hbefore := hordered.2.2.2.1
  have hlisted := hordered.2.2.2.2.2.2
  rw [hids] at hbefore
  refine ⟨hids, List.rel_of_pairwise_cons hbefore (List.mem_singleton_self "report"), ?_, ?_⟩
  · rw [← Nat.cast_one, hlisted.index_eq_iff, hids]
    rfl
  · show _ = notFound
    rw [hlisted.index_eq_notFound_iff, hids]
    decide

end Scheduler

end Timetable
