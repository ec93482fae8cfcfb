import Mathlib.Algebra.BigOperators.Ring.Finset
import Mathlib.Algebra.Order.BigOperators.Group.List
import Mathlib.Algebra.Order.Field.Basic
import Timetable.Proofs.JobRecord
import Timetable.Proofs.OrderedJobs
import Timetable.Proofs.QuotientRounding

/-!
# Runs and failures that a history reports

A job counts the operations that have ended a run of it since it was registered, and those of them that
reported a failure (`Scheduler.counts_sinceRegistered`). One operation adds to the counts of a job that is
found before and behind it (`Scheduler.counts_perform`), and a new job starts at nothing. The tally adds the
counts up, and its rate is the share of successful runs, rounded (`Scheduler.runCounts_exact`).

An operation that writes the end of a run into a record and then ends in a fault has ended the run too, so
nothing is asked of the trigger source.
-/

namespace Timetable

/-! ## What is written into a record -/

namespace Job

variable {job job' : Job}

/-- Whether a transition ends a run, in one way or the other. -/
def Transition.endsRun : Transition → Bool
  | complete | fail => true
  | start | disable | enable | reset => false

/-- Whether a transition ends a run with a failure. -/
def Transition.failsRun : Transition → Bool
  | fail => true
  | start | complete | disable | enable | reset => false

theorem runCount_write (t : Transition) (now : Int) (job : Job) :
    (t.write now job).runCount = job.runCount + if t.endsRun then 1 else 0 := by
  cases t with
  | complete | fail => rfl
  | start | disable | enable | reset => exact (Int.add_zero job.runCount).symm

theorem failCount_write (t : Transition) (now : Int) (job : Job) :
    (t.write now job).failCount = job.failCount + if t.failsRun then 1 else 0 := by
  cases t with
  | fail => rfl
  | start | complete | disable | enable | reset => exact (Int.add_zero job.failCount).symm

theorem Rescheduled.runCount_eq (h : job.Rescheduled job') : job'.runCount = job.runCount := by
  rcases h with ⟨run, rfl⟩
  rfl

theorem Rescheduled.failCount_eq (h : job.Rescheduled job') : job'.failCount = job.failCount := by
  rcases h with ⟨run, rfl⟩
  rfl

end Job

theorem Tally.successRatio_mem {t : Tally} (h : 0 ≤ t.totalFailures) (hle : t.totalFailures ≤ t.totalRuns) :
    0 ≤ t.successRatio ∧ t.successRatio ≤ 1 := by
  unfold successRatio
  by_cases hruns : t.totalRuns = 0
  · rw [if_pos hruns]
    decide
  · have hpos : (0 : Rat) < t.totalRuns := Int.cast_pos.mpr (by omega)
    have hsuccesses : (0 : Rat) ≤ (t.totalRuns - t.totalFailures : Int) := Int.cast_nonneg (by omega)
    have hbound : ((t.totalRuns - t.totalFailures : Int) : Rat) ≤ t.totalRuns := Int.cast_le.mpr (by omega)
    rw [if_neg hruns]
    exact ⟨div_nonneg hsuccesses hpos.le, (div_le_one hpos).mpr hbound⟩

/-- The rate is the number nearest to the exact share. -/
theorem Tally.successRate_isNearest {t : Tally} (h : 0 ≤ t.totalFailures) (hle : t.totalFailures ≤ t.totalRuns) :
    ∃ rate, t.successRate = .ok rate ∧ rate.negative = false ∧ rate.IsNearest t.successRatio := by
  unfold successRate successRatio
  by_cases hruns : t.totalRuns = 0
  · rw [if_pos hruns, if_pos hruns]
    have hone := Binary64.isNearest_of_ofQuotient? (by decide : (0 : Int) ≤ 1) one_pos
      (by decide : Binary64.ofQuotient? 1 1 = some .one)
    rw [Int.cast_one, div_one] at hone
    exact ⟨.one, rfl, hone⟩
  · have hpos : 0 < t.totalRuns := by omega
    have hsuccesses : 0 ≤ t.totalRuns - t.totalFailures := by omega
    rw [if_neg hruns, if_neg hruns]
    rcases Binary64.exists_ofQuotient? hsuccesses hpos (by omega) with ⟨rate, hrate⟩
    rw [hrate]
    exact ⟨rate, rfl, Binary64.isNearest_of_ofQuotient? hsuccesses hpos hrate⟩

namespace Scheduler

variable {source : TriggerSource} {s : Scheduler} {id : String} {job job' : Job} {op : Operation}

/-! ## One operation -/

/-- Whether an operation ends a run of the job under an identifier: it completes or fails, or a report of it
is taken. -/
def Operation.endsRun (id : String) : Operation → Bool
  | .transition id' t => id = id' && t.endsRun
  | .takeReport r => id = r.jobId
  | .add .. | .remove _ | .clear | .setTime _ | .advance _ => false

/-- Whether an operation ends a run of the job under an identifier with a failure. -/
def Operation.failsRun (id : String) : Operation → Bool
  | .transition id' t => id = id' && t.failsRun
  | .takeReport r => id = r.jobId && !r.success
  | .add .. | .remove _ | .clear | .setTime _ | .advance _ => false

theorem any_transitionOf {id' : String} {t : Job.Transition} (h : op.transition? = some (id', t))
    (p : Job.Transition → Bool) : (op.transitionOf id).any p = (id = id' && p t) := by
  rw [Operation.transitionOf, h]
  show (if id = id' then some t else none).any p = _
  by_cases hid : id = id'
  · rw [if_pos hid, decide_eq_true hid, Bool.true_and]
    rfl
  · rw [if_neg hid, decide_eq_false hid, Bool.false_and]
    rfl

theorem endsRun_eq (id : String) (op : Operation) :
    op.endsRun id = (op.transitionOf id).any (·.endsRun) := by
  cases op with
  | add | remove | clear | setTime | advance => rfl
  | transition id' t => exact (any_transitionOf rfl _).symm
  | takeReport r =>
    have hreported : (Operation.takeReport r).transition? = some (r.jobId, reported r) := rfl
    have hends : (reported r).endsRun = true := by
      unfold reported
      split
      · rfl
      · rfl
    rw [any_transitionOf hreported, hends, Bool.and_true]
    rfl

theorem failsRun_eq (id : String) (op : Operation) :
    op.failsRun id = (op.transitionOf id).any (·.failsRun) := by
  cases op with
  | add | remove | clear | setTime | advance => rfl
  | transition id' t => exact (any_transitionOf rfl _).symm
  | takeReport r =>
    have hreported : (Operation.takeReport r).transition? = some (r.jobId, reported r) := rfl
    have hfails : (reported r).failsRun = !r.success := by
      unfold reported
      cases r.success with
      | true => rfl
      | false => rfl
    rw [any_transitionOf hreported, hfails]
    rfl

theorem endsRun_of_failsRun (h : op.failsRun id = true) : op.endsRun id = true := by
  rw [failsRun_eq, Option.any_eq_true] at h
  rcases h with ⟨t, ht, hfails⟩
  rw [endsRun_eq, ht, Option.any_some]
  cases t with
  | fail => rfl
  | start | complete | disable | enable | reset => exact absurd hfails Bool.false_ne_true

/-- An operation adds to the counts of a job that is found before it and behind it. -/
theorem counts_perform (op : Operation) (h : s.find? id = some job)
    (h' : (op.perform s).state.find? id = some job') :
    job'.runCount = job.runCount + (if op.endsRun id then 1 else 0) ∧
      job'.failCount = job.failCount + if op.failsRun id then 1 else 0 := by
  rcases find?_perform_rescheduled op h' with ⟨hnone, -⟩ | ⟨old, hold, hjob⟩
  · exact absurd (h.symm.trans hnone) (Option.some_ne_none job)
  · cases Option.some.inj (hold.symm.trans h)
    rw [hjob.runCount_eq, hjob.failCount_eq, endsRun_eq, failsRun_eq]
    cases op.transitionOf id with
    | none => exact ⟨(Int.add_zero _).symm, (Int.add_zero _).symm⟩
    | some t => exact ⟨Job.runCount_write t s.now job, Job.failCount_write t s.now job⟩

/-- A job that is found only behind an operation is registered by it, and has no runs. -/
theorem registered_of_find?_none (op : Operation) (h : s.find? id = none)
    (h' : (op.perform s).state.find? id = some job') :
    op.registered? s = some id ∧ job'.runCount = 0 ∧ job'.failCount = 0 := by
  constructor
  · have hmem : id ∈ (op.perform s).state.ids := (mem_ids_iff _ id).mpr ⟨job', h'⟩
    rw [mem_ids_perform, mem_ids_iff, h] at hmem
    apply hmem.resolve_left
    intro hbefore
    cases hbefore.1 with
    | intro job hjob => exact absurd hjob.symm (Option.some_ne_none job)
  · rcases find?_perform_rescheduled op h' with ⟨-, name, metadata, trigger, hjob⟩ | ⟨old, hold, -⟩
    · exact ⟨hjob.runCount_eq, hjob.failCount_eq⟩
    · exact absurd (hold.symm.trans h) (Option.some_ne_none old)

/-! ## Whole histories -/

/-- How many operations of a history have ended a run of the job under an identifier since it was
registered. -/
def endedRuns (id : String) (s : Scheduler) (ops : List Operation) : Nat :=
  ((sinceRegistered id s ops).getD []).countP (·.endsRun id)

/-- How many of them have reported a failure. -/
def failedRuns (id : String) (s : Scheduler) (ops : List Operation) : Nat :=
  ((sinceRegistered id s ops).getD []).countP (·.failsRun id)

theorem failedRuns_le (id : String) (s : Scheduler) (ops : List Operation) :
    failedRuns id s ops ≤ endedRuns id s ops :=
  List.countP_mono_left fun _ _ => endsRun_of_failsRun

theorem countP_append_singleton (p : Operation → Bool) (later : List Operation) (op : Operation) :
    ((later ++ [op]).countP p : Int) = later.countP p + if p op then 1 else 0 := by
  rw [List.countP_append, List.countP_singleton, Int.natCast_add]
  cases p op with
  | true => rfl
  | false => rfl

/-- A job has counted the ends of runs, and the failures among them, behind its registration. -/
theorem counts_sinceRegistered (now : Int) (ops : List Operation)
    (h : ((start source now).run ops).find? id = some job) :
    ∃ later, sinceRegistered id (start source now) ops = some later ∧
      job.runCount = later.countP (·.endsRun id) ∧ job.failCount = later.countP (·.failsRun id) := by
  induction ops using List.reverseRecOn generalizing job with
  | nil => exact absurd ((find?_start source now id).symm.trans h) (Option.some_ne_none job).symm
  | append_singleton ops op ih =>
    rw [run_append_singleton] at h
    rw [sinceRegistered_append_singleton]
    cases hbefore : ((start source now).run ops).find? id with
    | none =>
      have hnew := registered_of_find?_none op hbefore h
      rw [if_pos hnew.1]
      exact ⟨[], rfl, hnew.2⟩
    | some old =>
      have hmem : id ∈ ((start source now).run ops).ids := (mem_ids_iff _ id).mpr ⟨old, hbefore⟩
      have hold : op.registered? ((start source now).run ops) ≠ some id :=
        fun hregistered => not_mem_of_registered hregistered hmem
      rcases ih hbefore with ⟨later, hlater, hruns, hfailures⟩
      have hstep := counts_perform op hbefore h
      rw [if_neg hold, hlater]
      refine ⟨later ++ [op], rfl, ?_, ?_⟩
      · rw [countP_append_singleton, ← hruns]
        exact hstep.1
      · rw [countP_append_singleton, ← hfailures]
        exact hstep.2

theorem counts_eq (now : Int) (ops : List Operation) (h : ((start source now).run ops).find? id = some job) :
    job.runCount = endedRuns id (start source now) ops ∧
      job.failCount = failedRuns id (start source now) ops := by
  rcases counts_sinceRegistered now ops h with ⟨later, hlater, hcounts⟩
  rw [endedRuns, failedRuns, hlater]
  exact hcounts

theorem Consistent.total_eq (h : s.Consistent) {count : Job → Int} {counted : String → Nat}
    (hcount : ∀ id job, s.find? id = some job → count job = counted id) :
    s.total count = (s.ids.map counted).sum := by
  rw [← h.sumListed_eq, sumListed, Nat.cast_list_sum, List.map_map]
  congr 1
  apply List.map_congr_left
  intro id hid
  rw [mem_ids_iff] at hid
  rcases hid with ⟨job, hjob⟩
  rw [hjob]
  exact hcount id job hjob

/-- After any history every job that is found has counted the operations that ended a run of it since it was
registered, and those that reported a failure. An operation adds one to the counts that it is counted in and
nothing to all others. The tally adds up what the jobs on the list have counted. The share of successful runs is
the quotient of these sums, or 1 without runs, and so lies between none and all; the rate is the number nearest to
it. -/
theorem runCounts_exact (now : Int) (ops : List Operation) (hrun : (start source now).run ops = s) :
    (∀ (id : String) (job : Job), s.find? id = some job →
      (∃ later, sinceRegistered id (start source now) ops = some later ∧
        job.runCount = later.countP (·.endsRun id) ∧ job.failCount = later.countP (·.failsRun id)) ∧
      0 ≤ job.failCount ∧ job.failCount ≤ job.runCount) ∧
      (∀ (op : Operation) (id : String) (job job' : Job), s.find? id = some job →
        (op.perform s).state.find? id = some job' →
        job'.runCount = job.runCount + (if op.endsRun id then 1 else 0) ∧
          job'.failCount = job.failCount + if op.failsRun id then 1 else 0) ∧
      s.tally.totalRuns = (s.ids.map fun id => endedRuns id (start source now) ops).sum ∧
      s.tally.totalFailures = (s.ids.map fun id => failedRuns id (start source now) ops).sum ∧
      0 ≤ s.tally.totalFailures ∧ s.tally.totalFailures ≤ s.tally.totalRuns ∧
      0 ≤ s.tally.successRatio ∧ s.tally.successRatio ≤ 1 ∧
      (s.tally.totalRuns = 0 → s.tally.successRatio = 1 ∧ s.tally.successRate = .ok .one) ∧
      (s.tally.totalRuns ≠ 0 → s.tally.successRatio =
        ((s.tally.totalRuns - s.tally.totalFailures : Int) : Rat) / s.tally.totalRuns) ∧
      ∃ rate, s.tally.successRate = .ok rate ∧ rate.negative = false ∧
        rate.IsNearest s.tally.successRatio := by
  have hconsistent : s.Consistent := hrun ▸ ((Reachable.start now).run ops).consistent
  have hcounts : ∀ (id : String) (job : Job), s.find? id = some job →
      job.runCount = endedRuns id (start source now) ops ∧
        job.failCount = failedRuns id (start source now) ops :=
    fun id job hjob => counts_eq now ops (hrun ▸ hjob)
  have hruns : s.tally.totalRuns = (s.ids.map fun id => endedRuns id (start source now) ops).sum :=
    hconsistent.total_eq fun id job hjob => (hcounts id job hjob).1
  have hfailures : s.tally.totalFailures = (s.ids.map fun id => failedRuns id (start source now) ops).sum :=
    hconsistent.total_eq fun id job hjob => (hcounts id job hjob).2
  have hle : (s.ids.map fun id => failedRuns id (start source now) ops).sum ≤
      (s.ids.map fun id => endedRuns id (start source now) ops).sum :=
    List.sum_le_sum fun id _ => failedRuns_le id (start source now) ops
  have hnonneg : 0 ≤ s.tally.totalFailures := by omega
  have hbound : s.tally.totalFailures ≤ s.tally.totalRuns := by omega
  have hratio := Tally.successRatio_mem hnonneg hbound
  refine ⟨?_, fun op id job job' hjob hjob' => counts_perform op hjob hjob', hruns, hfailures, hnonneg, hbound,
    hratio.1, hratio.2, fun hnone => ⟨if_pos hnone, if_pos hnone⟩, fun hsome => if_neg hsome,
    Tally.successRate_isNearest hnonneg hbound⟩
  intro id job hjob
  have hjobLe := failedRuns_le id (start source now) ops
  have hjobCounts := hcounts id job hjob
  refine ⟨counts_sinceRegistered now ops (hrun ▸ hjob), ?_, ?_⟩
  · omega
  · omega

-- A backup fails and is removed, and is added again. Then it fails once more, completes and is reset, while a
-- failure of an unknown job is reported.
def failedAgain : List Operation :=
  [.add "backup" "Backup" "0 0 * * *" "", .transition "backup" .start, .transition "backup" .fail,
    .remove "backup", .add "backup" "Backup" "0 0 * * *" "",
    .takeReport ⟨"backup", false, 0, 60, "disk full", ""⟩, .takeReport ⟨"mail", false, 0, 60, "", ""⟩,
    .transition "backup" .complete, .transition "backup" .reset]

theorem runCounts_exact_failedAgain :
    (∃ job, ((start .cron 0).run failedAgain).find? "backup" = some job ∧
      job.runCount = 2 ∧ job.failCount = 1) ∧
      ((start .cron 0).run failedAgain).tally.totalRuns = 2 ∧
      ((start .cron 0).run failedAgain).tally.totalFailures = 1 ∧
      ((start .cron 0).run failedAgain).tally.successRatio = 1 / 2 ∧
      ((start .cron 0).run failedAgain).tally.successRate = .ok ⟨false, 0x3fe0000000000000⟩ ∧
      Binary64.IsNearest ⟨false, 0x3fe0000000000000⟩ (1 / 2) := by
  have hids : ((start .cron 0).run failedAgain).ids = ["backup"] := by decide +kernel
  have hsince : sinceRegistered "backup" (start .cron 0) failedAgain = some (failedAgain.drop 5) := by
    decide +kernel
  have hfound : (((start .cron 0).run failedAgain).find? "backup").isSome = true := by decide +kernel
  have hrate : ((start .cron 0).run failedAgain).tally.successRate = .ok ⟨false, 0x3fe0000000000000⟩ := by
    decide +kernel
  have hrun : (start .cron 0).run failedAgain = (start .cron 0).run failedAgain := rfl
  obtain ⟨hjobs, -, hruns, hfailures, -, -, -, -, -, hratio, rate, hrounded, -, hnearest⟩ :=
    runCounts_exact 0 failedAgain hrun
  rw [hids] at hruns hfailures
  rw [Option.isSome_iff_exists] at hfound
  rcases hfound with ⟨job, hjob⟩
  rcases (hjobs "backup" job hjob).1 with ⟨later, hlater, hjobRuns, hjobFailures⟩
  cases Option.some.inj (hlater.symm.trans hsince)
  have htotalRuns : ((start .cron 0).run failedAgain).tally.totalRuns = 2 := by
    rw [hruns, List.map_singleton, List.sum_singleton, endedRuns, hsince]
    rfl
  have htotalFailures : ((start .cron 0).run failedAgain).tally.totalFailures = 1 := by
    rw [hfailures, List.map_singleton, List.sum_singleton, failedRuns, hsince]
    rfl
  have hhalf : ((start .cron 0).run failedAgain).tally.successRatio = 1 / 2 := by
    rw [hratio (by rw [htotalRuns]; decide), htotalRuns, htotalFailures]
    rfl
  rw [hhalf] at hnearest
  obtain rfl := Except.ok.inj (hrounded.symm.trans hrate)
  exact ⟨⟨job, hjob, hjobRuns, hjobFailures⟩, htotalRuns, htotalFailures, hhalf, hrate, hnearest⟩

end Scheduler

end Timetable
