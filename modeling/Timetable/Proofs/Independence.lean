import Timetable.Proofs.OperationAnswer

/-!
# Independence of jobs

What becomes of a job depends on the operations that address it, on clearing and on the moves of the
clock, and on nothing else (`Scheduler.run_independent`).

* `Scheduler.AgreeOn` relates two states that no operation on one job can tell apart. An operation keeps
  them related when it is carried out in both, and when it is carried out in one of them and addresses
  another job.
* Triggers are taken to keep what they promise (`TriggerSource.Dependable`). A fault of one of them would keep
  the jobs behind it from learning that the clock was set (`Scheduler.not_run_independent_expired`).
-/

namespace Timetable

namespace Scheduler

variable {source : TriggerSource} {s t : Scheduler} {id : String} {op : Operation} {ops ops' : List Operation}

/-! ## One operation in two states -/

/-- Whether an operation bears on the job under an identifier: it addresses the job, or it clears the
jobs or moves the clock. -/
def Operation.concerns (id : String) (op : Operation) : Bool := op.address.all (· == id)

theorem Operation.effect_of_not_concerns (h : op.concerns id = false) (source : TriggerSource) (now : Int)
    (found : Option Job) : op.effect source now id found = found := by
  cases op with
  | add id' name expression metadata =>
    have hid : id ≠ id' := (beq_eq_false_iff_ne.mp h).symm
    rw [effect, if_neg hid, Option.or_none]
  | remove id' | transition id' t =>
    have hid : id ≠ id' := (beq_eq_false_iff_ne.mp h).symm
    exact if_neg hid
  | takeReport r =>
    have hid : id ≠ r.jobId := (beq_eq_false_iff_ne.mp h).symm
    exact if_neg hid
  | clear | setTime time | advance seconds => exact absurd h (by simp [concerns, address])

theorem Operation.clock_of_not_concerns (h : op.concerns id = false) (now : Int) : op.clock now = now := by
  cases op with
  | add | remove | transition | takeReport => rfl
  | clear | setTime time | advance seconds => exact absurd h (by simp [concerns, address])

/-- Two states have the same trigger source, the same time, and the same record under an identifier. -/
structure AgreeOn (id : String) (s t : Scheduler) : Prop where
  source_eq : s.source = t.source
  now_eq : s.now = t.now
  find?_eq : s.find? id = t.find? id

theorem AgreeOn.refl (id : String) (s : Scheduler) : AgreeOn id s s := ⟨rfl, rfl, rfl⟩

theorem AgreeOn.perform (hsource : source.Dependable) (hs : Reachable source s) (ht : Reachable source t)
    (h : AgreeOn id s t) (op : Operation) : AgreeOn id (op.perform s).state (op.perform t).state := by
  refine ⟨?_, ?_, ?_⟩
  · rw [(hs.perform op).source_eq, (ht.perform op).source_eq]
  · rw [now_perform, now_perform, h.now_eq]
  · rw [find?_perform op (hs.refresh_ok hsource), find?_perform op (ht.refresh_ok hsource), h.source_eq,
      h.now_eq, h.find?_eq]

theorem AgreeOn.perform_left (hsource : source.Dependable) (hs : Reachable source s) (h : AgreeOn id s t)
    (hop : op.concerns id = false) : AgreeOn id (op.perform s).state t := by
  refine ⟨?_, ?_, ?_⟩
  · rw [(hs.perform op).source_eq, ← hs.source_eq, h.source_eq]
  · rw [now_perform, Operation.clock_of_not_concerns hop, h.now_eq]
  · rw [find?_perform op (hs.refresh_ok hsource), Operation.effect_of_not_concerns hop, h.find?_eq]

theorem AgreeOn.result_eq (h : AgreeOn id s t) (hop : op.address = some id) :
    (op.perform s).result = (op.perform t).result := by
  rw [result_perform hop, result_perform hop, h.source_eq, h.now_eq, h.find?_eq]

/-! ## Whole runs -/

/-- The answers of the operations that address the job under an identifier, in order. -/
def answersTo (id : String) : Scheduler → List Operation → List (Except Fault (Option Bool))
  | _, [] => []
  | s, op :: ops =>
    if op.address = some id then (op.perform s).result :: answersTo id (op.perform s).state ops
    else answersTo id (op.perform s).state ops

-- By induction on the operations; an operation that is left out addresses another job.
theorem agreeOn_run (hsource : source.Dependable) (hs : Reachable source s) (ht : Reachable source t)
    (h : AgreeOn id s t) (ops : List Operation) :
    AgreeOn id (s.run ops) (t.run (ops.filter (·.concerns id))) ∧
      answersTo id s ops = answersTo id t (ops.filter (·.concerns id)) := by
  induction ops generalizing s t with
  | nil => exact ⟨h, rfl⟩
  | cons op ops ih =>
    by_cases hop : op.concerns id = true
    · rw [List.filter_cons_of_pos hop]
      have hrest := ih (hs.perform op) (ht.perform op) (h.perform hsource hs ht op)
      refine ⟨hrest.1, ?_⟩
      rw [answersTo, answersTo, hrest.2]
      by_cases hid : op.address = some id
      · rw [if_pos hid, if_pos hid, h.result_eq hid]
      · rw [if_neg hid, if_neg hid]
    · rw [List.filter_cons_of_neg hop]
      have hleft := h.perform_left hsource hs (Bool.not_eq_true _ ▸ hop)
      have hrest := ih (hs.perform op) ht hleft
      refine ⟨hrest.1, ?_⟩
      have hid : op.address ≠ some id := by
        intro hid
        exact hop (by rw [Operation.concerns, hid, Option.all_some, beq_self_eq_true])
      rw [answersTo, if_neg hid, hrest.2]

-- Runs that hold the same operations that concern a job, in the same order, cannot be told apart by it.
theorem agreeOn_of_filter_eq (hsource : source.Dependable) (now : Int)
    (h : ops.filter (·.concerns id) = ops'.filter (·.concerns id)) :
    ((start source now).run ops).find? id = ((start source now).run ops').find? id ∧
      answersTo id (start source now) ops = answersTo id (start source now) ops' := by
  have hstart : Reachable source (start source now) := .start now
  have hleft := agreeOn_run hsource hstart hstart (.refl id _) ops
  have hright := agreeOn_run hsource hstart hstart (.refl id _) ops'
  rw [h] at hleft
  exact ⟨hleft.1.find?_eq.trans hright.1.find?_eq.symm, hleft.2.trans hright.2.symm⟩

theorem filter_concerns_of_address (h : ∀ op ∈ ops, op.address ≠ none) (id : String) :
    ops.filter (·.concerns id) = ops.filter (·.address = some id) := by
  apply List.filter_congr
  intro op hop
  unfold Operation.concerns
  cases haddress : op.address with
  | none => exact absurd haddress (h op hop)
  | some id' =>
    rw [Option.all_some, Bool.eq_iff_iff, beq_iff_eq, decide_eq_true_eq]
    exact ⟨fun heq => heq ▸ rfl, fun heq => Option.some.inj heq⟩

/-- The record under an identifier, and the answers of the operations that address it, are the same when
the operations that address other jobs are left out. So they are when the operations between two moves of
the clock or clearings are put into another order that keeps the order for each identifier. -/
theorem run_independent (hsource : source.Dependable) (now : Int) (ops : List Operation) (id : String) :
    ((start source now).run ops).find? id =
        ((start source now).run (ops.filter (·.concerns id))).find? id ∧
      answersTo id (start source now) ops =
        answersTo id (start source now) (ops.filter (·.concerns id)) ∧
      ∀ before block block' after : List Operation, ops = before ++ block ++ after →
        (∀ op ∈ block, op.address ≠ none) → block.Perm block' →
        (∀ id', block.filter (·.address = some id') = block'.filter (·.address = some id')) →
        ((start source now).run (before ++ block' ++ after)).find? id =
            ((start source now).run ops).find? id ∧
          answersTo id (start source now) (before ++ block' ++ after) =
            answersTo id (start source now) ops := by
  have hfilter : ops.filter (·.concerns id) = (ops.filter (·.concerns id)).filter (·.concerns id) := by
    rw [List.filter_filter]
    simp only [Bool.and_self]
  have hrest := agreeOn_of_filter_eq hsource now hfilter
  refine ⟨hrest.1, hrest.2, ?_⟩
  intro before block block' after hops haddress hperm horder
  apply agreeOn_of_filter_eq hsource now
  have haddress' : ∀ op ∈ block', op.address ≠ none := fun op hop => haddress op (hperm.mem_iff.mpr hop)
  rw [hops, List.filter_append, List.filter_append, List.filter_append, List.filter_append,
    filter_concerns_of_address haddress id, filter_concerns_of_address haddress' id, horder id]

-- Two jobs, of which one starts and completes a run while the other is disabled.
def interleaved (block : List Operation) : List Operation :=
  [.add "backup" "Backup" "*/5 * * * *" "", .add "report" "Report" "0 0 * * *" ""] ++ block ++
    [.advance 300, .transition "backup" .complete]

theorem run_independent_interleaved :
    let block := [.transition "report" .disable, .transition "backup" .start]
    let ops := interleaved block
    ((start .cron 0).run ops).find? "backup" =
        ((start .cron 0).run [.add "backup" "Backup" "*/5 * * * *" "", .transition "backup" .start,
          .advance 300, .transition "backup" .complete]).find? "backup" ∧
      answersTo "backup" (start .cron 0) ops = [.ok (some true), .ok (some true), .ok (some true)] ∧
      ((start .cron 0).run (interleaved block.reverse)).find? "backup" =
        ((start .cron 0).run ops).find? "backup" := by
  intro block ops
  have hsource : TriggerSource.cron.Dependable := (TriggerSource.cronWithin_buildsSchedules _).dependable
  have hindependent := run_independent hsource 0 ops "backup"
  have horder : ∀ id', block.filter (·.address = some id') = block.reverse.filter (·.address = some id') := by
    intro id'
    by_cases hid : "backup" = id'
    · rw [← hid]
      rfl
    · have hbackup : (Operation.transition "backup" .start).address ≠ some id' := by
        simpa only [Operation.address, ne_eq, Option.some.injEq] using hid
      simp [block, List.filter_cons, hbackup]
  refine ⟨hindependent.1, ?_, ?_⟩
  · rw [hindependent.2.1]
    decide +kernel
  · exact (hindependent.2.2 _ block block.reverse _ rfl (by decide) (List.reverse_perm block).symm horder).1

-- One expression runs once, a minute after the epoch, and has no run to answer with after that. Whatever else is
-- asked for runs every minute.
def onceOrMinutely : TriggerSource := fun expression =>
  pure {
    expression
    isValid := true
    errorText := ""
    check := pure ()
    nextRun := fun now =>
      if expression = "once" && 60 ≤ now then Outcome.fault (.invalidSchedule expression "no run is left")
      else pure (now + 60) }

-- The job in front is asked for a run that it does not have, so that the clock is set without the one behind it.
theorem not_run_independent_expired :
    let ops : List Operation := [.add "launch" "Launch" "once" "", .add "poll" "Poll" "always" "", .setTime 60]
    ((start onceOrMinutely 0).run ops).find? "poll" ≠
        ((start onceOrMinutely 0).run (ops.filter (·.concerns "poll"))).find? "poll" ∧
      (((start onceOrMinutely 0).run ops).find? "poll").map (·.nextRun) = some 60 ∧
      (((start onceOrMinutely 0).run (ops.filter (·.concerns "poll"))).find? "poll").map (·.nextRun) =
        some 120 := by
  intro ops
  have hbehind : (((start onceOrMinutely 0).run ops).find? "poll").map (·.nextRun) = some 60 := by
    decide +kernel
  have halone : (((start onceOrMinutely 0).run (ops.filter (·.concerns "poll"))).find? "poll").map (·.nextRun) =
      some 120 := by
    decide +kernel
  refine ⟨fun hsame => ?_, hbehind, halone⟩
  rw [hsame, halone] at hbehind
  exact absurd hbehind (by decide)

end Scheduler

end Timetable
