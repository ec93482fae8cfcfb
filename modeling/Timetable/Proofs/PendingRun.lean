import Timetable.Proofs.DueRuns

/-!
# Runs that are pending

Of a schedule that was made with the usual bound on passes, the first run after a time is the same for every
time until it comes, whether the schedule admits any minute or not (`Schedule.Valid.nextRun_of_pending`). So
the first run is a step function of the time, and a job whose next run is determined again before that run
has come, once or many times, is left as it was (`Schedule.nextRun_stepFunction`).
-/

namespace Timetable

/-! ## The first run after a time -/

namespace Point

theorem ofTimestamp_mono {t u : Int} (h : t ≤ u) : ofTimestamp t ≤ ofTimestamp u := by
  rw [← strictMonoOn_timestamp.le_iff_le (isReal_ofTimestamp t) (isReal_ofTimestamp u),
    timestamp_ofTimestamp, timestamp_ofTimestamp]
  omega

-- No minute of the calendar comes between the beginning of a year and the years before it.
theorem year_lt_of_lt_newYear {p : Point} {year : Int} (hp : p.IsReal) (h : p < ⟨⟨year, 1, 1⟩, 0, 0⟩) :
    p.date.year < year := by
  have hdate := Date.isReal_iff.mp hp.1
  have htime := hp.2
  rw [lt_iff, Date.lt_iff] at h
  rcases h with hbefore | ⟨heq, hbefore⟩
  · change p.date.year < year ∨ (p.date.year = year ∧ (p.date.month < 1 ∨ (p.date.month = 1 ∧ p.date.day < 1)))
      at hbefore
    omega
  · change p.hour < 0 ∨ (p.hour = 0 ∧ p.minute < 0) at hbefore
    omega

end Point

namespace Schedule

variable {s : Schedule} {a t : Int}

theorem isLeast_runTimes_of_pending {run : Int} (hrun : IsLeast (s.runTimes a) run) (hle : a ≤ t)
    (hlt : t < run) : IsLeast (s.runTimes t) run := by
  constructor
  · exact ⟨hlt, hrun.1.2⟩
  · intro u hu
    exact hrun.2 ⟨hle.trans_lt hu.1, hu.2⟩

-- Until the year ends the beginning of the next one is the same.
theorem year_of_pending (hle : a ≤ t)
    (hlt : t < (CivilTime.newYear ((CivilTime.ofTimestamp a).date.year + 1)).timestamp) :
    (CivilTime.ofTimestamp t).date.year = (CivilTime.ofTimestamp a).date.year := by
  have hbegin : Point.ofTimestamp t < ⟨⟨(CivilTime.ofTimestamp a).date.year + 1, 1, 1⟩, 0, 0⟩ :=
    (Point.ofTimestamp_lt_iff (isReal_fallback (Point.ofTimestamp a)) t).mpr hlt
  have hyear := Point.year_lt_of_lt_newYear (Point.isReal_ofTimestamp t) hbegin
  have hmono := Point.year_le (Point.ofTimestamp_mono hle)
  change (CivilTime.ofTimestamp t).date.year < _ at hyear
  change (CivilTime.ofTimestamp a).date.year ≤ (CivilTime.ofTimestamp t).date.year at hmono
  omega

/-- Until the first run after a time comes, it is the first run after every later time. -/
theorem Valid.nextRun_of_pending (h : s.Valid) (hlimit : s.searchLimit = defaultSearchLimit) {run : Int}
    (hrun : (s.nextRun a).result = .ok run) (hle : a ≤ t) (hlt : t < run) :
    (s.nextRun t).result = .ok run := by
  by_cases hadmits : ∃ t, s.admitsTimestamp t = true
  · rcases h.nextRun_default hlimit hadmits a with ⟨first, hfirst, hleast⟩
    rcases h.nextRun_default hlimit hadmits t with ⟨later, hlater, hleast'⟩
    rw [hfirst] at hrun
    have heq : first = run := Except.ok.inj hrun
    rw [heq] at hleast
    have hsame : later = run := hleast'.unique (isLeast_runTimes_of_pending hleast hle hlt)
    rw [hlater, hsame]
  · rw [h.nextRun_of_not_admits hadmits] at hrun ⊢
    have heq := Except.ok.inj hrun
    rw [← heq] at hlt
    rw [year_of_pending hle hlt, heq]

-- The first runs after two times are the same, or the one comes before the other time.
theorem monotone_of_pending {next : Int → Int} (hafter : ∀ t, t < next t)
    (hpending : ∀ a t, a ≤ t → t < next a → next t = next a) : Monotone next := by
  intro a b hle
  by_cases hlt : b < next a
  · exact (hpending a b hle hlt).ge
  · have hb := hafter b
    omega

end Schedule

/-! ## Jobs whose run is pending -/

namespace Job

variable {job : Job} {a t : Int}

theorem reschedule_of_pending {s : Schedule} (h : s.Valid)
    (hlimit : s.searchLimit = Schedule.defaultSearchLimit) (htrigger : job.trigger = s.trigger)
    (hnext : job.NextRunAfter a) (hle : a ≤ t) (hlt : t < job.nextRun) :
    (reschedule t job).state = job ∧ (reschedule t job).result = .ok () := by
  have hcheck : job.trigger.check.result = .ok () := by
    rw [htrigger]
    exact h.check_eq
  have hrun : (job.trigger.nextRun t).result = .ok job.nextRun := by
    rw [NextRunAfter, htrigger] at hnext
    rw [htrigger]
    exact h.nextRun_of_pending hlimit hnext hle hlt
  exact reschedule_of_ok hcheck hrun

-- By induction on the times: each finds the job as the first one found it.
theorem forM_reschedule_of_kept {ts : List Int}
    (h : ∀ t ∈ ts, (reschedule t job).state = job ∧ (reschedule t job).result = .ok ()) :
    (ts.forM reschedule job).state = job ∧ (ts.forM reschedule job).result = .ok () := by
  induction ts with
  | nil => exact ⟨rfl, rfl⟩
  | cons t ts ih =>
    rw [List.forall_mem_cons] at h
    show ((reschedule t >>= fun _ => ts.forM reschedule) job).state = job ∧
      ((reschedule t >>= fun _ => ts.forM reschedule) job).result = .ok ()
    rw [Action.bind_ok h.1.2, h.1.1]
    exact ih h.2

end Job

namespace Scheduler

variable {id : String} {job : Job} {ts : List Int}

theorem find?_run_setTime_of_kept (h : ∀ t ∈ ts, (Job.reschedule t job).state = job) {s : Scheduler}
    (hjob : s.find? id = some job) : (s.run (ts.map .setTime)).find? id = some job := by
  induction ts generalizing s with
  | nil => exact hjob
  | cons t ts ih =>
    rw [List.forall_mem_cons] at h
    have hkept : (refresh t job).state = job := by
      unfold refresh
      split
      · exact h.1
      · rfl
    apply ih h.2
    show ((Operation.setTime t).perform s).state.find? id = some job
    rw [Operation.perform, Action.state_map, state_setTime]
    exact Register.find?_each_of_kept hjob hkept

end Scheduler

namespace Schedule

variable {s : Schedule}

/-- The first run of a schedule without flaws after a time, found with the usual bound on passes, is a
monotone step function of the time: it stays the same until it comes. So a job is left as it was when its
next run is determined again at any times before that run, and so it is when the clock of its scheduler is
set to them. -/
theorem nextRun_stepFunction (h : s.Valid) (hlimit : s.searchLimit = defaultSearchLimit) :
    ∃ next : Int → Int, (∀ now, (s.nextRun now).result = .ok (next now)) ∧ Monotone next ∧
      (∀ a t, a ≤ t → t < next a → next t = next a) ∧
      ∀ (job : Job) (a : Int) (ts : List Int), job.trigger = s.trigger → job.NextRunAfter a →
        (∀ t ∈ ts, a ≤ t ∧ t < job.nextRun) →
          (ts.forM Job.reschedule job).state = job ∧ (ts.forM Job.reschedule job).result = .ok () ∧
          ∀ (scheduler : Scheduler) (id : String), scheduler.find? id = some job →
            (scheduler.run (ts.map .setTime)).find? id = some job := by
  choose next events hnext using h.lt_nextRun
  have hresult : ∀ now, (s.nextRun now).result = .ok (next now) := fun now =>
    congrArg Outcome.result (hnext now).1
  have hpending : ∀ a t, a ≤ t → t < next a → next t = next a := by
    intro a t hle hlt
    have hlater := h.nextRun_of_pending hlimit (hresult a) hle hlt
    exact Except.ok.inj ((hresult t).symm.trans hlater)
  refine ⟨next, hresult, monotone_of_pending (fun t => (hnext t).2) hpending, hpending, ?_⟩
  intro job a ts htrigger hafter htimes
  have hkept : ∀ t ∈ ts, (Job.reschedule t job).state = job ∧ (Job.reschedule t job).result = .ok () :=
    fun t ht => Job.reschedule_of_pending h hlimit htrigger hafter (htimes t ht).1 (htimes t ht).2
  have heach := Job.forM_reschedule_of_kept hkept
  refine ⟨heach.1, heach.2, ?_⟩
  intro scheduler id hjob
  exact Scheduler.find?_run_setTime_of_kept (fun t ht => (hkept t ht).1) hjob

-- At the beginning of 1970 the next leap day is that of 1972.
def leapDayAudit : Job :=
  { Job.ofTrigger "audit" "Audit" "" (leapDays defaultSearchLimit).trigger with nextRun := 68169600 }

-- It stays so up to the second before it, also where the times are not in order.
theorem nextRun_stepFunction_leapDays :
    (leapDays defaultSearchLimit).Valid ∧ leapDayAudit.NextRunAfter 0 ∧
      ([0, 86400, 68169599, 1].forM Job.reschedule leapDayAudit).state = leapDayAudit ∧
      (Scheduler.run ⟨.cron, 0, ⟨[("audit", leapDayAudit)]⟩⟩
        ([0, 86400, 68169599, 1].map .setTime)).find? "audit" = some leapDayAudit := by
  have hafter : leapDayAudit.NextRunAfter 0 := by rfl
  have htimes : ∀ t ∈ [0, 86400, 68169599, 1], 0 ≤ t ∧ t < leapDayAudit.nextRun := by decide
  cases nextRun_stepFunction (leapDays_valid defaultSearchLimit) rfl with
  | intro next hnext =>
    have hkept := hnext.2.2.2 leapDayAudit 0 _ rfl hafter htimes
    exact ⟨leapDays_valid _, hafter, hkept.1, hkept.2.2 _ "audit" rfl⟩

end Schedule

end Timetable
