import Timetable.Proofs.FailedOperation
import Timetable.Proofs.OverlongNumeral

/-!
# Expressions that cannot be read

Reading an expression answers with a schedule, which keeps the flaw if there is one, unless a numeral is
too long to be converted.

* `Schedule.Overlong` says which expressions these are: the fields in front of the numeral are accepted, and
  nothing is wrong in front of it in its own field. No expression is among them whose runs of digits are
  all short (`Schedule.Overlong.not_shortNumerals`).
* They are the only ones from which a schedule, a job or the adding of a job ends in a fault
  (`Scheduler.read_fault_iff`), whatever the search limit. Every other expression that is of no use has an
  error text, and no job is added for it.
-/

namespace Timetable

open Text

variable {expression : String} {digits : Nat}

theorem map_eq_error_iff {α β ε : Type} {x : Except ε α} {f : α → β} {e : ε} :
    x.map f = .error e ↔ x = .error e := by
  cases x with
  | error e' => simp [Except.map]
  | ok a => simp [Except.map]

/-! ## Reading the fields -/

/-- Reading stops at the first field with a numeral that is too long, where those in front of it are read. -/
theorem readFields_eq_error_iff {fields : List (Field × String)} {sets : FieldSets} {e : Fault} :
    readFields fields sets = .error e ↔ ∃ digits,
      Reaches (fun entry : Field × String => ∃ values, entry.1.read entry.2 = .ok values)
        (fun entry => entry.1.read entry.2 = .error (.numeralTooLong digits)) fields ∧
      e = .numeralTooLong digits := by
  -- The values that were read so far have no part in where reading stops.
  induction fields generalizing sets with
  | nil => simp [readFields, not_reaches_nil]
  | cons entry fields ih =>
    simp only [reaches_cons]
    rw [readFields]
    cases hread : entry.1.read entry.2 with
    | ok values => simp [ih]
    | error failure =>
      cases failure with
      | flawed flaw => simp
      | numeralTooLong n => simp [eq_comm]

namespace Schedule

/-- The numeral that is read first and is too long, in an expression. The fields in front of it are read. -/
structure Overlong (digits : Nat) (expression : String) : Prop where
  count : (fieldTexts expression).length = Field.all.length
  fields : Reaches (fun entry : Field × String => ShortNumerals entry.2.toList ∧ entry.1.Accepts entry.2)
    (fun entry => Field.Overlong digits entry.2) (Field.all.zip (fieldTexts expression))

theorem readExpression_eq_error_iff {e : Fault} :
    readExpression expression = .error e ↔ ∃ digits, Overlong digits expression ∧ e = .numeralTooLong digits := by
  unfold readExpression
  by_cases hcount : (fieldTexts expression).length = Field.all.length
  · simp only [if_pos hcount, readFields_eq_error_iff, Field.exists_read_iff,
      Field.read_eq_numeralTooLong_iff]
    apply exists_congr
    intro digits
    exact and_congr_left fun _ => ⟨fun h => ⟨hcount, h⟩, fun h => h.fields⟩
  · simp only [if_neg hcount]
    refine ⟨fun h => absurd h (by simp), fun h => ?_⟩
    obtain ⟨digits, h, -⟩ := h
    exact absurd h.count hcount

theorem infix_of_mem_fieldTexts {text : String} (h : text ∈ fieldTexts expression) :
    text.toList <:+: expression.toList := by
  obtain ⟨word, hword, rfl⟩ := List.mem_map.mp h
  rw [String.toList_ofList]
  exact infix_of_mem_splitOnP (List.mem_of_mem_filter hword)

/-- An expression whose runs of digits are short is read. -/
theorem Overlong.not_shortNumerals (h : Overlong digits expression) : ¬ ShortNumerals expression.toList := by
  intro hshort
  obtain ⟨before, entry, after, hfields, -, hentry⟩ := h.fields
  have hmem : entry ∈ Field.all.zip (fieldTexts expression) := by
    rw [hfields]
    simp
  have hpart : ShortNumerals entry.2.toList :=
    hshort.of_infix (infix_of_mem_fieldTexts (List.of_mem_zip hmem).2)
  have hread := (Field.read_eq_numeralTooLong_iff entry.1).mpr hentry
  cases entry.1.read_cases hpart with
  | inl haccepts =>
    obtain ⟨-, values, hvalues, -⟩ := haccepts
    exact absurd (hread.symm.trans hvalues) (by simp)
  | inr hrefused =>
    obtain ⟨-, flaw, hflaw⟩ := hrefused
    exact absurd (hread.symm.trans hflaw) (by simp)

theorem ofExpressionWithin_eq_error_iff (searchLimit : Int) {e : Fault} :
    (ofExpressionWithin searchLimit expression).result = .error e ↔
      ∃ digits, Overlong digits expression ∧ e = .numeralTooLong digits := by
  rw [ofExpressionWithin_result, map_eq_error_iff, readExpression_eq_error_iff]

theorem message_ne_empty (flaw : ScheduleFlaw) (expression : String) : flaw.message expression ≠ "" := by
  cases flaw with
  | fieldCount count => simp [ScheduleFlaw.message, toString]
  | field f text flaw => simp [ScheduleFlaw.message, toString]

theorem errorText_ne_empty {s : Schedule} (h : s.isValid = false) : s.errorText ≠ "" := by
  unfold errorText
  cases hflaw : s.flaw with
  | none => exact absurd h (by simp [isValid, hflaw])
  | some flaw => exact message_ne_empty flaw s.expression

end Schedule

/-! ## Jobs and schedulers -/

theorem Job.create_cronWithin_eq_error_iff (searchLimit : Int) (id name metadata : String) {e : Fault} :
    (create (.cronWithin searchLimit) id name expression metadata).result = .error e ↔
      ∃ digits, Schedule.Overlong digits expression ∧ e = .numeralTooLong digits := by
  rw [create_result, map_eq_error_iff, cronWithin_result, map_eq_error_iff,
    Schedule.ofExpressionWithin_eq_error_iff]

namespace Scheduler

variable {source : TriggerSource} {s : Scheduler} {id name metadata : String} {job : Job}

theorem yearFits_newJob (hsource : source.BuildsSchedules) {now : Int}
    (hjob : newJob? source now id name expression metadata = some job) (hclock : YearFits now)
    (hlater : fitsDecimal ((CivilTime.ofTimestamp now).date.year + 400) = true) : YearFits job.nextRun := by
  have hinvariant := Job.followsSchedule_invariant_of_builds hsource
  obtain ⟨created, hcreated, hvalid, hresult, rfl⟩ := newJob?_eq_some hjob
  have hfollows := hinvariant.rescheduled now (hinvariant.created hcreated hvalid)
  exact hfollows.yearFits (Job.nextRunAfter_reschedule hresult) hclock hlater

-- A trigger is valid as the schedule is that it comes from.
theorem isValid_of_cronWithin {searchLimit : Int} {schedule : Schedule} {trigger : Trigger}
    (hread : (Schedule.ofExpressionWithin searchLimit expression).result = .ok schedule)
    (htrigger : (TriggerSource.cronWithin searchLimit expression).result = .ok trigger) :
    trigger.isValid = schedule.isValid := by
  rw [Job.cronWithin_result, hread] at htrigger
  rw [← Except.ok.inj htrigger]
  rfl

/-- No job is added for a flawed expression. -/
theorem result_add_of_flawed {searchLimit : Int} {schedule : Schedule}
    (hsource : s.source = .cronWithin searchLimit)
    (hread : (Schedule.ofExpressionWithin searchLimit expression).result = .ok schedule)
    (hflawed : schedule.isValid = false) : (add id name expression metadata s).result = .ok false := by
  rw [result_add, hsource]
  split
  · rfl
  · have hdependable := (TriggerSource.cronWithin_buildsSchedules searchLimit).dependable
    rcases addAnswer_cases hdependable s.now id name expression metadata with
      ⟨e, hsrc, -⟩ | ⟨trigger, -, -, -, hanswer⟩ | ⟨trigger, job, hsrc, hvalid, -⟩
    · rw [Job.cronWithin_result, hread] at hsrc
      exact absurd hsrc (by simp [Except.map])
    · exact hanswer
    · rw [isValid_of_cronWithin hread hsrc, hflawed] at hvalid
      exact absurd hvalid (by simp)

/-- Where the times it shows can be written, adding a job ends in a fault only by reading its expression. -/
theorem result_add_eq_error_iff {searchLimit : Int} (hsource : s.source = .cronWithin searchLimit)
    (hclock : YearFits s.now)
    (hlater : fitsDecimal ((CivilTime.ofTimestamp s.now).date.year + 400) = true) {e : Fault} :
    (add id name expression metadata s).result = .error e ↔ s.has id = false ∧
      ∃ digits, Schedule.Overlong digits expression ∧ e = .numeralTooLong digits := by
  have hbuilds := TriggerSource.cronWithin_buildsSchedules searchLimit
  rw [result_add, hsource, ← Schedule.ofExpressionWithin_eq_error_iff searchLimit,
    ← map_eq_error_iff (f := Schedule.trigger), ← Job.cronWithin_result]
  by_cases hid : s.has id = true
  · rw [if_pos hid, hid]
    simp
  · rw [if_neg hid, Bool.eq_false_iff.mpr hid]
    -- Only a job that is registered is written about, and its first run can be written.
    rcases addAnswer_cases hbuilds.dependable s.now id name expression metadata with
      ⟨e', hsrc, -, hanswer⟩ | ⟨trigger, hsrc, -, -, hanswer⟩ | ⟨trigger, job, hsrc, -, hjob, hanswer⟩
    · rw [hsrc, hanswer]
      simp
    · rw [hsrc, hanswer]
      simp
    · rw [hsrc, hanswer, map_timestampText (yearFits_newJob hbuilds hjob hclock hlater)]
      simp

/-- From an expression a schedule, a job or the adding of a job ends in a fault exactly where a numeral that
is too long is read first. An expression of short numerals is none of these. What is read but flawed has an
error text, and no job is added for it. -/
theorem read_fault_iff (searchLimit : Int) (expression : String) :
    (∀ e, (Schedule.ofExpressionWithin searchLimit expression).result = .error e ↔
      ∃ digits, Schedule.Overlong digits expression ∧ e = .numeralTooLong digits) ∧
    (∀ id name metadata e, (Job.create (.cronWithin searchLimit) id name expression metadata).result = .error e ↔
      ∃ digits, Schedule.Overlong digits expression ∧ e = .numeralTooLong digits) ∧
    (∀ (s : Scheduler) (id name metadata : String), s.source = .cronWithin searchLimit → YearFits s.now →
      fitsDecimal ((CivilTime.ofTimestamp s.now).date.year + 400) = true →
      ∀ e, (add id name expression metadata s).result = .error e ↔ s.has id = false ∧
        ∃ digits, Schedule.Overlong digits expression ∧ e = .numeralTooLong digits) ∧
    (ShortNumerals expression.toList → ¬ ∃ digits, Schedule.Overlong digits expression) ∧
    ∀ schedule, (Schedule.ofExpressionWithin searchLimit expression).result = .ok schedule →
      schedule.isValid = false → schedule.errorText ≠ "" ∧
        ∀ (s : Scheduler) (id name metadata : String), s.source = .cronWithin searchLimit →
          (add id name expression metadata s).result = .ok false := by
  refine ⟨fun e => Schedule.ofExpressionWithin_eq_error_iff searchLimit,
    fun id name metadata e => Job.create_cronWithin_eq_error_iff searchLimit id name metadata, ?_, ?_, ?_⟩
  · intro s id name metadata hsource hclock hlater e
    exact result_add_eq_error_iff hsource hclock hlater
  · intro hshort hoverlong
    cases hoverlong with
    | intro digits h => exact h.not_shortNumerals hshort
  · intro schedule hread hflawed
    refine ⟨Schedule.errorText_ne_empty hflawed, fun s id name metadata hsource => ?_⟩
    exact result_add_of_flawed hsource hread hflawed

/-! ### A minute of too many digits -/

-- A run of nines for the minute, and no restriction in the other fields.
def nines (digits : Nat) : String := String.ofList (List.replicate digits '9') ++ " * * * *"

theorem fieldTexts_nines (hpos : digits ≠ 0) :
    Schedule.fieldTexts (nines digits) = [String.ofList (List.replicate digits '9'), "*", "*", "*", "*"] := by
  have hblank : ∀ c ∈ List.replicate digits '9', isBlank c = false := by
    intro c hc
    rw [(List.mem_replicate.mp hc).2]
    decide
  have htext : (nines digits).toList = List.replicate digits '9' ++ ' ' :: "* * * *".toList := by
    rw [nines, String.toList_append, String.toList_ofList]
    rfl
  have hnonempty : (!(List.replicate digits '9').isEmpty) = true := by simpa using hpos
  rw [Schedule.fieldTexts, htext, words, List.splitOnP_append_cons_of_forall_mem hblank ' ' (by decide),
    List.filter_cons, if_pos hnonempty]
  rfl

theorem overlong_nines (hlong : maxDigits < digits) : Schedule.Overlong digits (nines digits) := by
  have hpos : digits ≠ 0 := Nat.ne_of_gt (Nat.zero_lt_of_lt hlong)
  have hmem : ∀ c ∈ List.replicate digits '9', c = '9' := fun c hc => (List.mem_replicate.mp hc).2
  have hdigits : isNumeral (List.replicate digits '9') = true := by
    rw [isNumeral, Bool.and_eq_true, List.all_eq_true]
    refine ⟨by simpa using hpos, fun c hc => ?_⟩
    rw [hmem c hc]
    decide
  have hitem : Item.Overlong digits (List.replicate digits '9') :=
    .unstepped (not_mem_of_isNumeral hdigits (by decide)) (.number ⟨hdigits, List.length_replicate, hlong⟩)
  have hfield : Field.Overlong digits (String.ofList (List.replicate digits '9')) := by
    constructor
    · intro c hc
      rw [String.toList_ofList] at hc
      rw [hmem c hc]
      decide
    · have hcomma : ',' ∉ List.replicate digits '9' := not_mem_of_isNumeral hdigits (by decide)
      rw [String.toList_ofList, List.splitOnP_eq_singleton (beq_eq_false_of_not_mem hcomma), reaches_cons]
      exact .inl hitem
  constructor
  · rw [fieldTexts_nines hpos]
    rfl
  · rw [fieldTexts_nines hpos]
    exact reaches_cons.mpr (.inl hfield)

/-- Neither a schedule nor an answer comes of a minute of 4301 digits. -/
theorem read_fault_nines :
    (Schedule.ofExpression (nines 4301)).result = .error (.numeralTooLong 4301) ∧
      (add "backup" "Backup" (nines 4301) "" (start .cron 0)).result = .error (.numeralTooLong 4301) := by
  have hoverlong : Schedule.Overlong 4301 (nines 4301) := overlong_nines (by decide)
  constructor
  · exact (Schedule.ofExpressionWithin_eq_error_iff _).mpr ⟨4301, hoverlong, rfl⟩
  · exact (result_add_eq_error_iff rfl (by decide) (by decide)).mpr ⟨rfl, 4301, hoverlong, rfl⟩

-- A minute of 60 is a flaw only.
theorem read_fault_iff_flawed :
    (∃ schedule, (Schedule.ofExpression "60 * * * *").result = .ok schedule ∧ schedule.isValid = false ∧
      schedule.errorText ≠ "") ∧
    (add "backup" "Backup" "60 * * * *" "" (start .cron 0)).result = .ok false ∧
    (add "backup" "Backup" (nines 4301) "" (start .cron 0)).result = .error (.numeralTooLong 4301) := by
  have hread : ∃ schedule, (Schedule.ofExpression "60 * * * *").result = .ok schedule ∧
      schedule.isValid = false := ⟨_, rfl, rfl⟩
  obtain ⟨schedule, hread, hflawed⟩ := hread
  have hflaw := (read_fault_iff _ "60 * * * *").2.2.2.2 schedule hread hflawed
  have hadd := (read_fault_iff _ (nines 4301)).2.2.1 (start .cron 0) "backup" "Backup" "" rfl
    (by decide) (by decide)
  exact ⟨⟨schedule, hread, hflawed, hflaw.1⟩, hflaw.2 (start .cron 0) "backup" "Backup" "" rfl,
    (hadd _).mpr ⟨rfl, 4301, overlong_nines (by decide), rfl⟩⟩

end Scheduler

end Timetable
