import Timetable.Proofs.ReadFault

/-!
# The first rejected field

An expression is read field by field, and the first field whose text is rejected ends the reading. So the
schedule of a flawed expression depends on nothing behind that text, neither in its error nor in the values
of its fields (`Schedule.ofExpressionWithin_exact`).

* `assign` gives the fields of a list of texts the values that they are read as. While texts are read, reading
  does nothing else (`readFields_append`).
* A list of texts whose digits are short is read to its end or reaches a text that is rejected
  (`Schedule.read_or_stopsAt`). `Schedule.StopsAt` says which one this is.
* `Schedule.Refuses` lists what a flawed schedule answers.
-/

namespace Timetable

open Text

/-! ## Texts that are read -/

/-- The text of a field is read. -/
def IsRead (entry : Field × String) : Prop := ∃ values, entry.1.read entry.2 = .ok values

/-- The text of a field is rejected. -/
def IsRejected (entry : Field × String) : Prop := ∃ flaw, entry.1.read entry.2 = .error (.flawed flaw)

/-- Gives fields the values of their texts, in turn. A text that cannot be read gives none. -/
def assign (entries : List (Field × String)) (sets : FieldSets) : FieldSets :=
  entries.foldl (fun sets entry => (entry.1.read entry.2).toOption.elim sets (sets.set entry.1)) sets

variable {entries before after : List (Field × String)} {entry stop : Field × String} {sets : FieldSets}

theorem assign_cons {values : ValueSet} (h : entry.1.read entry.2 = .ok values) (sets : FieldSets) :
    assign (entry :: entries) sets = assign entries (sets.set entry.1 values) := by
  rw [assign, List.foldl_cons, h]
  rfl

theorem readFields_append (h : ∀ entry ∈ before, IsRead entry) (after : List (Field × String))
    (sets : FieldSets) : readFields (before ++ after) sets = readFields after (assign before sets) := by
  induction before generalizing sets with
  | nil => rfl
  | cons entry before ih =>
    rw [List.forall_mem_cons] at h
    cases h.1 with
    | intro values hread =>
      rw [List.cons_append, readFields, hread, assign_cons hread]
      exact ih h.2 _

theorem readFields_stop {flaw : FieldFlaw} (h : ∀ entry ∈ before, IsRead entry)
    (hstop : stop.1.read stop.2 = .error (.flawed flaw)) (after : List (Field × String)) (sets : FieldSets) :
    readFields (before ++ stop :: after) sets =
      .ok (assign before sets, some (.field stop.1 stop.2 flaw)) := by
  rw [readFields_append h, readFields, hstop]

theorem get_assign_of_not_mem {f : Field} (h : ∀ entry ∈ entries, IsRead entry) (hf : f ∉ entries.map (·.1))
    (sets : FieldSets) : (assign entries sets).get f = sets.get f := by
  induction entries generalizing sets with
  | nil => rfl
  | cons entry entries ih =>
    rw [List.forall_mem_cons] at h
    rw [List.map_cons, List.mem_cons, not_or] at hf
    cases h.1 with
    | intro values hread => rw [assign_cons hread, ih h.2 hf.2, FieldSets.get_set, if_neg hf.1]

/-- Where no field comes twice, each is given the values of its text. -/
theorem read_eq_get_assign (h : ∀ entry ∈ entries, IsRead entry) (hfields : (entries.map (·.1)).Nodup)
    (hentry : entry ∈ entries) (sets : FieldSets) :
    entry.1.read entry.2 = .ok ((assign entries sets).get entry.1) := by
  induction entries generalizing sets with
  | nil => exact absurd hentry List.not_mem_nil
  | cons first entries ih =>
    rw [List.forall_mem_cons] at h
    rw [List.map_cons, List.nodup_cons] at hfields
    cases h.1 with
    | intro values hread =>
      rw [assign_cons hread]
      cases List.mem_cons.mp hentry with
      | inl heq => rw [heq, hread, get_assign_of_not_mem h.2 hfields.1, FieldSets.get_set, if_pos rfl]
      | inr hmem => exact ih h.2 hfields.2 hmem _

theorem forall_or_reaches {α : Type} {passes stops : α → Prop} {l : List α}
    (h : ∀ a ∈ l, passes a ∨ stops a) : (∀ a ∈ l, passes a) ∨ Reaches passes stops l := by
  induction l with
  | nil => exact .inl (by simp)
  | cons a l ih =>
    rw [List.forall_mem_cons] at h
    rw [List.forall_mem_cons, reaches_cons]
    cases h.1 with
    | inl hpasses => exact (ih h.2).imp (fun hall => ⟨hpasses, hall⟩) fun hreaches => .inr ⟨hpasses, hreaches⟩
    | inr hstops => exact .inr (.inl hstops)

namespace Schedule

variable {expression expression' : String} {searchLimit : Int} {s : Schedule}

/-! ## Where reading stops -/

/-- The texts of an expression, each with the field that it is for. -/
def fieldEntries (expression : String) : List (Field × String) := Field.all.zip (fieldTexts expression)

/-- The expression has as many texts as there are fields. -/
def IsComplete (expression : String) : Prop := (fieldTexts expression).length = Field.all.length

/-- Reading an expression stops at the text of a field: the first one that is rejected. -/
structure StopsAt (expression : String) (before : List (Field × String)) (stop : Field × String)
    (after : List (Field × String)) : Prop where
  complete : IsComplete expression
  entries_eq : fieldEntries expression = before ++ stop :: after
  read : ∀ entry ∈ before, IsRead entry
  rejected : IsRejected stop

theorem map_fst_fieldEntries (h : IsComplete expression) : (fieldEntries expression).map (·.1) = Field.all :=
  List.map_fst_zip h.ge

theorem nodup_fields (h : IsComplete expression) : ((fieldEntries expression).map (·.1)).Nodup := by
  rw [map_fst_fieldEntries h]
  decide

theorem read_or_stopsAt (hshort : ShortNumerals expression.toList) (h : IsComplete expression) :
    (∀ entry ∈ fieldEntries expression, IsRead entry) ∨ ∃ before stop after, StopsAt expression before stop after := by
  have hentries : ∀ entry ∈ fieldEntries expression, IsRead entry ∨ IsRejected entry := by
    intro entry hentry
    have hpart : ShortNumerals entry.2.toList :=
      hshort.of_infix (infix_of_mem_fieldTexts (List.of_mem_zip hentry).2)
    cases entry.1.read_cases hpart with
    | inl haccepts =>
      obtain ⟨-, values, hvalues, -⟩ := haccepts
      exact .inl ⟨values, hvalues⟩
    | inr hrefused => exact .inr hrefused.2
  cases forall_or_reaches hentries with
  | inl hall => exact .inl hall
  | inr hreaches =>
    obtain ⟨before, stop, after, heq, hbefore, hstop⟩ := hreaches
    exact .inr ⟨before, stop, after, h, heq, hbefore, hstop⟩

/-! ## The schedule of an expression -/

theorem result_of_readExpression {flaw : Option ScheduleFlaw} (searchLimit : Int)
    (h : readExpression expression = .ok (sets, flaw)) :
    (ofExpressionWithin searchLimit expression).result = .ok { expression, searchLimit, sets, flaw } := by
  rw [ofExpressionWithin_result, h]
  rfl

theorem readExpression_of_complete (h : IsComplete expression) :
    readExpression expression = readFields (fieldEntries expression) .empty := if_pos h

theorem result_of_read (searchLimit : Int) (h : IsComplete expression)
    (hread : ∀ entry ∈ fieldEntries expression, IsRead entry) :
    (ofExpressionWithin searchLimit expression).result =
      .ok { expression, searchLimit, sets := assign (fieldEntries expression) .empty, flaw := none } := by
  apply result_of_readExpression
  have hfields := readFields_append hread [] .empty
  rw [List.append_nil] at hfields
  rw [readExpression_of_complete h, hfields]
  rfl

theorem result_of_not_complete (searchLimit : Int) (h : ¬ IsComplete expression) :
    (ofExpressionWithin searchLimit expression).result =
      .ok { expression, searchLimit, sets := .empty, flaw := some (.fieldCount (fieldTexts expression).length) } :=
  result_of_readExpression searchLimit (if_neg h)

/-- What was read in front of the text at which reading stops is all that the fields hold. -/
theorem StopsAt.result_eq (h : StopsAt expression before stop after) {flaw : FieldFlaw}
    (hflaw : stop.1.read stop.2 = .error (.flawed flaw)) (searchLimit : Int) :
    (ofExpressionWithin searchLimit expression).result =
      .ok { expression, searchLimit, sets := assign before .empty, flaw := some (.field stop.1 stop.2 flaw) } := by
  apply result_of_readExpression
  rw [readExpression_of_complete h.complete, h.entries_eq, readFields_stop h.read hflaw]

/-- Reading stops at the same text in every expression that agrees with a flawed one up to that text. -/
theorem StopsAt.of_take_eq (h : StopsAt expression before stop after) (hcomplete : IsComplete expression')
    (htake : (fieldTexts expression').take (before.length + 1) = (fieldTexts expression).take (before.length + 1)) :
    ∃ after', StopsAt expression' before stop after' := by
  have hentries : (fieldEntries expression').take (before.length + 1) = before ++ [stop] := by
    rw [fieldEntries, List.zip, List.take_zipWith, htake, ← List.take_zipWith, ← List.zip, ← fieldEntries, h.entries_eq,
      List.append_cons]
    exact List.take_left' (by rw [List.length_append, List.length_singleton])
  refine ⟨(fieldEntries expression').drop (before.length + 1), hcomplete, ?_, h.read, h.rejected⟩
  calc fieldEntries expression'
      = (before ++ [stop]) ++ (fieldEntries expression').drop (before.length + 1) := by
        rw [← hentries, List.take_append_drop]
    _ = _ := (List.append_cons before stop _).symm

theorem StopsAt.nodup_fields (h : StopsAt expression before stop after) :
    (before.map (·.1)).Nodup ∧ ∀ entry ∈ stop :: after, entry.1 ∉ before.map (·.1) := by
  have hfields := Schedule.nodup_fields h.complete
  rw [h.entries_eq, List.map_append, List.nodup_append] at hfields
  refine ⟨hfields.1, fun entry hentry hmem => ?_⟩
  exact hfields.2.2 _ hmem _ (List.mem_map_of_mem hentry) rfl

/-! ## Flawed schedules -/

/-- The schedule has an error text, admits nothing, and is a fault of its own expression and error when it is
asked for runs. -/
structure Refuses (s : Schedule) : Prop where
  errorText : s.errorText ≠ ""
  admits : ∀ minute hour day month weekday, s.admits minute hour day month weekday = false
  admitsTimestamp : ∀ timestamp, s.admitsTimestamp timestamp = false
  nextAfter : ∀ start weekday, (s.nextAfter start weekday).result = .error (.invalidSchedule s.expression s.errorText)
  nextRun : ∀ now, (s.nextRun now).result = .error (.invalidSchedule s.expression s.errorText)
  runs : ∀ n now, (s.runs (n + 1) now).result = .error (.invalidSchedule s.expression s.errorText)

theorem refuses_of_flawed (h : s.isValid = false) : s.Refuses := by
  have hcheck : s.check = .error (.invalidSchedule s.expression s.errorText) := by
    rw [check, h]
    rfl
  have hadmits : ∀ minute hour day month weekday, s.admits minute hour day month weekday = false := by
    intro minute hour day month weekday
    rw [Schedule.admits, h]
    rfl
  have hafter : ∀ start weekday,
      (s.nextAfter start weekday).result = .error (.invalidSchedule s.expression s.errorText) := by
    intro start weekday
    rw [Schedule.nextAfter, hcheck, Outcome.bind_error rfl]
  have hrun : ∀ now, (s.nextRun now).result = .error (.invalidSchedule s.expression s.errorText) := by
    intro now
    simp only [Schedule.nextRun]
    rw [Outcome.bind_error (hafter _ _)]
  refine ⟨errorText_ne_empty h, hadmits, fun timestamp => hadmits _ _ _ _ _, hafter, hrun, fun n now => ?_⟩
  rw [Schedule.runs, Outcome.bind_error (hrun now)]

/-! ## What an expression is read as -/

theorem exists_ofExpressionWithin (searchLimit : Int) (hshort : ShortNumerals expression.toList) :
    ∃ s, (ofExpressionWithin searchLimit expression).result = .ok s := by
  cases hresult : (ofExpressionWithin searchLimit expression).result with
  | ok s => exact ⟨s, rfl⟩
  | error e =>
    have hoverlong := (ofExpressionWithin_eq_error_iff searchLimit).mp hresult
    cases hoverlong with
    | intro digits h => exact absurd hshort h.1.not_shortNumerals

theorem errorText_of_valid (h : s.isValid = true) : s.errorText = "" := by
  rw [errorText, Option.isNone_iff_eq_none.mp h]

section

variable (h : (ofExpressionWithin searchLimit expression).result = .ok s)

include h

theorem eq_of_result {t : Schedule} (ht : (ofExpressionWithin searchLimit expression).result = .ok t) : s = t :=
  Except.ok.inj (h.symm.trans ht)

theorem isValid_iff (hshort : ShortNumerals expression.toList) :
    s.isValid = true ↔ IsComplete expression ∧ ∀ entry ∈ fieldEntries expression, IsRead entry := by
  constructor
  · intro hvalid
    by_cases hcomplete : IsComplete expression
    · cases read_or_stopsAt hshort hcomplete with
      | inl hall => exact ⟨hcomplete, hall⟩
      | inr hstops =>
        obtain ⟨before, stop, after, hstop⟩ := hstops
        obtain ⟨flaw, hflaw⟩ := hstop.rejected
        rw [eq_of_result h (hstop.result_eq hflaw searchLimit)] at hvalid
        exact absurd hvalid Bool.false_ne_true
    · rw [eq_of_result h (result_of_not_complete searchLimit hcomplete)] at hvalid
      exact absurd hvalid Bool.false_ne_true
  · intro hread
    rw [eq_of_result h (result_of_read searchLimit hread.1 hread.2)]
    rfl

/-- The fields of an expression that is read to its end have the values of their texts. -/
theorem read_eq_get (hcomplete : IsComplete expression) (hread : ∀ entry ∈ fieldEntries expression, IsRead entry)
    (hentry : entry ∈ fieldEntries expression) : entry.1.read entry.2 = .ok (s.sets.get entry.1) := by
  rw [eq_of_result h (result_of_read searchLimit hcomplete hread)]
  exact read_eq_get_assign hread (nodup_fields hcomplete) hentry .empty

theorem stopsAt_of_flawed (hshort : ShortNumerals expression.toList) (hflawed : s.isValid = false)
    (hcomplete : IsComplete expression) : ∃ before stop after, StopsAt expression before stop after := by
  cases read_or_stopsAt hshort hcomplete with
  | inr hstops => exact hstops
  | inl hread =>
    rw [(isValid_iff h hshort).mpr ⟨hcomplete, hread⟩] at hflawed
    exact absurd hflawed (by decide)

/-- The fields in front of the text at which reading stops have the values of their texts, and the others have
no values. -/
theorem StopsAt.get_sets (hstop : StopsAt expression before stop after) :
    (∀ entry ∈ before, entry.1.read entry.2 = .ok (s.sets.get entry.1)) ∧
      ∀ entry ∈ stop :: after, s.sets.get entry.1 = .empty entry.1.lo entry.1.hi := by
  obtain ⟨flaw, hflaw⟩ := hstop.rejected
  rw [eq_of_result h (hstop.result_eq hflaw searchLimit)]
  constructor
  · intro entry hentry
    exact read_eq_get_assign hstop.read hstop.nodup_fields.1 hentry .empty
  · intro entry hentry
    show (assign before .empty).get entry.1 = _
    rw [get_assign_of_not_mem hstop.read (hstop.nodup_fields.2 entry hentry), FieldSets.get_empty]

/-- Expressions that are read up to the same text have the same error and the same values. -/
theorem StopsAt.exists_alike {after' : List (Field × String)} (hstop : StopsAt expression before stop after)
    (hstop' : StopsAt expression' before stop after') :
    ∃ s', (ofExpressionWithin searchLimit expression').result = .ok s' ∧ s'.isValid = false ∧
      s'.errorText = s.errorText ∧ s'.sets = s.sets := by
  obtain ⟨flaw, hflaw⟩ := hstop.rejected
  rw [eq_of_result h (hstop.result_eq hflaw searchLimit)]
  exact ⟨_, hstop'.result_eq hflaw searchLimit, rfl, rfl, rfl⟩

end

/-- An expression whose runs of digits are short has a schedule. It is valid exactly when there are five texts
and each is read by its field. Then it has no error text, its fields have the values that are read, and the
first value of a field is one of them. A flawed schedule is of no use. If it has five texts, one is the first
that is rejected. The fields in front of that one have the values that are read, the others have none, and
five texts that agree with these up to it have the same error text and the same values. -/
theorem ofExpressionWithin_exact (searchLimit : Int) (expression : String)
    (hshort : ShortNumerals expression.toList) :
    ∃ s, (ofExpressionWithin searchLimit expression).result = .ok s ∧ s.expression = expression ∧
      (s.isValid = true ↔ IsComplete expression ∧ ∀ entry ∈ fieldEntries expression, IsRead entry) ∧
      (s.isValid = true → s.errorText = "" ∧
        (∀ entry ∈ fieldEntries expression, entry.1.read entry.2 = .ok (s.sets.get entry.1)) ∧
        ∀ f : Field, (∃ v, v ∈ s.sets.get f) ∧ (∀ v ∈ s.sets.get f, f.lo ≤ v ∧ v ≤ f.hi) ∧
          (s.sets.get f).first ∈ s.sets.get f) ∧
      (s.isValid = false → s.Refuses) ∧
      (s.isValid = false → IsComplete expression → ∃ before stop after, StopsAt expression before stop after) ∧
      ∀ before stop after, StopsAt expression before stop after →
        (∀ entry ∈ before, entry.1.read entry.2 = .ok (s.sets.get entry.1)) ∧
        (∀ entry ∈ stop :: after, s.sets.get entry.1 = .empty entry.1.lo entry.1.hi) ∧
        ∀ expression', IsComplete expression' →
          (fieldTexts expression').take (before.length + 1) = (fieldTexts expression).take (before.length + 1) →
          ∃ s', (ofExpressionWithin searchLimit expression').result = .ok s' ∧ s'.isValid = false ∧
            s'.errorText = s.errorText ∧ s'.sets = s.sets := by
  obtain ⟨s, h⟩ := exists_ofExpressionWithin searchLimit hshort
  refine ⟨s, h, (readExpression_of_ofExpressionWithin h).2.2, isValid_iff h hshort, ?_, refuses_of_flawed,
    stopsAt_of_flawed h hshort, ?_⟩
  · intro hvalid
    have hread := (isValid_iff h hshort).mp hvalid
    have hfits := (valid_of_ofExpressionWithin h hvalid).wellFormed
    refine ⟨errorText_of_valid hvalid, fun entry hentry => read_eq_get h hread.1 hread.2 hentry, fun f => ?_⟩
    exact ⟨(hfits f).nonempty, fun v hv => (hfits f).bounds hv, (hfits f).isLeast_first.1⟩
  · intro before stop after hstop
    have hget := hstop.get_sets h
    refine ⟨hget.1, hget.2, fun expression' hcomplete' htake => ?_⟩
    obtain ⟨after', hstop'⟩ := hstop.of_take_eq hcomplete' htake
    exact hstop.exists_alike h hstop'

-- An hour of 60, with two more texts behind it that are rejected, and with others in their places.
theorem ofExpressionWithin_exact_hour :
    ShortNumerals "5 60 * x 99".toList ∧ ∃ s, (ofExpressionWithin 10 "5 60 * x 99").result = .ok s ∧
      s.errorText = "invalid hour field '60': no values within [0, 23]" ∧ s.Refuses ∧
      s.sets.minutes.toList = [5] ∧ s.sets.weekdays = .empty 0 6 ∧
      ∃ s', (ofExpressionWithin 10 "5 60 1-0 */0 -").result = .ok s' ∧ s'.isValid = false ∧
        s'.errorText = s.errorText ∧ s'.sets = s.sets := by
  have hshort : ShortNumerals "5 60 * x 99".toList := fun run hrun _ => hrun.length_le.trans (by decide)
  have hflaw : Field.hour.read "60" = .error (.flawed (.noValues 0 23)) := by rfl
  have hstop : StopsAt "5 60 * x 99" [(.minute, "5")] (.hour, "60") [(.day, "*"), (.month, "x"), (.weekday, "99")] := by
    refine ⟨rfl, rfl, fun entry hentry => ?_, _, hflaw⟩
    rw [List.mem_singleton.mp hentry]
    exact ⟨_, rfl⟩
  obtain ⟨s, h, -, -, -, hrefuses, -, hlocal⟩ := ofExpressionWithin_exact 10 "5 60 * x 99" hshort
  have hflawed : ∃ t, (ofExpressionWithin 10 "5 60 * x 99").result = .ok t ∧ t.isValid = false ∧
      t.errorText = "invalid hour field '60': no values within [0, 23]" ∧ t.sets.minutes.toList = [5] :=
    ⟨_, rfl, rfl, rfl, rfl⟩
  obtain ⟨t, ht, hinvalid, herror, hminutes⟩ := hflawed
  obtain rfl := eq_of_result h ht
  obtain ⟨-, hempty, halike⟩ := hlocal _ _ _ hstop
  refine ⟨hshort, s, h, herror, hrefuses hinvalid, hminutes, ?_, halike "5 60 1-0 */0 -" rfl rfl⟩
  exact hempty (.weekday, "99") (by decide)

end Schedule

end Timetable
