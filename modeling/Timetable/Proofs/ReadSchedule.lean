import Timetable.Cron.Schedule
import Timetable.Proofs.LeastMember

/-!
# Schedules that were read without a flaw

A field that was read has its bounds and at least one value, and so have all five fields of a valid
schedule. This is what the search for run times relies on.
-/

namespace Timetable

-- An answer through a function comes from an answer.
theorem exists_of_map_eq_ok {α β : Type} {x : Except Fault α} {f : α → β} {b : β} (h : x.map f = .ok b) :
    ∃ a, x = .ok a ∧ f a = b := by
  cases x with
  | error e => exact absurd h (by simp [Except.map])
  | ok a => exact ⟨a, rfl, Except.ok.inj h⟩

/-- The set has the bounds of a field, and a member. -/
structure Field.Fits (f : Field) (s : ValueSet) : Prop where
  lo_eq : s.lo = f.lo
  hi_eq : s.hi = f.hi
  nonempty : ∃ v, v ∈ s

theorem Field.lo_nonneg (f : Field) : 0 ≤ f.lo := by
  cases f <;> decide

theorem Field.Fits.isLeast_first {f : Field} {s : ValueSet} (h : f.Fits s) :
    IsLeast {v | v ∈ s} s.first :=
  ValueSet.isLeast_first (h.lo_eq ▸ f.lo_nonneg) h.nonempty

theorem Field.Fits.bounds {f : Field} {s : ValueSet} (h : f.Fits s) {v : Int} (hv : v ∈ s) :
    f.lo ≤ v ∧ v ≤ f.hi :=
  ⟨h.lo_eq ▸ ValueSet.lo_le_of_mem hv, h.hi_eq ▸ ValueSet.le_hi_of_mem hv⟩

/-! ## Reading one field -/

namespace Field

theorem collect_eq (f : Field) (items : List Item) :
    f.collect items =
      (items.map (·.insertion f)).foldl (fun s i => i.apply s) (.empty f.lo f.hi) := by
  rw [collect, List.foldl_map]

theorem collect_bounds (f : Field) (items : List Item) :
    (f.collect items).lo = f.lo ∧ (f.collect items).hi = f.hi := by
  rw [collect_eq, ValueSet.lo_foldl_apply, ValueSet.hi_foldl_apply]
  exact ⟨rfl, rfl⟩

theorem fits_of_read {f : Field} {text : String} {values : ValueSet} (h : f.read text = .ok values) :
    f.Fits values := by
  unfold read at h
  split at h
  · exact absurd h (by simp)
  cases hitems : (text.toList.splitOnP (· == ',')).mapM Item.read with
  | error e => simp [hitems, bind, Except.bind] at h
  | ok items =>
    simp only [hitems, bind, Except.bind] at h
    split at h
    · exact absurd h (by simp)
    · rename_i hempty
      obtain rfl := Except.ok.inj h
      have hbounds := f.collect_bounds items
      exact ⟨hbounds.1, hbounds.2, ValueSet.exists_mem (Bool.eq_false_iff.mpr hempty)⟩

end Field

/-! ## Reading all fields -/

/-- Every field has its bounds and a value. -/
def FieldSets.WellFormed (s : FieldSets) : Prop := ∀ f : Field, f.Fits (s.get f)

-- Reading to the end gives values to every field on the way, and takes none away.
theorem fits_of_readFields {fields : List (Field × String)} {sets sets' : FieldSets}
    (h : readFields fields sets = .ok (sets', none)) (f : Field)
    (hf : f ∈ fields.map (·.1) ∨ f.Fits (sets.get f)) : f.Fits (sets'.get f) := by
  induction fields generalizing sets with
  | nil =>
    obtain ⟨rfl, -⟩ := Prod.mk.inj (Except.ok.inj h)
    simpa using hf
  | cons field rest ih =>
    obtain ⟨g, text⟩ := field
    unfold readFields at h
    split at h
    · rename_i values hread
      apply ih h
      rw [FieldSets.get_set]
      by_cases hfg : f = g
      · rw [if_pos hfg, hfg]
        exact .inr (Field.fits_of_read hread)
      · rw [if_neg hfg]
        rw [List.map_cons, List.mem_cons] at hf
        rcases hf with (heq | hrest) | hfits
        · exact absurd heq hfg
        · exact .inl hrest
        · exact .inr hfits
    · exact absurd h (by simp)
    · exact absurd h (by simp)

theorem wellFormed_of_readExpression {expression : String} {sets : FieldSets}
    (h : Schedule.readExpression expression = .ok (sets, none)) : sets.WellFormed := by
  intro f
  unfold Schedule.readExpression at h
  simp only at h
  split at h
  · rename_i hlength
    apply fits_of_readFields h f
    rw [List.map_fst_zip hlength.ge]
    exact .inl f.mem_all
  · exact absurd h (by simp)

namespace Schedule

/-- The schedule is what its expression reads as, and has no flaw. -/
structure Valid (s : Schedule) : Prop where
  isValid : s.isValid = true
  read : (ofExpressionWithin s.searchLimit s.expression).result = .ok s

theorem ofExpressionWithin_result (searchLimit : Int) (expression : String) :
    (ofExpressionWithin searchLimit expression).result =
      (readExpression expression).map fun (sets, flaw) => { expression, searchLimit, sets, flaw } := by
  cases hread : readExpression expression with
  | error e => simp [ofExpressionWithin, hread, Outcome.ofExcept, Outcome.bind_error, Except.map]
  | ok answer =>
    rcases answer with ⟨sets, _ | flaw⟩ <;>
      simp [ofExpressionWithin, hread, Outcome.ofExcept, bind, Outcome.bind, pure, Outcome.pure,
        Outcome.report, Except.map]

theorem readExpression_of_ofExpressionWithin {searchLimit : Int} {expression : String} {s : Schedule}
    (h : (ofExpressionWithin searchLimit expression).result = .ok s) :
    readExpression expression = .ok (s.sets, s.flaw) ∧ s.searchLimit = searchLimit ∧
      s.expression = expression := by
  rw [ofExpressionWithin_result] at h
  rcases exists_of_map_eq_ok h with ⟨⟨sets, flaw⟩, hread, rfl⟩
  exact ⟨hread, rfl, rfl⟩

theorem valid_of_ofExpressionWithin {searchLimit : Int} {expression : String} {s : Schedule}
    (h : (ofExpressionWithin searchLimit expression).result = .ok s) (hvalid : s.isValid = true) :
    s.Valid := by
  obtain ⟨-, hlimit, hexpression⟩ := readExpression_of_ofExpressionWithin h
  exact ⟨hvalid, by rw [hlimit, hexpression]; exact h⟩

/-- With another bound on its searches, the expression reads as the same schedule otherwise. -/
theorem Valid.withLimit {s : Schedule} (h : s.Valid) (bound : Int) :
    ({ s with searchLimit := bound } : Schedule).Valid := by
  obtain ⟨hread, -, -⟩ := readExpression_of_ofExpressionWithin h.read
  refine ⟨h.isValid, ?_⟩
  show (ofExpressionWithin bound s.expression).result = _
  rw [ofExpressionWithin_result, hread]
  rfl

theorem Valid.wellFormed {s : Schedule} (h : s.Valid) : s.sets.WellFormed := by
  obtain ⟨hread, -, -⟩ := readExpression_of_ofExpressionWithin h.read
  have hflaw : s.flaw = none := Option.isNone_iff_eq_none.mp h.isValid
  rw [hflaw] at hread
  exact wellFormed_of_readExpression hread

theorem Valid.check_eq {s : Schedule} (h : s.Valid) : s.check = .ok () := if_pos h.isValid

/-! ## A schedule of rare runs -/

/-- Midnight of every leap day. -/
def leapDays (searchLimit : Int) : Schedule where
  expression := "0 0 29 2 *"
  searchLimit
  sets := {
    minutes := (ValueSet.empty 0 59).insert 0
    hours := (ValueSet.empty 0 23).insert 0
    days := (ValueSet.empty 1 31).insert 29
    months := (ValueSet.empty 1 12).insert 2
    weekdays := (ValueSet.empty 0 6).insertAll }
  flaw := none

theorem leapDays_valid (searchLimit : Int) : (leapDays searchLimit).Valid := by
  have hread : readExpression "0 0 29 2 *" = .ok ((leapDays searchLimit).sets, none) := by
    rfl
  refine ⟨rfl, ?_⟩
  rw [ofExpressionWithin_result]
  show (readExpression "0 0 29 2 *").map _ = _
  rw [hread]
  rfl

end Schedule

end Timetable
