import Timetable.Proofs.FieldGrammar

/-!
# Numerals that are too long to be converted

Reading a field ends in a failure that is no flaw exactly where it comes to a numeral of more digits than
can be converted, before it finds a flaw.

* `Item.Overlong` says where an item has such a numeral. A step is read before what stands in front of it,
  and the start of a range before its end (`Item.read_eq_numeralTooLong_iff`).
* `Field.Overlong` says the same of a field, whose items are read from the left
  (`Field.read_eq_numeralTooLong_iff`). A field without such a numeral is read or has a flaw.
* Whatever is read holds short numerals only, so that the grammar of fields says when it is
  (`Field.exists_read_iff`).
-/

namespace Timetable

open Text

/-! ## Numerals -/

/-- A numeral that can be converted. -/
structure ShortNumeral (text : List Char) : Prop where
  isNumeral : isNumeral text = true
  length_le : text.length ≤ maxDigits

/-- A numeral of too many digits to be converted. -/
structure LongNumeral (digits : Nat) (text : List Char) : Prop where
  isNumeral : isNumeral text = true
  length_eq : text.length = digits
  lt_digits : maxDigits < digits

-- A numeral is converted unless it is too long; anything else is a flaw.
theorem readNumeral_of_numeral {text : List Char} (h : isNumeral text = true) :
    readNumeral text = if maxDigits < text.length then .error (.numeralTooLong text.length)
      else .ok (numeralValue text) := by
  rw [readNumeral, if_neg (by simp [h])]

theorem readNumeral_of_not_numeral {text : List Char} (h : isNumeral text = false) :
    readNumeral text = .error (.flawed (.malformedInteger (String.ofList text))) := by
  rw [readNumeral, if_pos h]

theorem readNumeral_eq_ok_iff {text : List Char} {n : Nat} :
    readNumeral text = .ok n ↔ ShortNumeral text ∧ numeralValue text = n := by
  cases h : isNumeral text with
  | false =>
    rw [readNumeral_of_not_numeral h]
    exact ⟨fun heq => absurd heq (by simp), fun hshort => absurd (h.symm.trans hshort.1.isNumeral) (by decide)⟩
  | true =>
    rw [readNumeral_of_numeral h]
    by_cases hlong : maxDigits < text.length
    · rw [if_pos hlong]
      exact ⟨fun heq => absurd heq (by simp), fun hshort => absurd hshort.1.length_le (Nat.not_le.mpr hlong)⟩
    · rw [if_neg hlong, Except.ok.injEq]
      exact ⟨fun heq => ⟨⟨h, Nat.not_lt.mp hlong⟩, heq⟩, fun hshort => hshort.2⟩

theorem readNumeral_eq_numeralTooLong_iff {text : List Char} {digits : Nat} :
    readNumeral text = .error (.numeralTooLong digits) ↔ LongNumeral digits text := by
  cases h : isNumeral text with
  | false =>
    rw [readNumeral_of_not_numeral h]
    exact ⟨fun heq => absurd heq (by simp), fun hlong => absurd (h.symm.trans hlong.isNumeral) (by decide)⟩
  | true =>
    rw [readNumeral_of_numeral h]
    by_cases hlong : maxDigits < text.length
    · rw [if_pos hlong, Except.error.injEq, ReadFailure.numeralTooLong.injEq]
      exact ⟨fun heq => ⟨h, heq, heq ▸ hlong⟩, fun hlong => hlong.length_eq⟩
    · rw [if_neg hlong]
      exact ⟨fun heq => absurd heq (by simp), fun h => absurd (h.length_eq ▸ h.lt_digits) hlong⟩

/-! ## Short numerals in parts of a text -/

theorem ShortNumeral.shortNumerals {text : List Char} (h : ShortNumeral text) : ShortNumerals text :=
  fun _ hrun _ => hrun.length_le.trans h.length_le

-- A run of digits ends before a character that is none.
theorem ShortNumerals.append_cons {a b : List Char} {c : Char} (hc : isDigit c = false) (ha : ShortNumerals a)
    (hb : ShortNumerals b) : ShortNumerals (a ++ c :: b) := by
  intro run hrun hdigits
  have hnil : ∀ part, part <+: c :: b → part.all isDigit = true → part = [] := by
    intro part hpart hall
    cases part with
    | nil => rfl
    | cons d part =>
      have hd : d = c := (List.cons_prefix_cons.mp hpart).1
      rw [List.all_cons, hd, hc] at hall
      exact absurd hall (by simp)
  rcases List.infix_append_iff.mp hrun with hleft | hright | hacross
  · exact ha run hleft hdigits
  · rcases List.infix_cons_iff.mp hright with hprefix | hinfix
    · rw [hnil run hprefix hdigits]
      exact Nat.zero_le maxDigits
    · exact hb run hinfix hdigits
  · obtain ⟨left, right, rfl, hleft, hright⟩ := hacross
    rw [List.all_append, Bool.and_eq_true] at hdigits
    rw [hnil right hright hdigits.2, List.append_nil]
    exact ha left hleft.isInfix hdigits.1

theorem beq_eq_false_of_not_mem {text : List Char} {c : Char} (h : c ∉ text) : ∀ d ∈ text, (d == c) = false := by
  intro d hd
  rw [beq_eq_false_iff_ne]
  exact fun heq => h (heq ▸ hd)

-- By induction on the length of the text; the part behind the first separator is shorter.
theorem shortNumerals_of_splitOnP {c : Char} (hc : isDigit c = false) (text : List Char)
    (h : ∀ piece ∈ text.splitOnP (· == c), ShortNumerals piece) : ShortNumerals text := by
  by_cases hmem : c ∈ text
  · obtain ⟨first, rest, rfl, hfirst⟩ := List.eq_append_cons_of_mem hmem
    rw [List.splitOnP_append_cons_of_forall_mem (beq_eq_false_of_not_mem hfirst) c (beq_self_eq_true c),
      List.forall_mem_cons] at h
    exact h.1.append_cons hc (shortNumerals_of_splitOnP hc rest h.2)
  · rw [List.splitOnP_eq_singleton (beq_eq_false_of_not_mem hmem)] at h
    exact h text List.mem_cons_self
termination_by text.length

/-! ## Sequences that may fail -/

theorem bind_eq_error_iff {α β ε : Type} {x : Except ε α} {f : α → Except ε β} {e : ε} :
    (x >>= f) = .error e ↔ x = .error e ∨ ∃ a, x = .ok a ∧ f a = .error e := by
  cases x with
  | error e' => simp [bind, Except.bind]
  | ok a => simp [bind, Except.bind]

theorem bind_eq_ok_iff {α β ε : Type} {x : Except ε α} {f : α → Except ε β} {b : β} :
    (x >>= f) = .ok b ↔ ∃ a, x = .ok a ∧ f a = .ok b := by
  cases x with
  | error e => simp [bind, Except.bind]
  | ok a => simp [bind, Except.bind]

/-- Some element of a list stops, and all that stand in front of it pass. -/
def Reaches {α : Type} (passes stops : α → Prop) (l : List α) : Prop :=
  ∃ before a after, l = before ++ a :: after ∧ (∀ b ∈ before, passes b) ∧ stops a

theorem not_reaches_nil {α : Type} {passes stops : α → Prop} : ¬ Reaches passes stops [] := by
  intro h
  obtain ⟨before, a, after, hl, -⟩ := h
  exact absurd hl (by simp)

theorem reaches_cons {α : Type} {passes stops : α → Prop} {a : α} {l : List α} :
    Reaches passes stops (a :: l) ↔ stops a ∨ (passes a ∧ Reaches passes stops l) := by
  constructor
  · intro h
    obtain ⟨before, a', after, hl, hbefore, hstops⟩ := h
    cases before with
    | nil =>
      have ha : a = a' := (List.cons.inj hl).1
      exact .inl (ha ▸ hstops)
    | cons b before =>
      have hparts : a = b ∧ l = before ++ a' :: after := List.cons.inj hl
      rw [List.forall_mem_cons, ← hparts.1] at hbefore
      exact .inr ⟨hbefore.1, before, a', after, hparts.2, hbefore.2, hstops⟩
  · intro h
    cases h with
    | inl hstops => exact ⟨[], a, l, rfl, by simp, hstops⟩
    | inr hrest =>
      obtain ⟨hpasses, before, a', after, rfl, hbefore, hstops⟩ := hrest
      exact ⟨a :: before, a', after, rfl, List.forall_mem_cons.mpr ⟨hpasses, hbefore⟩, hstops⟩

/-- Reading a list of texts fails at the first one that cannot be read. -/
theorem mapM_eq_error_iff {α β ε : Type} {f : α → Except ε β} {l : List α} {e : ε} :
    l.mapM f = .error e ↔ Reaches (fun a => ∃ b, f a = .ok b) (fun a => f a = .error e) l := by
  induction l with
  | nil => simp [not_reaches_nil, pure, Except.pure]
  | cons a l ih =>
    rw [List.mapM_cons, bind_eq_error_iff, reaches_cons, ← ih]
    simp [bind_eq_error_iff, pure, Except.pure]

/-! ## Items -/

namespace Item

/-- The numeral that is read first and is too long, in what stands in front of a step or in an item without
a step. -/
inductive BaseOverlong (digits : Nat) : List Char → Prop where
  | number {n : List Char} (hn : LongNumeral digits n) : BaseOverlong digits n
  | start {a b : List Char} (ha : LongNumeral digits a) : BaseOverlong digits (a ++ '-' :: b)
  | stop {a b : List Char} (ha : ShortNumeral a) (hb : LongNumeral digits b) :
      BaseOverlong digits (a ++ '-' :: b)

/-- The numeral that is read first and is too long, in an item. -/
inductive Overlong (digits : Nat) : List Char → Prop where
  | step {base s : List Char} (hbase : '/' ∉ base) (hs : LongNumeral digits s) :
      Overlong digits (base ++ '/' :: s)
  | unstepped {base : List Char} (hbase : '/' ∉ base) (h : BaseOverlong digits base) : Overlong digits base
  | stepped {base s : List Char} (hbase : '/' ∉ base) (hs : ShortNumeral s) (hpos : 1 ≤ numeralValue s)
      (h : BaseOverlong digits base) : Overlong digits (base ++ '/' :: s)

variable {text base a b s : List Char} {digits : Nat}

theorem BaseOverlong.readBase_eq (h : BaseOverlong digits base) (step : Option Nat) :
    readBase base step = .error (.numeralTooLong digits) := by
  cases h with
  | number hn =>
    have hstar : base ≠ ['*'] := by
      intro heq
      rw [heq] at hn
      exact absurd hn.isNumeral (by decide)
    rw [readBase_of_not_mem step hstar (not_mem_of_isNumeral hn.isNumeral (by decide))]
    exact bind_eq_error_iff.mpr (.inl (readNumeral_eq_numeralTooLong_iff.mpr hn))
  | start ha =>
    rw [readBase_of_dash step (not_mem_of_isNumeral ha.isNumeral (by decide))]
    exact bind_eq_error_iff.mpr (.inl (readNumeral_eq_numeralTooLong_iff.mpr ha))
  | stop ha hb =>
    rw [readBase_of_dash step (not_mem_of_isNumeral ha.isNumeral (by decide))]
    have hstop := readNumeral_eq_numeralTooLong_iff.mpr hb
    exact bind_eq_error_iff.mpr
      (.inr ⟨_, readNumeral_eq_ok_iff.mpr ⟨ha, rfl⟩, bind_eq_error_iff.mpr (.inl hstop)⟩)

-- The case splits follow the order of reading: start of a range, end of it, or a single number.
theorem baseOverlong_of_readBase {step : Option Nat} (h : readBase base step = .error (.numeralTooLong digits)) :
    BaseOverlong digits base := by
  by_cases hstar : base = ['*']
  · unfold readBase at h
    rw [if_pos hstar] at h
    exact absurd h (by simp)
  by_cases hdash : '-' ∈ base
  · obtain ⟨a, b, rfl, ha⟩ := List.eq_append_cons_of_mem hdash
    rw [readBase_of_dash step ha] at h
    cases bind_eq_error_iff.mp h with
    | inl hstart => exact .start (readNumeral_eq_numeralTooLong_iff.mp hstart)
    | inr hrest =>
      obtain ⟨start, hstart, hrest⟩ := hrest
      cases bind_eq_error_iff.mp hrest with
      | inl hstop =>
        exact .stop (readNumeral_eq_ok_iff.mp hstart).1 (readNumeral_eq_numeralTooLong_iff.mp hstop)
      | inr hrange =>
        obtain ⟨stop, -, hrange⟩ := hrange
        split at hrange
        · exact absurd hrange (by simp)
        · exact absurd hrange (by simp)
  · rw [readBase_of_not_mem step hstar hdash] at h
    cases bind_eq_error_iff.mp h with
    | inl hn => exact .number (readNumeral_eq_numeralTooLong_iff.mp hn)
    | inr hitem =>
      obtain ⟨n, -, hitem⟩ := hitem
      exact absurd hitem (by simp)

theorem read_append_cons (hbase : '/' ∉ base) : read (base ++ '/' :: s) = (do
    let step ← readNumeral s
    if step = 0 then .error (.flawed .zeroStep) else readBase base (some step)) := by
  rw [read, cut_append_cons hbase]

/-- Reading an item stops at a numeral that is too long exactly where the item has it. -/
theorem read_eq_numeralTooLong_iff :
    read text = .error (.numeralTooLong digits) ↔ Overlong digits text := by
  constructor
  · intro h
    by_cases hslash : '/' ∈ text
    · obtain ⟨base, s, rfl, hbase⟩ := List.eq_append_cons_of_mem hslash
      rw [read_append_cons hbase] at h
      cases bind_eq_error_iff.mp h with
      | inl hs => exact .step hbase (readNumeral_eq_numeralTooLong_iff.mp hs)
      | inr hrest =>
        obtain ⟨step, hs, hrest⟩ := hrest
        obtain ⟨hshort, rfl⟩ := readNumeral_eq_ok_iff.mp hs
        by_cases hzero : numeralValue s = 0
        · rw [if_pos hzero] at hrest
          exact absurd hrest (by simp)
        · rw [if_neg hzero] at hrest
          exact .stepped hbase hshort (by omega) (baseOverlong_of_readBase hrest)
    · rw [read_of_not_mem hslash] at h
      exact .unstepped hslash (baseOverlong_of_readBase h)
  · intro h
    cases h with
    | step hbase hs =>
      rw [read_append_cons hbase]
      exact bind_eq_error_iff.mpr (.inl (readNumeral_eq_numeralTooLong_iff.mpr hs))
    | unstepped hbase h =>
      rw [read_of_not_mem hbase]
      exact h.readBase_eq none
    | stepped hbase hs hpos h =>
      rw [read_append_cons hbase]
      refine bind_eq_error_iff.mpr (.inr ⟨_, readNumeral_eq_ok_iff.mpr ⟨hs, rfl⟩, ?_⟩)
      rw [if_neg (by omega)]
      exact h.readBase_eq (some _)

/-! ### Items that are read hold short numerals -/

theorem shortNumerals_of_readBase {step : Option Nat} {item : Item} (h : readBase base step = .ok item) :
    ShortNumerals base := by
  by_cases hstar : base = ['*']
  · rw [hstar]
    intro run hrun _
    exact hrun.length_le.trans (by decide)
  by_cases hdash : '-' ∈ base
  · obtain ⟨a, b, rfl, ha⟩ := List.eq_append_cons_of_mem hdash
    rw [readBase_of_dash step ha] at h
    obtain ⟨start, hstart, hrest⟩ := bind_eq_ok_iff.mp h
    obtain ⟨stop, hstop, -⟩ := bind_eq_ok_iff.mp hrest
    exact (readNumeral_eq_ok_iff.mp hstart).1.shortNumerals.append_cons (by decide)
      (readNumeral_eq_ok_iff.mp hstop).1.shortNumerals
  · rw [readBase_of_not_mem step hstar hdash] at h
    obtain ⟨n, hn, -⟩ := bind_eq_ok_iff.mp h
    exact (readNumeral_eq_ok_iff.mp hn).1.shortNumerals

/-- The texts that are read are those in which an item is written with short numerals. -/
theorem exists_read_iff :
    (∃ item, read text = .ok item) ↔ ShortNumerals text ∧ ∃ item : Item, item.WrittenAs text := by
  constructor
  · intro h
    obtain ⟨item, hread⟩ := h
    have hshort : ShortNumerals text := by
      by_cases hslash : '/' ∈ text
      · obtain ⟨base, s, rfl, hbase⟩ := List.eq_append_cons_of_mem hslash
        rw [read_append_cons hbase] at hread
        obtain ⟨step, hs, hrest⟩ := bind_eq_ok_iff.mp hread
        split at hrest
        · exact absurd hrest (by simp)
        · exact (shortNumerals_of_readBase hrest).append_cons (by decide)
            (readNumeral_eq_ok_iff.mp hs).1.shortNumerals
      · rw [read_of_not_mem hslash] at hread
        exact shortNumerals_of_readBase hread
    exact ⟨hshort, item, (read_eq_ok_iff hshort).mp hread⟩
  · intro h
    obtain ⟨hshort, item, hwritten⟩ := h
    exact ⟨item, read_of_writtenAs hshort hwritten⟩

end Item

/-! ## Fields -/

namespace Field

variable {f : Field} {text : String} {digits : Nat}

/-- The numeral that is read first and is too long, in a field without a character that is out of place.
The items in front of it are read. -/
structure Overlong (digits : Nat) (text : String) : Prop where
  chars : ∀ c ∈ text.toList, c ∈ "0123456789*-,/".toList
  items : Reaches (fun piece => ShortNumerals piece ∧ ∃ item : Item, item.WrittenAs piece)
    (Item.Overlong digits) (text.toList.splitOnP (· == ','))

-- Which values a field has does not matter, as they are looked at last.
theorem read_eq_numeralTooLong_iff (f : Field) :
    f.read text = .error (.numeralTooLong digits) ↔ Overlong digits text := by
  have hstray : leastStray? text.toList = none ↔ ∀ c ∈ text.toList, c ∈ "0123456789*-,/".toList := by
    simp only [leastStray?_eq_none_iff, isFieldChar_iff]
  unfold read
  cases hleast : leastStray? text.toList with
  | some c =>
    refine ⟨fun h => absurd h (by simp), fun h => ?_⟩
    exact absurd (hleast.symm.trans (hstray.mpr h.chars)) (by simp)
  | none =>
    have hmap : (text.toList.splitOnP (· == ',')).mapM Item.read = .error (.numeralTooLong digits) ↔
        Overlong digits text := by
      simp only [mapM_eq_error_iff, Item.exists_read_iff, Item.read_eq_numeralTooLong_iff]
      exact ⟨fun h => ⟨hstray.mp hleast, h⟩, fun h => h.items⟩
    rw [← hmap]
    constructor
    · intro h
      cases bind_eq_error_iff.mp h with
      | inl herror => exact herror
      | inr hrest =>
        obtain ⟨items, -, hvalues⟩ := hrest
        simp only at hvalues
        split at hvalues
        · exact absurd hvalues (by simp)
        · exact absurd hvalues (by simp)
    · intro h
      exact bind_eq_error_iff.mpr (.inl h)

/-- The texts that are read are those that the field accepts and that hold short numerals. -/
theorem exists_read_iff :
    (∃ values, f.read text = .ok values) ↔ ShortNumerals text.toList ∧ f.Accepts text := by
  constructor
  · intro h
    obtain ⟨values, hread⟩ := h
    have hshort : ShortNumerals text.toList := by
      apply shortNumerals_of_splitOnP (c := ',') (by decide)
      intro piece hpiece
      unfold read at hread
      split at hread
      · exact absurd hread (by simp)
      · obtain ⟨items, hitems, -⟩ := bind_eq_ok_iff.mp hread
        cases mapM_cases Item.read (text.toList.splitOnP (· == ',')) with
        | inl hread =>
          obtain ⟨read, -, hpieces, -⟩ := hread
          obtain ⟨item, -, hitem⟩ := hpieces piece hpiece
          exact (Item.exists_read_iff.mp ⟨item, hitem⟩).1
        | inr hfailed =>
          obtain ⟨failed, -, e, -, hfailed⟩ := hfailed
          exact absurd (hitems.symm.trans hfailed) (by simp)
    cases f.read_cases hshort with
    | inl haccepts => exact ⟨hshort, haccepts.1⟩
    | inr hrefused =>
      obtain ⟨-, flaw, hflaw⟩ := hrefused
      exact absurd (hread.symm.trans hflaw) (by simp)
  · intro h
    cases f.read_cases h.1 with
    | inl haccepts =>
      obtain ⟨-, values, hread, -⟩ := haccepts
      exact ⟨values, hread⟩
    | inr hrefused => exact absurd h.2 hrefused.1

end Field

end Timetable
