import Mathlib.Data.List.Forall2
import Mathlib.Tactic.IntervalCases
import Timetable.Cron.FieldText
import Timetable.Proofs.ReadSchedule

/-!
# The grammar of a field

How items are written, and which texts a field accepts.

* `Item.WrittenAs` lists the six forms of an item. An item is read exactly from the texts in which it
  is written (`Item.read_of_writtenAs`, `Item.read_cases`).
* `Field.Accepts` is the grammar of a whole field. The set that is read holds what the items of the
  text denote, between the bounds of the field (`Field.read_accepts`).

Numerals that are too long to be converted are left out by `ShortNumerals`.
-/

namespace Timetable

open Text

/-! ## Numerals -/

/-- No run of digits in the text is too long to be converted. -/
def ShortNumerals (text : List Char) : Prop :=
  ∀ run, run <:+: text → run.all isDigit = true → run.length ≤ maxDigits

theorem ShortNumerals.of_infix {text part : List Char} (h : ShortNumerals text) (hpart : part <:+: text) :
    ShortNumerals part := fun run hrun => h run (hrun.trans hpart)

theorem ShortNumerals.left {a b : List Char} {c : Char} (h : ShortNumerals (a ++ c :: b)) : ShortNumerals a :=
  h.of_infix (List.prefix_append a _).isInfix

theorem ShortNumerals.right {a b : List Char} {c : Char} (h : ShortNumerals (a ++ c :: b)) : ShortNumerals b :=
  h.of_infix (List.suffix_append_of_suffix (List.suffix_cons c b)).isInfix

theorem not_mem_of_isNumeral {text : List Char} {c : Char} (h : isNumeral text = true)
    (hc : isDigit c = false) : c ∉ text := by
  intro hmem
  rw [isNumeral, Bool.and_eq_true, List.all_eq_true] at h
  exact Bool.false_ne_true (hc.symm.trans (h.2 c hmem))

theorem readNumeral_of_isNumeral {text : List Char} (hshort : ShortNumerals text)
    (h : isNumeral text = true) : readNumeral text = .ok (numeralValue text) := by
  have hdigits : text.all isDigit = true := by
    rw [isNumeral, Bool.and_eq_true] at h
    exact h.2
  have hlength := hshort text List.infix_rfl hdigits
  rw [readNumeral, if_neg (by simp [h]), if_neg (Nat.not_lt.mpr hlength)]

-- What is no short numeral has a flaw.
theorem readNumeral_cases {text : List Char} (hshort : ShortNumerals text) :
    (isNumeral text = true ∧ readNumeral text = .ok (numeralValue text)) ∨
      ∃ flaw, readNumeral text = .error (.flawed flaw) := by
  by_cases h : isNumeral text = true
  · exact .inl ⟨h, readNumeral_of_isNumeral hshort h⟩
  · rw [readNumeral, if_pos (Bool.eq_false_iff.mpr h)]
    exact .inr ⟨_, rfl⟩

/-! ## Items -/

namespace Item

/-- The text in which an item is written. Numerals may have leading zeros; a step is at least 1, and
no range ends before it starts. -/
inductive WrittenAs : Item → List Char → Prop where
  | every : WrittenAs every ['*']
  | everyNth {s : List Char} (hs : isNumeral s = true) (hpos : 1 ≤ numeralValue s) :
      WrittenAs (everyNth (numeralValue s)) (['*'] ++ '/' :: s)
  | single {n : List Char} (hn : isNumeral n = true) : WrittenAs (single (numeralValue n)) n
  | onward {n s : List Char} (hn : isNumeral n = true) (hs : isNumeral s = true)
      (hpos : 1 ≤ numeralValue s) : WrittenAs (onward (numeralValue n) (numeralValue s)) (n ++ '/' :: s)
  | range {a b : List Char} (ha : isNumeral a = true) (hb : isNumeral b = true)
      (hle : numeralValue a ≤ numeralValue b) :
      WrittenAs (range (numeralValue a) (numeralValue b) 1) (a ++ '-' :: b)
  | rangeNth {a b s : List Char} (ha : isNumeral a = true) (hb : isNumeral b = true)
      (hle : numeralValue a ≤ numeralValue b) (hs : isNumeral s = true) (hpos : 1 ≤ numeralValue s) :
      WrittenAs (range (numeralValue a) (numeralValue b) (numeralValue s)) ((a ++ '-' :: b) ++ '/' :: s)

variable {text base a b s : List Char} {item : Item}

-- The three branches of reading what stands in front of a step.
theorem readBase_of_dash (step : Option Nat) (ha : '-' ∉ a) :
    readBase (a ++ '-' :: b) step = (do
      let start ← readNumeral a
      let stop ← readNumeral b
      if stop < start then .error (.flawed (.invertedRange start stop))
      else .ok (.range start stop (step.getD 1))) := by
  have hstar : a ++ '-' :: b ≠ ['*'] := by
    intro h
    have hmem : '-' ∈ a ++ '-' :: b := by simp
    rw [h] at hmem
    exact absurd hmem (by decide)
  unfold readBase
  simp only [if_neg hstar, cut_append_cons ha]

theorem readBase_of_not_mem (step : Option Nat) (hstar : base ≠ ['*']) (hdash : '-' ∉ base) :
    readBase base step = (do
      let n ← readNumeral base
      .ok (step.elim (.single n) (.onward n))) := by
  unfold readBase
  simp only [if_neg hstar, cut_of_not_mem hdash]
  cases step with
  | none => rfl
  | some step => rfl

/-! ### From a written item to the item -/

theorem readBase_range (step : Option Nat) (hshort : ShortNumerals (a ++ '-' :: b))
    (ha : isNumeral a = true) (hb : isNumeral b = true) (hle : numeralValue a ≤ numeralValue b) :
    readBase (a ++ '-' :: b) step = .ok (.range (numeralValue a) (numeralValue b) (step.getD 1)) := by
  rw [readBase_of_dash step (not_mem_of_isNumeral ha (by decide))]
  simp only [readNumeral_of_isNumeral hshort.left ha, readNumeral_of_isNumeral hshort.right hb, bind,
    Except.bind]
  rw [if_neg (Nat.not_lt.mpr hle)]

theorem readBase_numeral (step : Option Nat) (hshort : ShortNumerals base) (h : isNumeral base = true) :
    readBase base step = .ok (step.elim (.single (numeralValue base)) (.onward (numeralValue base))) := by
  have hstar : base ≠ ['*'] := by
    rintro rfl
    exact absurd h (by decide)
  rw [readBase_of_not_mem step hstar (not_mem_of_isNumeral h (by decide))]
  simp only [readNumeral_of_isNumeral hshort h, bind, Except.bind]

theorem read_of_not_mem (h : '/' ∉ text) : read text = readBase text none := by
  rw [read, cut_of_not_mem h]

theorem read_step (hshort : ShortNumerals (base ++ '/' :: s)) (hbase : '/' ∉ base)
    (hs : isNumeral s = true) (hpos : 1 ≤ numeralValue s) :
    read (base ++ '/' :: s) = readBase base (some (numeralValue s)) := by
  rw [read, cut_append_cons hbase]
  simp only [readNumeral_of_isNumeral hshort.right hs, bind, Except.bind]
  rw [if_neg (Nat.ne_of_gt hpos)]

/-- An item is read from every text in which it is written. -/
theorem read_of_writtenAs (hshort : ShortNumerals text) (h : item.WrittenAs text) :
    read text = .ok item := by
  have hslash : ∀ {n : List Char}, isNumeral n = true → '/' ∉ n :=
    fun hn => not_mem_of_isNumeral hn (by decide)
  have hrange : ∀ {a b : List Char}, isNumeral a = true → isNumeral b = true → '/' ∉ a ++ '-' :: b := by
    intro a b ha hb
    simp [hslash ha, hslash hb]
  cases h with
  | every => rfl
  | everyNth hs hpos =>
    rw [read_step hshort (by decide) hs hpos]
    rfl
  | single hn =>
    rw [read_of_not_mem (hslash hn), readBase_numeral none hshort hn]
    exact congrArg Except.ok (Option.elim_none _ _)
  | onward hn hs hpos =>
    rw [read_step hshort (hslash hn) hs hpos,
      readBase_numeral _ hshort.left hn]
    exact congrArg Except.ok (Option.elim_some _ _ _)
  | range ha hb hle =>
    rw [read_of_not_mem (hrange ha hb), readBase_range none hshort ha hb hle]
    rfl
  | rangeNth ha hb hle hs hpos =>
    rw [read_step hshort (hrange ha hb) hs hpos,
      readBase_range _ hshort.left ha hb hle]
    rfl

/-! ### From the item that was read to its form -/

-- The part of an item from its slash on.
def stepSuffix : Option (List Char) → List Char
  | none => []
  | some s => '/' :: s

-- The three forms in front of a step, each with and without one.
theorem readBase_cases (step : Option (List Char)) (hshort : ShortNumerals base)
    (hstep : ∀ s ∈ step, isNumeral s = true ∧ 1 ≤ numeralValue s) :
    (∃ item, readBase base (step.map numeralValue) = .ok item ∧ item.WrittenAs (base ++ stepSuffix step)) ∨
      ∃ flaw, readBase base (step.map numeralValue) = .error (.flawed flaw) := by
  by_cases hstar : base = ['*']
  · subst hstar
    left
    cases step with
    | none => exact ⟨_, rfl, .every⟩
    | some s => exact ⟨_, rfl, .everyNth (hstep s rfl).1 (hstep s rfl).2⟩
  by_cases hdash : '-' ∈ base
  · rcases List.eq_append_cons_of_mem hdash with ⟨a, b, rfl, ha⟩
    rw [readBase_of_dash _ ha]
    rcases readNumeral_cases hshort.left with ⟨ha, haread⟩ | ⟨flaw, haread⟩
    · rcases readNumeral_cases hshort.right with ⟨hb, hbread⟩ | ⟨flaw, hbread⟩
      · simp only [haread, hbread, bind, Except.bind]
        by_cases hle : numeralValue a ≤ numeralValue b
        · rw [if_neg (Nat.not_lt.mpr hle)]
          left
          cases step with
          | none =>
            rw [stepSuffix, List.append_nil]
            exact ⟨_, rfl, .range ha hb hle⟩
          | some s => exact ⟨_, rfl, .rangeNth ha hb hle (hstep s rfl).1 (hstep s rfl).2⟩
        · rw [if_pos (Nat.not_le.mp hle)]
          exact .inr ⟨_, rfl⟩
      · simp only [haread, hbread, bind, Except.bind]
        exact .inr ⟨flaw, rfl⟩
    · simp only [haread, bind, Except.bind]
      exact .inr ⟨flaw, rfl⟩
  · rw [readBase_of_not_mem _ hstar hdash]
    rcases readNumeral_cases hshort with ⟨hn, hread⟩ | ⟨flaw, hread⟩
    · simp only [hread, bind, Except.bind]
      left
      cases step with
      | none =>
        rw [stepSuffix, List.append_nil]
        exact ⟨_, rfl, .single hn⟩
      | some s => exact ⟨_, rfl, .onward hn (hstep s rfl).1 (hstep s rfl).2⟩
    · simp only [hread, bind, Except.bind]
      exact .inr ⟨flaw, rfl⟩

/-- What is read is written in the text, and what is not read has a flaw. -/
theorem read_cases (hshort : ShortNumerals text) :
    (∃ item, read text = .ok item ∧ item.WrittenAs text) ∨ ∃ flaw, read text = .error (.flawed flaw) := by
  by_cases hslash : '/' ∈ text
  · rcases List.eq_append_cons_of_mem hslash with ⟨base, s, rfl, hbase⟩
    rcases readNumeral_cases hshort.right with ⟨hs, hsread⟩ | ⟨flaw, hsread⟩
    · by_cases hpos : 1 ≤ numeralValue s
      · rw [read_step hshort hbase hs hpos]
        apply readBase_cases (some s) hshort.left
        rintro _ ⟨⟩
        exact ⟨hs, hpos⟩
      · rw [read, cut_append_cons hbase]
        simp only [hsread, bind, Except.bind]
        rw [if_pos (by omega)]
        exact .inr ⟨_, rfl⟩
    · rw [read, cut_append_cons hbase]
      simp only [hsread, bind, Except.bind]
      exact .inr ⟨flaw, rfl⟩
  · rw [read_of_not_mem hslash]
    have hcases := readBase_cases none hshort (by simp)
    rwa [stepSuffix, List.append_nil] at hcases

theorem read_eq_ok_iff (hshort : ShortNumerals text) : read text = .ok item ↔ item.WrittenAs text := by
  refine ⟨fun h => ?_, read_of_writtenAs hshort⟩
  rcases read_cases hshort with ⟨item', hread, hwritten⟩ | ⟨flaw, hread⟩
  · rw [hread] at h
    exact Except.ok.inj h ▸ hwritten
  · rw [hread] at h
    exact absurd h (by simp)

-- No text is written for two items.
theorem WrittenAs.unique {item' : Item} (hshort : ShortNumerals text) (h : item.WrittenAs text)
    (h' : item'.WrittenAs text) : item = item' := by
  have hread := read_of_writtenAs hshort h
  rw [read_of_writtenAs hshort h'] at hread
  exact (Except.ok.inj hread).symm

/-! ### What a written item adds -/

-- The steps of written items are positive, so that none is mistaken for 1.
theorem WrittenAs.covers_iff {f : Field} {v : Int} (h : item.WrittenAs text) (hv : f.lo ≤ v ∧ v ≤ f.hi) :
    (item.insertion f).Covers v ↔ item.Denotes f.lo v := by
  cases h with
  | every => exact Iff.rfl
  | single hn => exact Iff.rfl
  | everyNth hs hpos =>
    rw [insertion, ValueSet.Insertion.Covers, Int.max_eq_left (by omega), Denotes]
    exact ⟨fun h => h.2.2, fun h => ⟨hv.1, hv.2, h⟩⟩
  | onward hn hs hpos =>
    rw [insertion, ValueSet.Insertion.Covers, Int.max_eq_left (by omega), Denotes]
    exact and_congr_right fun _ => ⟨fun h => h.2, fun h => ⟨hv.2, h⟩⟩
  | range ha hb hle =>
    rw [insertion, ValueSet.Insertion.Covers, Int.max_eq_left (by omega), Denotes]
  | rangeNth ha hb hle hs hpos =>
    rw [insertion, ValueSet.Insertion.Covers, Int.max_eq_left (by omega), Denotes]

end Item

/-! ## Fields -/

-- The items of a field are parts of its text.
theorem infix_of_mem_splitOnP {α : Type} {p : α → Bool} {text piece : List α}
    (h : piece ∈ text.splitOnP p) : piece <:+: text := by
  suffices hall : ∃ first rest, text.splitOnP p = first :: rest ∧ first <+: text ∧
      ∀ piece ∈ rest, piece <:+: text by
    rcases hall with ⟨first, rest, hsplit, hfirst, hrest⟩
    rw [hsplit, List.mem_cons] at h
    rcases h with rfl | h
    · exact hfirst.isInfix
    · exact hrest piece h
  clear h
  induction text with
  | nil => exact ⟨[], [], List.splitOnP_nil, List.prefix_rfl, by simp⟩
  | cons c text ih =>
    rcases ih with ⟨first, rest, hsplit, hfirst, hrest⟩
    have hlater : ∀ piece ∈ rest, piece <:+: c :: text := fun piece hpiece => List.infix_cons (hrest piece hpiece)
    rw [List.splitOnP_cons_eq_if_modifyHead, hsplit]
    by_cases hc : p c = true
    · rw [if_pos hc]
      refine ⟨[], _, rfl, List.nil_prefix, ?_⟩
      rw [List.forall_mem_cons]
      exact ⟨List.infix_cons hfirst.isInfix, hlater⟩
    · rw [if_neg hc]
      exact ⟨c :: first, rest, rfl, (List.prefix_cons_inj c).mpr hfirst, hlater⟩

-- Reading a list of texts answers with what is read from each, or fails as one of them does.
theorem mapM_cases {α β ε : Type} (f : α → Except ε β) (l : List α) :
    (∃ r, l.mapM f = .ok r ∧ (∀ a ∈ l, ∃ b ∈ r, f a = .ok b) ∧ ∀ b ∈ r, ∃ a ∈ l, f a = .ok b) ∨
      ∃ a ∈ l, ∃ e, f a = .error e ∧ l.mapM f = .error e := by
  induction l with
  | nil => exact .inl ⟨[], rfl, by simp, by simp⟩
  | cons a l ih =>
    rw [List.mapM_cons]
    cases ha : f a with
    | error e => exact .inr ⟨a, List.mem_cons_self, e, ha, rfl⟩
    | ok b =>
      rcases ih with ⟨r, hr, hl, hr'⟩ | ⟨a', ha', e, he, hl⟩
      · rw [hr]
        refine .inl ⟨b :: r, rfl, ?_, ?_⟩
        · rw [List.forall_mem_cons]
          refine ⟨⟨b, List.mem_cons_self, ha⟩, fun a' ha' => ?_⟩
          rcases hl a' ha' with ⟨b', hb', hread⟩
          exact ⟨b', List.mem_cons_of_mem b hb', hread⟩
        · rw [List.forall_mem_cons]
          refine ⟨⟨a, List.mem_cons_self, ha⟩, fun b' hb' => ?_⟩
          rcases hr' b' hb' with ⟨a', ha', hread⟩
          exact ⟨a', List.mem_cons_of_mem a ha', hread⟩
      · rw [hl]
        exact .inr ⟨a', List.mem_cons_of_mem a ha', e, he, rfl⟩

theorem leastStray?_eq_none_iff {text : List Char} :
    leastStray? text = none ↔ ∀ c ∈ text, isFieldChar c = true := by
  have hfilter : text.filter (!isFieldChar ·) = [] ↔ ∀ c ∈ text, isFieldChar c = true := by
    rw [List.filter_eq_nil_iff]
    simp
  rw [← hfilter, leastStray?]
  split
  · rename_i hnil
    simp [hnil]
  · rename_i hcons
    simp [hcons]

theorem isFieldChar_iff {c : Char} : isFieldChar c = true ↔ c ∈ "0123456789*-,/".toList := by
  have hchars : ∀ d ∈ "0123456789*-,/".toList, isFieldChar d = true := List.all_eq_true.mp rfl
  refine ⟨fun h => ?_, hchars c⟩
  simp only [isFieldChar, isDigit, Bool.or_eq_true, Bool.and_eq_true, decide_eq_true_eq, beq_iff_eq] at h
  rcases h with (((⟨hlo, hhi⟩ | rfl) | rfl) | rfl) | rfl
  · -- A digit is one of ten code points.
    have hcode : c = Char.ofNat c.toNat := (Char.ofNat_toNat c).symm
    have hlo : 48 ≤ c.toNat := hlo
    have hhi : c.toNat ≤ 57 := hhi
    rw [hcode]
    interval_cases c.toNat <;> decide
  · decide
  · decide
  · decide
  · decide

namespace Field

variable {f : Field} {text : String} {v : Int}

/-- Some item of the text denotes the value. -/
def TextDenotes (f : Field) (text : String) (v : Int) : Prop :=
  ∃ piece ∈ text.toList.splitOnP (· == ','), ∃ item : Item, item.WrittenAs piece ∧ item.Denotes f.lo v

/-- The text is a list of items between commas, and one of them denotes a value of the field. -/
structure Accepts (f : Field) (text : String) : Prop where
  chars : ∀ c ∈ text.toList, c ∈ "0123456789*-,/".toList
  items : ∀ piece ∈ text.toList.splitOnP (· == ','), ∃ item : Item, item.WrittenAs piece
  value : ∃ v, (f.lo ≤ v ∧ v ≤ f.hi) ∧ f.TextDenotes text v

theorem mem_collect {items : List Item} (h : ∀ item ∈ items, ∃ piece, item.WrittenAs piece) :
    v ∈ f.collect items ↔ (f.lo ≤ v ∧ v ≤ f.hi) ∧ ∃ item ∈ items, item.Denotes f.lo v := by
  rw [collect_eq, ValueSet.mem_foldl_apply, or_iff_right (ValueSet.not_mem_empty f.lo f.hi)]
  apply and_congr_right
  intro hv
  simp only [List.mem_map, exists_exists_and_eq_and]
  apply exists_congr
  intro item
  apply and_congr_right
  intro hitem
  cases h item hitem with
  | intro piece hpiece => exact hpiece.covers_iff hv

/-- What is read is a set of the values that the text denotes, between the bounds of the field. -/
def Reads (f : Field) (text : String) (values : ValueSet) : Prop :=
  values.lo = f.lo ∧ values.hi = f.hi ∧ ∀ v, v ∈ values ↔ (f.lo ≤ v ∧ v ≤ f.hi) ∧ f.TextDenotes text v

-- The items that are written in the pieces of a text denote what the text denotes.
theorem reads_collect {items : List Item} (hshort : ShortNumerals text.toList)
    (hpieces : ∀ piece ∈ text.toList.splitOnP (· == ','), ∃ item ∈ items, item.WrittenAs piece)
    (hitems : ∀ item ∈ items, ∃ piece ∈ text.toList.splitOnP (· == ','), item.WrittenAs piece) :
    f.Reads text (f.collect items) := by
  refine ⟨(f.collect_bounds items).1, (f.collect_bounds items).2, fun v => ?_⟩
  have hwritten : ∀ item ∈ items, ∃ piece, item.WrittenAs piece := by
    intro item hitem
    rcases hitems item hitem with ⟨piece, -, hpiece⟩
    exact ⟨piece, hpiece⟩
  rw [mem_collect hwritten]
  apply and_congr_right
  intro _
  constructor
  · rintro ⟨item, hitem, hdenotes⟩
    rcases hitems item hitem with ⟨piece, hmem, hpiece⟩
    exact ⟨piece, hmem, item, hpiece, hdenotes⟩
  · rintro ⟨piece, hmem, item, hpiece, hdenotes⟩
    rcases hpieces piece hmem with ⟨item', hitem', hpiece'⟩
    rw [hpiece.unique (hshort.of_infix (infix_of_mem_splitOnP hmem)) hpiece'] at hdenotes
    exact ⟨item', hitem', hdenotes⟩

-- The three ways in which a text is refused are the three in which it is none of the grammar.
theorem read_cases (f : Field) (hshort : ShortNumerals text.toList) :
    (f.Accepts text ∧ ∃ values, f.read text = .ok values ∧ f.Reads text values) ∨
      (¬ f.Accepts text ∧ ∃ flaw, f.read text = .error (.flawed flaw)) := by
  have hshorts : ∀ piece ∈ text.toList.splitOnP (· == ','), ShortNumerals piece :=
    fun piece hpiece => hshort.of_infix (infix_of_mem_splitOnP hpiece)
  unfold read
  cases hstray : leastStray? text.toList with
  | some c =>
    refine .inr ⟨fun haccepts => ?_, _, rfl⟩
    have hnone := leastStray?_eq_none_iff.mpr fun c hc => isFieldChar_iff.mpr (haccepts.chars c hc)
    rw [hstray] at hnone
    exact absurd hnone (by simp)
  | none =>
    rcases mapM_cases Item.read (text.toList.splitOnP (· == ',')) with
      ⟨items, hread, hpieces, hitems⟩ | ⟨piece, hmem, e, hpiece, hread⟩
    · have hreads : f.Reads text (f.collect items) := by
        apply reads_collect hshort
        · intro piece hmem
          rcases hpieces piece hmem with ⟨item, hitem, hpiece⟩
          exact ⟨item, hitem, (Item.read_eq_ok_iff (hshorts piece hmem)).mp hpiece⟩
        · intro item hitem
          rcases hitems item hitem with ⟨piece, hmem, hpiece⟩
          exact ⟨piece, hmem, (Item.read_eq_ok_iff (hshorts piece hmem)).mp hpiece⟩
      simp only [hread, bind, Except.bind]
      by_cases hempty : (f.collect items).isEmpty = true
      · rw [if_pos hempty]
        refine .inr ⟨fun haccepts => ?_, _, rfl⟩
        rcases haccepts.value with ⟨v, hv⟩
        exact ValueSet.not_mem_of_isEmpty hempty ((hreads.2.2 v).mpr hv)
      · rw [if_neg hempty]
        refine .inl ⟨⟨?_, ?_, ?_⟩, _, rfl, hreads⟩
        · intro c hc
          exact isFieldChar_iff.mp (leastStray?_eq_none_iff.mp hstray c hc)
        · intro piece hmem
          rcases hpieces piece hmem with ⟨item, -, hpiece⟩
          exact ⟨item, (Item.read_eq_ok_iff (hshorts piece hmem)).mp hpiece⟩
        · rcases ValueSet.exists_mem (Bool.eq_false_iff.mpr hempty) with ⟨v, hv⟩
          exact ⟨v, (hreads.2.2 v).mp hv⟩
    · rcases Item.read_cases (hshorts piece hmem) with ⟨item, hitem, -⟩ | ⟨flaw, hflaw⟩
      · rw [hitem] at hpiece
        exact absurd hpiece (by simp)
      · rw [hflaw] at hpiece
        obtain rfl := Except.error.inj hpiece
        simp only [hread, bind, Except.bind]
        refine .inr ⟨fun haccepts => ?_, flaw, rfl⟩
        rcases haccepts.items piece hmem with ⟨item, hwritten⟩
        rw [Item.read_of_writtenAs (hshorts piece hmem) hwritten] at hflaw
        exact absurd hflaw (by simp)

/-- A field accepts the texts of its grammar and no others, all of which have a flaw. What it reads is
the set of the values that some item of the text denotes, between the bounds of the field. -/
theorem read_accepts (f : Field) (text : String) (hshort : ShortNumerals text.toList) :
    (f.Accepts text ↔ ∃ values, f.read text = .ok values) ∧
      (¬ f.Accepts text → ∃ flaw, f.read text = .error (.flawed flaw)) ∧
      ∀ values, f.read text = .ok values → values.lo = f.lo ∧ values.hi = f.hi ∧
        ∀ v, v ∈ values ↔ (f.lo ≤ v ∧ v ≤ f.hi) ∧ f.TextDenotes text v := by
  rcases f.read_cases hshort with ⟨haccepts, values, hread, hreads⟩ | ⟨hnot, flaw, hread⟩
  · refine ⟨⟨fun _ => ⟨values, hread⟩, fun _ => haccepts⟩, fun hnot => absurd haccepts hnot, ?_⟩
    intro values' hread'
    rw [hread] at hread'
    obtain rfl := Except.ok.inj hread'
    exact hreads
  · rw [hread]
    refine ⟨⟨fun haccepts => absurd haccepts hnot, fun h => ?_⟩, fun _ => ⟨flaw, rfl⟩, fun values h => ?_⟩
    · rcases h with ⟨values, h⟩
      exact absurd h (by simp)
    · exact absurd h (by simp)

-- Days from 0 on in steps of 5, with leading zeros, and the last three.
theorem read_accepts_days :
    ShortNumerals "00/5,29-031".toList ∧ Field.day.Accepts "00/5,29-031" ∧
      ∃ values, Field.day.read "00/5,29-031" = .ok values ∧ 25 ∈ values ∧ 31 ∈ values ∧
        ¬ Field.day.TextDenotes "00/5,29-031" 28 := by
  have hshort : ShortNumerals "00/5,29-031".toList := by
    intro run hrun _
    exact hrun.length_le.trans (by decide)
  rcases read_accepts .day "00/5,29-031" hshort with ⟨haccepts, -, hreads⟩
  have hread : ∃ values, Field.day.read "00/5,29-031" = .ok values ∧ 25 ∈ values ∧ 31 ∈ values ∧
      28 ∉ values := ⟨_, rfl, by decide, by decide, by decide⟩
  rcases hread with ⟨values, hread, h25, h31, h28⟩
  refine ⟨hshort, haccepts.mpr ⟨values, hread⟩, values, hread, h25, h31, fun hdenotes => h28 ?_⟩
  exact ((hreads values hread).2.2 28).mpr ⟨by decide, hdenotes⟩

end Field

end Timetable
