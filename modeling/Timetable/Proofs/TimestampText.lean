import Mathlib.Data.String.Basic
import Timetable.Proofs.NumeralOrder
import Timetable.Proofs.SecondCount

/-!
# Written timestamps

What is written of a timestamp tells which one it is, as long as its year can be written at all
(`YearFits`). The texts of the years from 0 to 9999 have one length and sort as their timestamps do
(`timestampText_exact`).

The other years take more places, those before year 0 also for their sign. The rest of the text takes
sixteen places in any case, and this separates the year from it.
-/

namespace Timetable

open Text

/-! ## Years that can be written -/

/-- The year of a time has few enough digits to be written. -/
def YearFits (time : Int) : Prop := Text.fitsDecimal (CivilTime.ofTimestamp time).date.year = true

instance (time : Int) : Decidable (YearFits time) := inferInstanceAs (Decidable (_ = true))

theorem Text.fitsDecimal_of_between {m n k : Int} (hm : fitsDecimal m = true) (hk : fitsDecimal k = true)
    (hmn : m ≤ n) (hnk : n ≤ k) : fitsDecimal n = true := by
  simp only [fitsDecimal, digitChars, decide_eq_true_eq,
    Nat.length_toDigits_le_iff (by decide : 1 < 10) (by decide : 0 < maxDigits)] at hm hk ⊢
  generalize 10 ^ maxDigits = bound at hm hk ⊢
  omega

theorem timestampText_of_yearFits {time : Int} (h : YearFits time) :
    timestampText time = .ok (String.ofList (CivilTime.ofTimestamp time).textChars) := if_pos h

theorem map_timestampText {α : Type} {time : Int} (h : YearFits time) (a : α) :
    ((timestampText time).map fun _ => a) = .ok a := by
  rw [timestampText_of_yearFits h]
  rfl

/-- The year of a time fills four places without a sign. -/
def FourDigitYear (time : Int) : Prop :=
  0 ≤ (CivilTime.ofTimestamp time).date.year ∧ (CivilTime.ofTimestamp time).date.year ≤ 9999

instance (time : Int) : Decidable (FourDigitYear time) := inferInstanceAs (Decidable (_ ∧ _))

theorem FourDigitYear.yearFits {time : Int} (h : FourDigitYear time) : YearFits time :=
  Text.fitsDecimal_of_between (by decide : Text.fitsDecimal 0 = true) (by decide : Text.fitsDecimal 9999 = true)
    h.1 h.2

namespace CivilTime

variable {t u : CivilTime}

/-! ## Two places -/

/-- A component of two digits. -/
def TwoDigits (n : Int) : Prop := 0 ≤ n ∧ n ≤ 99

theorem length_of_twoDigits {n : Int} (h : TwoDigits n) : (paddedChars 2 n).length = 2 :=
  length_paddedChars (by decide) h.1 (by unfold TwoDigits at h; omega)

theorem append_paddedChars_inj {l m : List Char} {c : Char} {n k : Int} (hn : TwoDigits n) (hk : TwoDigits k) :
    l ++ c :: paddedChars 2 n = m ++ c :: paddedChars 2 k ↔ l = m ∧ n = k := by
  have hlength : (c :: paddedChars 2 n).length = (c :: paddedChars 2 k).length := by
    rw [List.length_cons, List.length_cons, length_of_twoDigits hn, length_of_twoDigits hk]
  constructor
  · intro h
    have hparts := List.append_inj' h hlength
    exact ⟨hparts.1, paddedChars_inj.mp (List.cons.inj hparts.2).2⟩
  · intro h
    rw [h.1, h.2]

theorem append_paddedChars_lt_iff {l m : List Char} {c : Char} {n k : Int} (hn : TwoDigits n) (hk : TwoDigits k)
    (h : l.length = m.length) :
    l ++ c :: paddedChars 2 n < m ++ c :: paddedChars 2 k ↔ l < m ∨ (l = m ∧ n < k) := by
  have hlength : (paddedChars 2 n).length = (paddedChars 2 k).length := by
    rw [length_of_twoDigits hn, length_of_twoDigits hk]
  rw [append_lt_append_iff h, List.cons_lt_cons_iff, or_iff_right (Char.lt_irrefl c), and_iff_right rfl,
    paddedChars_lt_iff hn.1 hk.1 hlength]

theorem length_append_paddedChars {l m : List Char} {n k : Int} (hn : TwoDigits n) (hk : TwoDigits k) (c : Char)
    (h : l.length = m.length) : (l ++ c :: paddedChars 2 n).length = (m ++ c :: paddedChars 2 k).length := by
  rw [List.length_append, List.length_append, List.length_cons, List.length_cons, length_of_twoDigits hn,
    length_of_twoDigits hk, h]

/-- Behind the year there are five components of two digits. -/
structure Compact (t : CivilTime) : Prop where
  month : TwoDigits t.date.month
  day : TwoDigits t.date.day
  hour : TwoDigits t.hour
  minute : TwoDigits t.minute
  second : TwoDigits t.second

theorem IsReal.compact (h : t.IsReal) : t.Compact := by
  have hreal : t.date.IsReal := h.1.1
  have hdate := Date.isReal_iff.mp hreal
  have hdays := monthDays_bounds t.date.year t.date.month
  have htime : 0 ≤ t.hour ∧ t.hour ≤ 23 ∧ 0 ≤ t.minute ∧ t.minute ≤ 59 := h.1.2
  have hsecond := h.2
  constructor
  · exact ⟨by omega, by omega⟩
  · exact ⟨by omega, by omega⟩
  · exact ⟨by omega, by omega⟩
  · exact ⟨by omega, by omega⟩
  · exact ⟨by omega, by omega⟩

/-! ## The whole text -/

theorem eq_iff : t = u ↔
    ((((t.date.year = u.date.year ∧ t.date.month = u.date.month) ∧ t.date.day = u.date.day) ∧
      t.hour = u.hour) ∧ t.minute = u.minute) ∧ t.second = u.second := by
  cases t with
  | mk d h m s =>
    cases u with
    | mk e h' m' s' =>
      cases d
      cases e
      simp only [mk.injEq, Date.mk.injEq, and_assoc]

-- From the seconds to the months, each component is cut off at its own length, and the year is left.
theorem textChars_inj (ht : t.Compact) (hu : u.Compact) : t.textChars = u.textChars ↔ t = u := by
  rw [textChars, textChars, List.append_cancel_right_eq, append_paddedChars_inj ht.second hu.second,
    append_paddedChars_inj ht.minute hu.minute, append_paddedChars_inj ht.hour hu.hour,
    append_paddedChars_inj ht.day hu.day, append_paddedChars_inj ht.month hu.month, paddedChars_inj, eq_iff]

theorem textChars_lt_iff (ht : t.Compact) (hu : u.Compact) (htyear : 0 ≤ t.date.year) (huyear : 0 ≤ u.date.year)
    (hlength : (paddedChars 4 t.date.year).length = (paddedChars 4 u.date.year).length) :
    t.textChars < u.textChars ↔ t < u := by
  have hmonth := length_append_paddedChars ht.month hu.month '-' hlength
  have hday := length_append_paddedChars ht.day hu.day '-' hmonth
  have hhour := length_append_paddedChars ht.hour hu.hour 'T' hday
  have hminute := length_append_paddedChars ht.minute hu.minute ':' hhour
  have hsecond := length_append_paddedChars ht.second hu.second ':' hminute
  -- What stands in front decides first, down to the years.
  rw [textChars, textChars, append_lt_append_iff hsecond, or_iff_left (fun h => List.lt_irrefl _ h.2),
    append_paddedChars_lt_iff ht.second hu.second hminute, append_paddedChars_lt_iff ht.minute hu.minute hhour,
    append_paddedChars_lt_iff ht.hour hu.hour hday, append_paddedChars_lt_iff ht.day hu.day hmonth,
    append_paddedChars_lt_iff ht.month hu.month hlength,
    append_paddedChars_inj ht.minute hu.minute, append_paddedChars_inj ht.hour hu.hour,
    append_paddedChars_inj ht.day hu.day, append_paddedChars_inj ht.month hu.month, paddedChars_inj,
    paddedChars_lt_iff htyear huyear hlength]
  cases t with
  | mk d h m s =>
    cases u with
    | mk e h' m' s' =>
      rw [lt_iff, Point.lt_iff, Date.lt_iff]
      cases d
      cases e
      simp only [point, Point.mk.injEq, Date.mk.injEq, and_or_left, and_assoc, or_assoc]

theorem length_textChars (h : t.Compact) : t.textChars.length = (paddedChars 4 t.date.year).length + 16 := by
  simp only [textChars, List.length_append, List.length_cons, List.length_nil, length_of_twoDigits h.month,
    length_of_twoDigits h.day, length_of_twoDigits h.hour, length_of_twoDigits h.minute,
    length_of_twoDigits h.second]

/-! ## Timestamps -/

theorem ofTimestamp_lt_iff {a b : Int} : ofTimestamp a < ofTimestamp b ↔ a < b := by
  rw [← strictMonoOn_timestamp.lt_iff_lt (isReal_ofTimestamp a) (isReal_ofTimestamp b), timestamp_ofTimestamp,
    timestamp_ofTimestamp]

theorem ofTimestamp_inj {a b : Int} : ofTimestamp a = ofTimestamp b ↔ a = b := by
  constructor
  · intro h
    rw [← timestamp_ofTimestamp a, h, timestamp_ofTimestamp]
  · exact fun h => by rw [h]

end CivilTime

theorem FourDigitYear.length_year {time : Int} (h : FourDigitYear time) :
    (paddedChars 4 (CivilTime.ofTimestamp time).date.year).length = 4 :=
  length_paddedChars (by decide) h.1 (by unfold FourDigitYear at h; omega)

/-- The text of a timestamp tells which one it is, whatever the sign and the length of its year. The texts of
years from 0 to 9999 have 20 characters and come in the order of their timestamps. -/
theorem timestampText_exact :
    (∀ a b : Int, YearFits a → YearFits b → ∃ s t, timestampText a = .ok s ∧ timestampText b = .ok t ∧
      (s = t ↔ a = b)) ∧
    ∀ a b : Int, FourDigitYear a → FourDigitYear b → ∃ s t, timestampText a = .ok s ∧ timestampText b = .ok t ∧
      s.length = 20 ∧ t.length = 20 ∧ (a < b ↔ s < t) := by
  constructor
  · intro a b ha hb
    have hacompact := (CivilTime.isReal_ofTimestamp a).compact
    have hbcompact := (CivilTime.isReal_ofTimestamp b).compact
    refine ⟨_, _, timestampText_of_yearFits ha, timestampText_of_yearFits hb, ?_⟩
    rw [String.ofList_inj, CivilTime.textChars_inj hacompact hbcompact, CivilTime.ofTimestamp_inj]
  · intro a b ha hb
    have hacompact := (CivilTime.isReal_ofTimestamp a).compact
    have hbcompact := (CivilTime.isReal_ofTimestamp b).compact
    refine ⟨_, _, timestampText_of_yearFits ha.yearFits, timestampText_of_yearFits hb.yearFits, ?_, ?_, ?_⟩
    · rw [String.length_ofList, CivilTime.length_textChars hacompact, ha.length_year]
    · rw [String.length_ofList, CivilTime.length_textChars hbcompact, hb.length_year]
    · rw [String.lt_iff_toList_lt, String.toList_ofList, String.toList_ofList,
        CivilTime.textChars_lt_iff hacompact hbcompact ha.1 hb.1 (ha.length_year.trans hb.length_year.symm),
        CivilTime.ofTimestamp_lt_iff]

-- The second before year 0 and the second after year 9999; the first and the last second of the years between.
theorem timestampText_exact_years :
    YearFits (-62167219201) ∧ YearFits 253402300800 ∧ FourDigitYear (-62167219200) ∧ FourDigitYear 253402300799 ∧
      timestampText (-62167219201) = .ok "-001-12-31T23:59:59Z" ∧
      timestampText 253402300800 = .ok "10000-01-01T00:00:00Z" ∧
      "-001-12-31T23:59:59Z" ≠ "10000-01-01T00:00:00Z" ∧
      timestampText (-62167219200) = .ok "0000-01-01T00:00:00Z" ∧
      timestampText 253402300799 = .ok "9999-12-31T23:59:59Z" ∧
      "0000-01-01T00:00:00Z".length = 20 ∧ "0000-01-01T00:00:00Z" < "9999-12-31T23:59:59Z" := by
  have hbefore : YearFits (-62167219201) := by decide
  have hafter : YearFits 253402300800 := by decide
  have hfirst : FourDigitYear (-62167219200) := by decide
  have hlast : FourDigitYear 253402300799 := by decide
  have hbeforeText : timestampText (-62167219201) = .ok "-001-12-31T23:59:59Z" := by decide
  have hafterText : timestampText 253402300800 = .ok "10000-01-01T00:00:00Z" := by decide
  have hfirstText : timestampText (-62167219200) = .ok "0000-01-01T00:00:00Z" := by decide
  have hlastText : timestampText 253402300799 = .ok "9999-12-31T23:59:59Z" := by decide
  obtain ⟨s, t, hs, ht, hst⟩ := timestampText_exact.1 _ _ hbefore hafter
  obtain rfl := Except.ok.inj (hbeforeText.symm.trans hs)
  obtain rfl := Except.ok.inj (hafterText.symm.trans ht)
  obtain ⟨s, t, hs, ht, hlength, -, horder⟩ := timestampText_exact.2 _ _ hfirst hlast
  obtain rfl := Except.ok.inj (hfirstText.symm.trans hs)
  obtain rfl := Except.ok.inj (hlastText.symm.trans ht)
  refine ⟨hbefore, hafter, hfirst, hlast, hbeforeText, hafterText, ?_, hfirstText, hlastText, hlength, ?_⟩
  · exact fun heq => absurd (hst.mp heq) (by decide)
  · exact horder.mp (by decide)

end Timetable
