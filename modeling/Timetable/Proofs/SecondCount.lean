import Timetable.Proofs.MinuteCount

/-!
# Seconds of the calendar

Civil times in the order of their components, and which of them are seconds of the calendar.

* Timestamps count these seconds: `CivilTime.ofTimestamp` and `CivilTime.timestamp` are inverse to
  each other between all integers and the seconds of the calendar, and keep the order.
* Day numbers count the days in the same way, and the day that follows has the next number
  (`CivilTime.timestamp_correspondence`).
-/

namespace Timetable

/-- The day that follows a day of the calendar has the next day number. -/
theorem Date.dayNumber_nextDay {d : Date} (h : d.IsReal) :
    ∃ e, d.nextDay daysInMonth = .ok e ∧ e.IsReal ∧ e.dayNumber = d.dayNumber + 1 := by
  rcases nextDay_spec h with ⟨e, he, hereal, hlt, hleast⟩
  have hnumber := strictMonoOn_dayNumber h hereal hlt
  -- The date of the next number is a later day too, and none of those comes before the one that follows.
  have hnext := ofDayNumber_spec (d.dayNumber + 1)
  have hafter : d < ofDayNumber (d.dayNumber + 1) := by
    rw [← strictMonoOn_dayNumber.lt_iff_lt h hnext.1, hnext.2]
    exact Int.lt_succ d.dayNumber
  have hle := strictMonoOn_dayNumber.monotoneOn hereal hnext.1 (hleast _ hnext.1 hafter)
  rw [hnext.2] at hle
  exact ⟨e, he, hereal, by omega⟩

namespace CivilTime

-- Civil times in the order of their minute and their second.
def key (t : CivilTime) : Point ×ₗ ℤ := toLex (t.point, t.second)

theorem key_injective : Function.Injective key := by
  intro ⟨d, h, m, s⟩ ⟨d', h', m', s'⟩ heq
  simpa [key, point, and_assoc] using heq

instance : LinearOrder CivilTime := LinearOrder.lift' key key_injective

theorem lt_iff {t u : CivilTime} :
    t < u ↔ t.point < u.point ∨ (t.point = u.point ∧ t.second < u.second) := by
  show key t < key u ↔ _
  rw [key, key, Prod.Lex.toLex_lt_toLex]

/-- The civil time is a second of the calendar. -/
def IsReal (t : CivilTime) : Prop := t.point.IsReal ∧ 0 ≤ t.second ∧ t.second ≤ 59

instance (t : CivilTime) : Decidable t.IsReal := inferInstanceAs (Decidable (_ ∧ _))

/-! ## Timestamps -/

theorem timestamp_eq (t : CivilTime) : t.timestamp = t.point.timestamp + t.second := by
  show _ = t.date.dayNumber * secondsPerDay + t.hour * secondsPerHour + t.minute * secondsPerMinute + 0 +
    t.second
  rw [Int.add_zero]
  rfl

theorem second_ofTimestamp (n : Int) : (ofTimestamp n).second = n % 60 := by
  simp only [ofTimestamp, secondsPerDay, secondsPerHour, secondsPerMinute]
  omega

theorem isReal_ofTimestamp (n : Int) : (ofTimestamp n).IsReal := by
  refine ⟨Point.isReal_ofTimestamp n, ?_⟩
  rw [second_ofTimestamp]
  omega

theorem timestamp_ofTimestamp (n : Int) : (ofTimestamp n).timestamp = n := by
  rw [timestamp_eq, second_ofTimestamp]
  show (Point.ofTimestamp n).timestamp + _ = n
  rw [Point.timestamp_ofTimestamp]
  omega

/-- Later seconds have later timestamps. -/
theorem strictMonoOn_timestamp : StrictMonoOn timestamp {t | t.IsReal} := by
  intro t ht u hu hlt
  have htsecond := ht.2
  have husecond := hu.2
  rw [timestamp_eq, timestamp_eq]
  rcases lt_iff.mp hlt with hpoint | ⟨hpoint, hsecond⟩
  · -- Whole minutes lie between the minutes of the two, and less than one within each.
    have hminutes := Point.strictMonoOn_timestamp ht.1 hu.1 hpoint
    have htdvd := t.point.sixty_dvd_timestamp
    have hudvd := u.point.sixty_dvd_timestamp
    omega
  · rw [hpoint]
    omega

theorem ofTimestamp_timestamp {t : CivilTime} (h : t.IsReal) : ofTimestamp t.timestamp = t := by
  apply strictMonoOn_timestamp.injOn (isReal_ofTimestamp _) h
  exact timestamp_ofTimestamp t.timestamp

/-- The integers are the timestamps of the seconds of the calendar, one each and in the same order, and
they are the numbers of its days. The number of the day that follows is the next one. -/
theorem timestamp_correspondence :
    (∀ n : Int, (ofTimestamp n).IsReal ∧ (ofTimestamp n).timestamp = n) ∧
      (∀ t : CivilTime, t.IsReal → ofTimestamp t.timestamp = t) ∧
      (∀ t u : CivilTime, t.IsReal → u.IsReal → (t < u ↔ t.timestamp < u.timestamp)) ∧
      (∀ n : Int, (Date.ofDayNumber n).IsReal ∧ (Date.ofDayNumber n).dayNumber = n) ∧
      ∀ d : Date, d.IsReal → Date.ofDayNumber d.dayNumber = d ∧
        ∃ e, d.nextDay daysInMonth = .ok e ∧ e.IsReal ∧ e.dayNumber = d.dayNumber + 1 := by
  refine ⟨fun n => ⟨isReal_ofTimestamp n, timestamp_ofTimestamp n⟩, fun t ht => ofTimestamp_timestamp ht,
    fun t u ht hu => ?_, Date.ofDayNumber_spec, fun d hd => ?_⟩
  · exact (strictMonoOn_timestamp.lt_iff_lt ht hu).symm
  · exact ⟨Date.ofDayNumber_dayNumber hd, Date.dayNumber_nextDay hd⟩

-- The last second of a leap day, four centuries before year 0.
theorem timestamp_correspondence_leapDay :
    (⟨⟨-400, 2, 29⟩, 23, 59, 59⟩ : CivilTime).IsReal ∧ (⟨⟨-400, 3, 1⟩, 0, 0, 0⟩ : CivilTime).IsReal ∧
      (⟨⟨-400, 2, 29⟩, 23, 59, 59⟩ : CivilTime) < ⟨⟨-400, 3, 1⟩, 0, 0, 0⟩ ∧
      ofTimestamp (-74784816001) = ⟨⟨-400, 2, 29⟩, 23, 59, 59⟩ ∧
      ∃ e, Date.nextDay daysInMonth ⟨-400, 2, 29⟩ = .ok e ∧ e.IsReal ∧ e.dayNumber = -865565 := by
  rcases timestamp_correspondence with ⟨-, hinverse, horder, -, hdays⟩
  have hlast : (⟨⟨-400, 2, 29⟩, 23, 59, 59⟩ : CivilTime).IsReal := by decide
  have hfirst : (⟨⟨-400, 3, 1⟩, 0, 0, 0⟩ : CivilTime).IsReal := by decide
  have hstamp : (⟨⟨-400, 2, 29⟩, 23, 59, 59⟩ : CivilTime).timestamp = -74784816001 := by decide
  have hnumber : (⟨-400, 2, 29⟩ : Date).dayNumber + 1 = -865565 := by decide
  refine ⟨hlast, hfirst, ?_, ?_, ?_⟩
  · rw [horder _ _ hlast hfirst, hstamp]
    decide
  · rw [← hstamp]
    exact hinverse _ hlast
  · rw [← hnumber]
    exact (hdays _ hlast.1.1).2

end CivilTime

end Timetable
