import Timetable.Cron.Search
import Timetable.Proofs.DayCount

/-!
# Minutes of the calendar

Points in the order of their components, and which of them are minutes of the calendar. Timestamps
count these minutes: the points of the calendar correspond, in their order, to the multiples of 60.
-/

namespace Timetable.Point

-- Points in the order of date, hour and minute.
def key (p : Point) : Date ×ₗ ℤ ×ₗ ℤ := toLex (p.date, toLex (p.hour, p.minute))

theorem key_injective : Function.Injective key := by
  intro ⟨d, h, m⟩ ⟨d', h', m'⟩ heq
  simpa [key] using heq

instance : LinearOrder Point := LinearOrder.lift' key key_injective

theorem lt_iff {p q : Point} : p < q ↔
    p.date < q.date ∨ (p.date = q.date ∧ (p.hour < q.hour ∨ (p.hour = q.hour ∧ p.minute < q.minute))) := by
  show key p < key q ↔ _
  simp only [key, Prod.Lex.toLex_lt_toLex]

theorem le_iff {p q : Point} : p ≤ q ↔
    p.date < q.date ∨ (p.date = q.date ∧ (p.hour < q.hour ∨ (p.hour = q.hour ∧ p.minute ≤ q.minute))) := by
  show key p ≤ key q ↔ _
  simp only [key, Prod.Lex.toLex_le_toLex]

theorem date_le {p q : Point} (h : p ≤ q) : p.date ≤ q.date := by
  rcases le_iff.mp h with hlt | ⟨heq, -⟩
  · exact hlt.le
  · exact heq.le

theorem year_le {p q : Point} (h : p ≤ q) : p.date.year ≤ q.date.year := by
  have hdate := Date.le_iff.mp (date_le h)
  omega

theorem lt_of_date_lt {p q : Point} (h : p.date < q.date) : p < q := lt_iff.mpr (.inl h)

/-- The point is a minute of the calendar. -/
def IsReal (p : Point) : Prop :=
  p.date.IsReal ∧ 0 ≤ p.hour ∧ p.hour ≤ 23 ∧ 0 ≤ p.minute ∧ p.minute ≤ 59

instance (p : Point) : Decidable p.IsReal := inferInstanceAs (Decidable (_ ∧ _))

/-! ## Timestamps -/

/-- The point of the minute that a timestamp falls into. -/
def ofTimestamp (t : Int) : Point := (CivilTime.ofTimestamp t).point

theorem timestamp_eq (p : Point) :
    p.timestamp = p.date.dayNumber * 86400 + p.hour * 3600 + p.minute * 60 := by
  simp only [timestamp, civilTime, CivilTime.timestamp, secondsPerDay, secondsPerHour, secondsPerMinute]
  omega

theorem sixty_dvd_timestamp (p : Point) : 60 ∣ p.timestamp := by
  rw [timestamp_eq]
  omega

theorem isReal_ofTimestamp (t : Int) : (ofTimestamp t).IsReal := by
  refine ⟨(Date.ofDayNumber_spec _).1, ?_⟩
  simp only [ofTimestamp, CivilTime.point, CivilTime.ofTimestamp, secondsPerDay, secondsPerHour,
    secondsPerMinute]
  omega

theorem timestamp_ofTimestamp (t : Int) : (ofTimestamp t).timestamp = t - t % 60 := by
  have hday : (ofTimestamp t).date.dayNumber = t / secondsPerDay := (Date.ofDayNumber_spec _).2
  rw [timestamp_eq, hday]
  simp only [ofTimestamp, CivilTime.point, CivilTime.ofTimestamp, secondsPerDay, secondsPerHour,
    secondsPerMinute]
  omega

/-- Later minutes have later timestamps. -/
theorem strictMonoOn_timestamp : StrictMonoOn timestamp {p | p.IsReal} := by
  intro p ⟨hp, hphours⟩ q ⟨hq, hqhours⟩ hlt
  rw [timestamp_eq, timestamp_eq]
  rcases lt_iff.mp hlt with hdate | ⟨hdate, htime⟩
  · have hday := Date.strictMonoOn_dayNumber hp hq hdate
    omega
  · rw [hdate]
    omega

theorem ofTimestamp_timestamp {p : Point} (h : p.IsReal) : ofTimestamp p.timestamp = p := by
  apply strictMonoOn_timestamp.injOn (isReal_ofTimestamp _) h
  have hdvd := sixty_dvd_timestamp p
  rw [timestamp_ofTimestamp]
  omega

-- A minute is later than the one a time falls into exactly when it begins after that time.
theorem ofTimestamp_lt_iff {p : Point} (h : p.IsReal) (t : Int) : ofTimestamp t < p ↔ t < p.timestamp := by
  have hdvd := sixty_dvd_timestamp p
  rw [← strictMonoOn_timestamp.lt_iff_lt (isReal_ofTimestamp t) h, timestamp_ofTimestamp]
  omega

end Timetable.Point
