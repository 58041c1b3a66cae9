import RecurringEvents.Proofs.Expansion.Success
import RecurringEvents.Proofs.Moment.Floating
import RecurringEvents.Proofs.Text.Width

/-!
# Written tokens

A moment is written as its date and time of day in UTC, without the part of a second. With a year of
four digits the token has sixteen characters, is read back as the whole second, and texts and whole
seconds have one order. A year before 1000 is written without leading zeros, so its token is too
short and is refused when it is read.

* `Date.dayNumber_lt_iff`, `TimeOfDay.seconds_lt_iff`: the order of dates and times of day by
  fields.
* `Token.ofWall_lt_iff`: tokens are in the order of their wall times.
* `Token.write_of_inUtc`: what is written, how it is read, and how it compares.
-/

namespace RecurringEvents

open Text

/-! ## The order of dates and times of day -/

/-- Dates are in the order of their years, then of their months, then of their days. -/
theorem Date.dayNumber_lt_iff {a b : Date} : a.dayNumber < b.dayNumber ↔
    a.year < b.year ∨
      a.year = b.year ∧ (a.month < b.month ∨ a.month = b.month ∧ a.day < b.day) := by
  have same : ∀ {c d : Date}, c.year = d.year → c.month = d.month →
      (c.dayNumber < d.dayNumber ↔ c.day < d.day) := fun hy hm => by
    simp only [dayNumber, dayNumberOf, hy, hm]
    omega
  rcases Int.lt_trichotomy a.year b.year with hy | hy | hy
  · exact iff_of_true (dayNumber_lt_of_year_lt hy) (Or.inl hy)
  · rcases Int.lt_trichotomy a.month b.month with hm | hm | hm
    · exact iff_of_true (dayNumber_lt_of_month_lt hy hm) (Or.inr ⟨hy, Or.inl hm⟩)
    · rw [same hy hm]
      omega
    · have := dayNumber_lt_of_month_lt hy.symm hm
      omega
  · have := dayNumber_lt_of_year_lt hy
    omega

/-- Times of day are in the order of their hours, then of their minutes, then of their seconds. -/
theorem TimeOfDay.seconds_lt_iff {a b : TimeOfDay} :
    a.micros / secondMicros < b.micros / secondMicros ↔
      a.hour < b.hour ∨
        a.hour = b.hour ∧ (a.minute < b.minute ∨ a.minute = b.minute ∧ a.second < b.second) := by
  simp only [hour, minute, second, secondMicros]
  omega

/-- Whole seconds are in the order of the dates, then of the times of day. -/
theorem Wall.seconds_lt_iff {v w : Wall} :
    v.count / secondMicros < w.count / secondMicros ↔ v.date.dayNumber < w.date.dayNumber ∨
      v.date.dayNumber = w.date.dayNumber ∧
        v.time.micros / secondMicros < w.time.micros / secondMicros := by
  have hv := v.time.nonneg
  have hw := w.time.nonneg
  have hv' : v.time.micros < 86400000000 := v.time.lt
  have hw' : w.time.micros < 86400000000 := w.time.lt
  simp only [count, dayMicros, secondMicros]
  omega

namespace Token

variable {v w : Wall} {m n u : Moment} {s t : List Char} {a b : Int} {k : Nat}

/-! ## The order of tokens -/

/-- A field in front of a text is compared first. -/
theorem field_append_lt_iff (ha : 0 ≤ a) (hb : 0 ≤ b) (hla : (decimal a.toNat).length ≤ k)
    (hlb : (decimal b.toNat).length ≤ k) :
    padded k a.toNat ++ s < padded k b.toNat ++ t ↔ a < b ∨ a = b ∧ s < t := by
  have hsame : padded k a.toNat = padded k b.toNat ↔ a = b := by
    refine ⟨fun h => ?_, fun h => by rw [h]⟩
    have := padded_inj h
    omega
  have hless : a.toNat < b.toNat ↔ a < b := by omega
  rw [append_lt_append_iff ((length_padded hla).trans (length_padded hlb).symm),
    padded_lt_iff hla hlb, hsame, hless]

/-- A field below a hundred has two digits. -/
theorem field_append_lt_iff_of_small (ha : 0 ≤ a ∧ a < 100) (hb : 0 ≤ b ∧ b < 100) :
    padded 2 a.toNat ++ s < padded 2 b.toNat ++ t ↔ a < b ∨ a = b ∧ s < t :=
  field_append_lt_iff ha.1 hb.1 (length_decimal_le_two (by omega))
    (length_decimal_le_two (by omega))

theorem month_range (d : Date) : 0 ≤ d.month ∧ d.month < 100 := by
  obtain ⟨-, -, hm1, hm2, -⟩ := d.valid
  omega

theorem day_range (d : Date) : 0 ≤ d.day ∧ d.day < 100 := by
  obtain ⟨-, -, -, -, hd1, hd2⟩ := d.valid
  have := monthLength_le d.year d.month
  omega

/-- Tokens with years of four digits are in the order of their whole seconds. -/
theorem stem_lt_iff (hv : 1000 ≤ v.date.year) (hw : 1000 ≤ w.date.year) :
    stem v < stem w ↔ v.count / secondMicros < w.count / secondMicros := by
  have hyear := length_decimal_year hv
  have hyear' := length_decimal_year hw
  have hhour := v.time.hour_range
  have hhour' := w.time.hour_range
  have hminute := v.time.minute_range
  have hminute' := w.time.minute_range
  have hsecond := v.time.second_range
  have hsecond' := w.time.second_range
  rw [stem, stem, ← padded_eq_decimal hyear, ← padded_eq_decimal hyear',
    field_append_lt_iff (by omega) (by omega) (Nat.le_of_eq hyear) (Nat.le_of_eq hyear'),
    field_append_lt_iff_of_small (month_range _) (month_range _),
    field_append_lt_iff_of_small (day_range _) (day_range _), List.cons_lt_cons_iff,
    field_append_lt_iff_of_small (by omega) (by omega),
    field_append_lt_iff_of_small (by omega) (by omega),
    field_append_lt_iff_of_small (by omega) (by omega)]
  have hday : v.date.dayNumber < w.date.dayNumber ↔ _ := Date.dayNumber_lt_iff
  have hday' : w.date.dayNumber < v.date.dayNumber ↔ _ := Date.dayNumber_lt_iff
  have htime : v.time.micros / secondMicros < w.time.micros / secondMicros ↔ _ :=
    TimeOfDay.seconds_lt_iff
  have hno : ¬([] : List Char) < [] := by decide
  simp only [hno, and_false, or_false, true_and, Char.lt_irrefl, false_or]
  rw [Wall.seconds_lt_iff, htime]
  omega

/-- **Tokens with years of four digits are in the order of their whole seconds.** -/
theorem ofWall_lt_iff (hv : 1000 ≤ v.date.year) (hw : 1000 ≤ w.date.year) :
    ofWall v < ofWall w ↔ v.count / secondMicros < w.count / secondMicros := by
  rw [ofWall_eq, ofWall_eq, append_lt_append_iff ((length_stem hv).trans (length_stem hw).symm),
    stem_lt_iff hv hw]
  simp

/-! ## What is written -/

/-- The part of a second is not written. -/
theorem ofWall_wholeSecond (w : Wall) :
    ofWall { w with time := w.time.wholeSecond } = ofWall w := by
  have hhour : w.time.wholeSecond.hour = w.time.hour := by
    simp only [TimeOfDay.wholeSecond, TimeOfDay.hour]
    omega
  have hminute : w.time.wholeSecond.minute = w.time.minute := by
    simp only [TimeOfDay.wholeSecond, TimeOfDay.minute]
    omega
  have hsecond : w.time.wholeSecond.second = w.time.second := by
    simp only [TimeOfDay.wholeSecond, TimeOfDay.second, secondMicros]
    omega
  simp only [ofWall, hhour, hminute, hsecond]

/-- A token with a year of four digits is read as the whole second of its wall time, whatever the
zone. -/
theorem exists_read_ofWall (hy : 1000 ≤ w.date.year) (zone : Zone) :
    ∃ n, read (ofWall w) zone = .ok n ∧ n.zone = .utc ∧
      n.instant = w.count / secondMicros * secondMicros := by
  have hwhole : w.time.wholeSecond.micro = 0 := by
    simp only [TimeOfDay.wholeSecond, TimeOfDay.micro, secondMicros]
    omega
  have hread := read_ofWall (w := { w with time := w.time.wholeSecond }) hy hwhole zone
  rw [ofWall_wholeSecond] at hread
  refine ⟨_, hread, rfl, ?_⟩
  rw [Moment.instant_ofUtc]
  simp only [Wall.count, TimeOfDay.wholeSecond, dayMicros, secondMicros]
  omega

/-- What the token of a moment is that has the year of `u`, the moment in UTC, in four digits. -/
structure IsTokenOf (s : List Char) (m u : Moment) : Prop where
  form : s = ofDate u.wall.date ++ 'T' :: ofTime u.wall.time ++ ['Z']
  length : s.length = 16
  read_back : ∀ zone, ∃ n, read s zone = .ok n ∧ n.zone = .utc ∧
    n.instant = m.instant / secondMicros * secondMicros

theorem isTokenOf_of_inUtc (hu : m.inUtc = .ok u) (hy : 1000 ≤ u.wall.date.year) :
    IsTokenOf (ofWall u.wall) m u where
  form := by
    rw [ofWall_eq, stem, ofDate, ofTime, padded_eq_decimal (length_decimal_year hy)]
    simp only [List.append_assoc, List.cons_append, List.append_nil]
  length := by rw [ofWall_eq, List.length_append, length_stem hy, List.length_singleton]
  read_back := fun zone => by
    rw [← (Moment.count_of_inUtc hu).2]
    exact exists_read_ofWall hy zone

/-- **What is written of every moment that UTC has in the calendar, how it is read, and how it
compares.** With a year of four digits the token has its sixteen characters, is read as the whole
second in whatever zone, and two such tokens compare as the whole seconds do. With an earlier year
it has fewer characters and is refused. -/
theorem write_of_inUtc {v : Moment} (hu : m.inUtc = .ok u) (hv : n.inUtc = .ok v) :
    ∃ s t, write m = .ok s ∧ write n = .ok t ∧
      (1000 ≤ u.wall.date.year → IsTokenOf s m u) ∧
      (u.wall.date.year < 1000 →
        s.length < 16 ∧ ∀ zone, read s zone = .error (.malformed s)) ∧
      (1000 ≤ u.wall.date.year → 1000 ≤ v.wall.date.year →
        (s < t ↔ m.instant / secondMicros < n.instant / secondMicros)) := by
  refine ⟨ofWall u.wall, ofWall v.wall, bind_eq_ok_iff.2 ⟨u, hu, rfl⟩,
    bind_eq_ok_iff.2 ⟨v, hv, rfl⟩, isTokenOf_of_inUtc hu, fun hy => ?_, fun hyu hyv => ?_⟩
  · exact ⟨(read_ofWall_of_short hy .utc).1, fun zone => (read_ofWall_of_short hy zone).2⟩
  · rw [← (Moment.count_of_inUtc hu).2, ← (Moment.count_of_inUtc hv).2]
    exact ofWall_lt_iff hyu hyv

/-- Noon of a summer day of the year 999. -/
def earlyNoon : Moment := .ofUtc ⟨.near 999 7 4, .ofMinutes 720, .first⟩

/-- The year 999 is written in three digits, so the token has fifteen characters, is refused, and
comes after those of later years. -/
theorem earlyNoon_written : write earlyNoon = .ok "9990704T120000Z".toList ∧
    "9990704T120000Z".toList.length ≠ 16 ∧
    read "9990704T120000Z".toList .utc = .error (.malformed "9990704T120000Z".toList) ∧
    write (.ofUtc ⟨.near 1000 1 1, .midnight, .first⟩) = .ok "10000101T000000Z".toList ∧
    "10000101T000000Z".toList < "9990704T120000Z".toList := by
  refine ⟨rfl, by decide, rfl, rfl, by decide⟩

/-- One o'clock in the London summer is written as noon of UTC. Half an hour later in the winter of
the year before is written before that. -/
theorem londonNoon_written : ∃ s t,
    write (.london (.near 2024 7 4) 780) = .ok s ∧ write (.london (.near 2023 12 4) 750) = .ok t ∧
      s = "20240704T120000Z".toList ∧ t < s ∧
      ∀ zone, ∃ n, read s zone = .ok n ∧ n.zone = .utc ∧ n.instant = 1720094400000000 := by
  have hsummer : (Moment.london (.near 2024 7 4) 780).inUtc
      = .ok (.ofUtc ⟨.near 2024 7 4, .ofMinutes 720, .first⟩) := rfl
  have hwinter : (Moment.london (.near 2023 12 4) 750).inUtc
      = .ok (.ofUtc ⟨.near 2023 12 4, .ofMinutes 750, .first⟩) := rfl
  obtain ⟨t, s, ht, hs, -, -, hlt⟩ := write_of_inUtc hwinter hsummer
  obtain ⟨s', -, hs', -, htoken, -⟩ := write_of_inUtc hsummer hwinter
  cases hs.symm.trans hs'
  have hnoon := htoken (by decide)
  exact ⟨s, t, hs, ht, hnoon.form, (hlt (by decide) (by decide)).2 (by decide +kernel),
    hnoon.read_back⟩

end Token

end RecurringEvents
