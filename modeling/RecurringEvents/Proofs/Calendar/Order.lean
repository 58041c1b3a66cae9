import RecurringEvents.Calendar.Wall

/-!
# The order of dates and wall times

Day numbers order dates by year, then month, then day, and no number between the first and the last
is left out. The same holds of the counts of wall times.

* `Date.ofDayNumber?_eq_some_iff`: the date with a number is the one that has it.
* `Date.dayNumber_lt_of_month_lt`: a date of an earlier month has a smaller number.
* `Wall.exists_ofCount?`: the counts that are met are those of the years 1 to 9999.
-/

namespace RecurringEvents

/-! ## Day numbers -/

/-- Every day of a year lies in one of its months. -/
theorem exists_month_of_yearDay {y k : Int} (h0 : 0 ≤ k)
    (h1 : k < if isLeapYear y then 366 else 365) :
    ∃ m d, 1 ≤ m ∧ m ≤ 12 ∧ 1 ≤ d ∧ d ≤ monthLength y m ∧ k = daysBeforeMonth y m + d - 1 := by
  have step : ∀ m, 1 ≤ m → m ≤ 12 → daysBeforeMonth y m ≤ k →
      k < daysBeforeMonth y m + monthLength y m →
      ∃ m d, 1 ≤ m ∧ m ≤ 12 ∧ 1 ≤ d ∧ d ≤ monthLength y m ∧ k = daysBeforeMonth y m + d - 1 :=
    fun m hm hm' hk hk' => ⟨m, k - daysBeforeMonth y m + 1, hm, hm', by omega, by omega, by omega⟩
  -- the first month that the day is not past holds it
  have find : ∀ n : Nat, n ≤ 11 → k < daysBeforeMonth y (n + 1) + monthLength y (n + 1) →
      ∃ m d, 1 ≤ m ∧ m ≤ 12 ∧ 1 ≤ d ∧ d ≤ monthLength y m ∧ k = daysBeforeMonth y m + d - 1 := by
    intro n
    induction n with
    | zero =>
      intro _ hk
      exact step 1 (by omega) (by omega) (by rw [daysBeforeMonth_one]; exact h0) (by simpa using hk)
    | succ n ih =>
      intro hn hk
      by_cases hlt : k < daysBeforeMonth y (n + 1) + monthLength y (n + 1)
      · exact ih (by omega) hlt
      · refine step (n + 1 + 1) (by omega) (by omega) ?_ (by simpa using hk)
        rw [daysBeforeMonth_succ (by omega) (by omega)]
        omega
  refine find 11 (by omega) ?_
  have hlast : daysBeforeMonth y 12 + monthLength y 12 = if isLeapYear y then 366 else 365 := by
    unfold daysBeforeMonth monthLength
    cases isLeapYear y <;> decide
  simpa [hlast] using h1

namespace Date

/-- Every number from the first to the last is the number of a date. -/
theorem exists_dayNumber_eq {n : Int} (h1 : 1 ≤ n) (h2 : n ≤ lastDayNumber) :
    ∃ d : Date, d.dayNumber = n := by
  obtain ⟨hlo, hhi⟩ := daysBeforeYear_yearOfDayNumber n
  generalize yearOfDayNumber n = y at hlo hhi
  have e1 : daysBeforeYear 1 = 0 := by decide
  have e2 : daysBeforeYear 10000 = lastDayNumber := by decide
  have hy1 : 1 ≤ y := by
    refine Int.not_lt.1 fun hy => ?_
    have := daysBeforeYear_mono (show y + 1 ≤ 1 by omega)
    omega
  have hy2 : y ≤ 9999 := by
    refine Int.not_lt.1 fun hy => ?_
    have := daysBeforeYear_mono (show 10000 ≤ y by omega)
    omega
  rw [daysBeforeYear_succ] at hhi
  obtain ⟨m, d, hm1, hm2, hd1, hd2, hk⟩ :=
    exists_month_of_yearDay (y := y) (k := n - daysBeforeYear y - 1) (by omega) (by omega)
  refine ⟨⟨y, m, d, hy1, hy2, hm1, hm2, hd1, hd2⟩, ?_⟩
  simp only [dayNumber, dayNumberOf]
  omega

/-- A date that is found for a number has that number. -/
theorem dayNumber_of_ofDayNumber? {n : Int} {d : Date} (h : ofDayNumber? n = some d) :
    d.dayNumber = n := by
  have hy : d.year = yearOfDayNumber n := (of?_eq_some_iff.1 h).1
  obtain ⟨hlo, hhi⟩ := daysBeforeYear_yearOfDayNumber n
  rw [← hy] at hlo hhi
  have h1 := daysBeforeYear_mono d.valid.1
  have h2 := daysBeforeYear_mono (show d.year + 1 ≤ 10000 by have := d.valid.2.1; omega)
  have e1 : daysBeforeYear 1 = 0 := by decide
  have e2 : daysBeforeYear 10000 = lastDayNumber := by decide
  obtain ⟨d', hd'⟩ := exists_dayNumber_eq (show 1 ≤ n by omega) (show n ≤ lastDayNumber by omega)
  have hsome := ofDayNumber?_dayNumber d'
  rw [hd', h] at hsome
  rw [Option.some.inj hsome, hd']

/-- The date with a number is the one that has it. -/
theorem ofDayNumber?_eq_some_iff {n : Int} {d : Date} :
    ofDayNumber? n = some d ↔ d.dayNumber = n :=
  ⟨dayNumber_of_ofDayNumber?, fun h => h ▸ ofDayNumber?_dayNumber d⟩

/-- The numbers of a year lie between those of its turns. -/
theorem year_eq_yearOfDayNumber (d : Date) : d.year = yearOfDayNumber d.dayNumber :=
  (yearOfDayNumber_eq d.dayNumber_year.1 d.dayNumber_year.2).symm

theorem dayNumber_lt_of_year_lt {a b : Date} (h : a.year < b.year) :
    a.dayNumber < b.dayNumber := by
  have h1 := a.dayNumber_year.2
  have h2 := b.dayNumber_year.1
  have := daysBeforeYear_mono (show a.year + 1 ≤ b.year by omega)
  omega

/-- The first of a later month comes after all days of the months before it. -/
theorem daysBeforeMonth_add_monthLength_le {y m n : Int} (h1 : 1 ≤ m) (h2 : m < n) (h3 : n ≤ 12) :
    daysBeforeMonth y m + monthLength y m ≤ daysBeforeMonth y n := by
  obtain ⟨k, rfl⟩ : ∃ k : Nat, n = m + 1 + k := ⟨(n - m - 1).toNat, by omega⟩
  clear h2
  induction k with
  | zero => simp [daysBeforeMonth_succ h1 (show m ≤ 11 by omega)]
  | succ k ih =>
    have hs := daysBeforeMonth_succ (y := y) (m := m + 1 + k) (by omega) (by omega)
    have hl := monthLength_ge y (m + 1 + k)
    have := ih (by omega)
    rw [show m + 1 + ((k + 1 : Nat) : Int) = m + 1 + k + 1 by omega]
    omega

theorem dayNumber_lt_of_month_lt {a b : Date} (hy : a.year = b.year) (h : a.month < b.month) :
    a.dayNumber < b.dayNumber := by
  obtain ⟨_, _, ha1, ha2, ha3, ha4⟩ := a.valid
  obtain ⟨_, _, hb1, hb2, hb3, hb4⟩ := b.valid
  have := daysBeforeMonth_add_monthLength_le (y := a.year) ha1 h hb2
  simp only [dayNumber, dayNumberOf, ← hy] at *
  omega

end Date

/-! ## Counts of wall times -/

namespace Wall

/-- The count of the first wall time. -/
def firstCount : Int := (1 - epochDayNumber) * dayMicros

/-- The count that follows on that of the last wall time. -/
def endCount : Int := (Date.lastDayNumber + 1 - epochDayNumber) * dayMicros

theorem firstCount_le (w : Wall) : firstCount ≤ w.count := by
  have := w.date.dayNumber_pos
  have := w.time.nonneg
  simp only [firstCount, count, epochDayNumber, dayMicros]
  omega

theorem count_lt (w : Wall) : w.count < endCount := by
  have := w.date.dayNumber_le
  have := w.time.lt
  simp only [endCount, count, epochDayNumber, dayMicros, Date.lastDayNumber] at *
  omega

/-- A wall time that is found for a count has that count, and is of the first pass. -/
theorem count_of_ofCount? {n : Int} {w : Wall} (h : ofCount? n = some w) :
    w.count = n ∧ w.pass = .first := by
  obtain ⟨d, hd, rfl⟩ := Option.map_eq_some_iff.1 h
  have := Date.dayNumber_of_ofDayNumber? hd
  refine ⟨?_, rfl⟩
  simp only [count, this, epochDayNumber, dayMicros]
  omega

/-- Every count of the years 1 to 9999 is met. -/
theorem exists_ofCount? {n : Int} (h1 : firstCount ≤ n) (h2 : n < endCount) :
    ∃ w, ofCount? n = some w := by
  simp only [firstCount, endCount, epochDayNumber, dayMicros, Date.lastDayNumber] at h1 h2
  obtain ⟨d, hd⟩ := Date.exists_dayNumber_eq (n := n / dayMicros + epochDayNumber)
    (by simp only [dayMicros, epochDayNumber]; omega)
    (by simp only [dayMicros, epochDayNumber, Date.lastDayNumber]; omega)
  rw [ofCount?, ← hd, Date.ofDayNumber?_dayNumber]
  exact ⟨_, rfl⟩

/-- The year of a wall time is found from its whole seconds. -/
theorem year_eq_of_seconds (w : Wall) :
    w.date.year = Date.yearOfDayNumber (w.seconds / 86400 + epochDayNumber) := by
  have h1 := w.time.nonneg
  have h2 := w.time.lt
  have hd : w.seconds / 86400 + epochDayNumber = w.date.dayNumber := by
    simp only [seconds, count, secondMicros, dayMicros, epochDayNumber] at *
    omega
  rw [hd, Date.year_eq_yearOfDayNumber]

/-- Wall times at one time of day are ordered as their dates are. -/
theorem count_lt_count_iff {v w : Wall} (h : v.time = w.time) :
    v.count < w.count ↔ v.date.dayNumber < w.date.dayNumber := by
  simp only [count, h, dayMicros]
  omega

/-- A wall time at the same time of day on a later date is some whole days later. -/
theorem exists_days {v w : Wall} (h : v.time = w.time)
    (hlt : v.date.dayNumber < w.date.dayNumber) :
    ∃ days : Nat, w.count = v.count + (days + 1) * dayMicros := by
  refine ⟨(w.date.dayNumber - v.date.dayNumber - 1).toNat, ?_⟩
  simp only [count, h, dayMicros]
  omega

end Wall

end RecurringEvents
