import RecurringEvents.Calendar.Weekday

/-!
# Dates

Dates of the proleptic Gregorian calendar in the years 1 to 9999, and their day numbers: the days
counted from 1 for the first of January of year 1. A date carries the proof that it exists.

Day numbers are computed by closed formulas. The year of a day number is estimated from the mean
length of a year and then corrected by at most one.

* `dayNumber_pos`, `dayNumber_le`: where day numbers lie.
* `ofDayNumber?_dayNumber`: a date is recovered from its day number.
-/

namespace RecurringEvents

/-- What can go wrong when dates are computed. -/
inductive CalendarError where
  /-- An instant or a wall time outside the years 1 to 9999, or an elapsed time that is too long. -/
  | outOfRange
  /-- Fields that name no date. -/
  | invalidDate
  /-- A month that is not in 1 to 12. -/
  | invalidMonth
  deriving Repr, DecidableEq

/-- Leap years of the Gregorian calendar. -/
def isLeapYear (year : Int) : Bool := year % 4 = 0 && (year % 100 ≠ 0 || year % 400 = 0)

/-- The number of days of a month. -/
def monthLength (year month : Int) : Int :=
  if month = 2 then if isLeapYear year then 29 else 28
  else if month = 4 ∨ month = 6 ∨ month = 9 ∨ month = 11 then 30
  else 31

theorem monthLength_ge (year month : Int) : 28 ≤ monthLength year month := by
  unfold monthLength
  repeat' split
  all_goals decide

theorem monthLength_le (year month : Int) : monthLength year month ≤ 31 := by
  unfold monthLength
  repeat' split
  all_goals decide

/-- The days before the first of January of a year. -/
def daysBeforeYear (year : Int) : Int :=
  365 * (year - 1) + (year - 1) / 4 - (year - 1) / 100 + (year - 1) / 400

/-- The days of a year before the first of a month. -/
def daysBeforeMonth (year month : Int) : Int :=
  (367 * month - 362) / 12 - (if month ≤ 2 then 0 else if isLeapYear year then 1 else 2)

/-- The day number of three fields, which need not name a date. -/
def dayNumberOf (year month day : Int) : Int :=
  daysBeforeYear year + daysBeforeMonth year month + day

/-- The weekday of a day number. -/
def weekdayOfDayNumber (n : Int) : Weekday := Weekday.ofNumber (n + 6)

/-- Whether three fields name a date of the years 1 to 9999. -/
def IsDate (year month day : Int) : Prop :=
  1 ≤ year ∧ year ≤ 9999 ∧ 1 ≤ month ∧ month ≤ 12 ∧ 1 ≤ day ∧ day ≤ monthLength year month

instance (year month day : Int) : Decidable (IsDate year month day) :=
  inferInstanceAs (Decidable (_ ∧ _))

/-- A date of the years 1 to 9999. -/
structure Date where
  year : Int
  month : Int
  day : Int
  valid : IsDate year month day
  deriving Repr, DecidableEq

namespace Date

/-- The date with the given fields, if there is one. -/
def of? (year month day : Int) : Option Date :=
  if h : IsDate year month day then some ⟨year, month, day, h⟩ else none

/-- The day number of a date; the first of January of year 1 has number 1. -/
def dayNumber (d : Date) : Int := dayNumberOf d.year d.month d.day

/-- The day number of the last date. -/
def lastDayNumber : Int := 3652059

/-- The year that a day number lies in. -/
def yearOfDayNumber (n : Int) : Int :=
  let y := 400 * (n - 1) / 146097 + 1
  if n ≤ daysBeforeYear y then y - 1 else if daysBeforeYear (y + 1) < n then y + 1 else y

/-- The month of a day counted from 0 within a year. -/
def monthOfYearDay (year n : Int) : Int :=
  let skipped := if n < daysBeforeMonth year 3 then 0 else if isLeapYear year then 1 else 2
  (12 * (n + skipped) + 373) / 367

/-- The date with a day number, if it is in the years 1 to 9999. -/
def ofDayNumber? (n : Int) : Option Date :=
  let year := yearOfDayNumber n
  let yearDay := n - daysBeforeYear year - 1
  let month := monthOfYearDay year yearDay
  of? year month (yearDay - daysBeforeMonth year month + 1)

/-- The weekday of a date. -/
def weekday (d : Date) : Weekday := weekdayOfDayNumber d.dayNumber

/-- The date a number of days later, or earlier if it is negative. -/
def addDays? (d : Date) (n : Int) : Option Date := ofDayNumber? (d.dayNumber + n)

theorem of?_eq_some_iff {y m d : Int} {x : Date} :
    of? y m d = some x ↔ x.year = y ∧ x.month = m ∧ x.day = d := by
  unfold of?
  constructor
  · intro h
    split at h
    · cases h; simp
    · simp at h
  · rintro ⟨rfl, rfl, rfl⟩
    rw [dif_pos x.valid]

theorem of?_fields (x : Date) : of? x.year x.month x.day = some x :=
  of?_eq_some_iff.2 ⟨rfl, rfl, rfl⟩

/-- Two dates with the same fields are the same. -/
theorem ext {a b : Date} (hy : a.year = b.year) (hm : a.month = b.month) (hd : a.day = b.day) :
    a = b := by
  cases a; cases b; simp_all

end Date

/-! ## Day numbers -/

theorem daysBeforeYear_succ (y : Int) :
    daysBeforeYear (y + 1) = daysBeforeYear y + (if isLeapYear y then 366 else 365) := by
  unfold daysBeforeYear isLeapYear
  simp only [Bool.and_eq_true, Bool.or_eq_true, decide_eq_true_eq]
  split <;> omega

/-- The year found from a day number is the one whose days hold it. -/
theorem daysBeforeYear_yearOfDayNumber (n : Int) :
    daysBeforeYear (Date.yearOfDayNumber n) < n ∧
      n ≤ daysBeforeYear (Date.yearOfDayNumber n + 1) := by
  simp only [Date.yearOfDayNumber]
  split
  · next h =>
    constructor
    · simp only [daysBeforeYear] at h ⊢; omega
    · simpa using h
  · split
    · next h =>
      refine ⟨h, ?_⟩
      simp only [daysBeforeYear] at h ⊢; omega
    · omega

theorem daysBeforeYear_mono {y z : Int} (h : y ≤ z) : daysBeforeYear y ≤ daysBeforeYear z := by
  unfold daysBeforeYear; omega

theorem daysBeforeMonth_succ {y m : Int} (h1 : 1 ≤ m) (h2 : m ≤ 11) :
    daysBeforeMonth y (m + 1) = daysBeforeMonth y m + monthLength y m := by
  have : m = 1 ∨ m = 2 ∨ m = 3 ∨ m = 4 ∨ m = 5 ∨ m = 6 ∨ m = 7 ∨ m = 8 ∨ m = 9 ∨ m = 10 ∨
      m = 11 := by omega
  unfold daysBeforeMonth monthLength
  rcases this with h | h | h | h | h | h | h | h | h | h | h <;> subst h <;>
    cases isLeapYear y <;> decide

theorem daysBeforeMonth_one (y : Int) : daysBeforeMonth y 1 = 0 := by
  unfold daysBeforeMonth; cases isLeapYear y <;> decide

/-- The days of a date fit into its year. -/
theorem yearDay_bounds {y m d : Int} (h1 : 1 ≤ m) (h2 : m ≤ 12) (h3 : 1 ≤ d)
    (h4 : d ≤ monthLength y m) :
    0 < daysBeforeMonth y m + d ∧
      daysBeforeMonth y m + d ≤ (if isLeapYear y then 366 else 365) := by
  have : m = 1 ∨ m = 2 ∨ m = 3 ∨ m = 4 ∨ m = 5 ∨ m = 6 ∨ m = 7 ∨ m = 8 ∨ m = 9 ∨ m = 10 ∨
      m = 11 ∨ m = 12 := by omega
  unfold daysBeforeMonth
  unfold monthLength at h4
  rcases this with h | h | h | h | h | h | h | h | h | h | h | h <;> subst h <;>
    cases hl : isLeapYear y <;> simp [hl] at h4 ⊢ <;> omega

/-- The month is found again from the place of a day in its year. -/
theorem monthOfYearDay_eq {y m d : Int} (h1 : 1 ≤ m) (h2 : m ≤ 12) (h3 : 1 ≤ d)
    (h4 : d ≤ monthLength y m) :
    Date.monthOfYearDay y (daysBeforeMonth y m + d - 1) = m := by
  have : m = 1 ∨ m = 2 ∨ m = 3 ∨ m = 4 ∨ m = 5 ∨ m = 6 ∨ m = 7 ∨ m = 8 ∨ m = 9 ∨ m = 10 ∨
      m = 11 ∨ m = 12 := by omega
  unfold Date.monthOfYearDay daysBeforeMonth
  unfold monthLength at h4
  rcases this with h | h | h | h | h | h | h | h | h | h | h | h <;> subst h <;>
    cases hl : isLeapYear y <;> simp [hl] at h4 ⊢ <;> split <;> omega

/-- A day number that lies within the days of a year belongs to that year. -/
theorem yearOfDayNumber_eq {y n : Int} (h1 : daysBeforeYear y < n)
    (h2 : n ≤ daysBeforeYear (y + 1)) : Date.yearOfDayNumber n = y := by
  obtain ⟨h3, h4⟩ := daysBeforeYear_yearOfDayNumber n
  generalize Date.yearOfDayNumber n = z at h3 h4
  by_cases hzy : z < y
  · have := daysBeforeYear_mono (show z + 1 ≤ y by omega); omega
  · by_cases hyz : y < z
    · have := daysBeforeYear_mono (show y + 1 ≤ z by omega); omega
    · omega

namespace Date

theorem dayNumber_year (d : Date) :
    daysBeforeYear d.year < d.dayNumber ∧ d.dayNumber ≤ daysBeforeYear (d.year + 1) := by
  obtain ⟨_, _, h1, h2, h3, h4⟩ := d.valid
  have h := yearDay_bounds h1 h2 h3 h4
  rw [daysBeforeYear_succ]
  simp only [dayNumber, dayNumberOf]
  omega

theorem dayNumber_pos (d : Date) : 1 ≤ d.dayNumber := by
  have h := d.dayNumber_year.1
  have := daysBeforeYear_mono d.valid.1
  have h1 : daysBeforeYear 1 = 0 := by decide
  omega

theorem dayNumber_le (d : Date) : d.dayNumber ≤ lastDayNumber := by
  have h := d.dayNumber_year.2
  have := daysBeforeYear_mono (show d.year + 1 ≤ 10000 by have := d.valid.2.1; omega)
  have h1 : daysBeforeYear 10000 = lastDayNumber := by decide
  omega

/-- A date is recovered from its day number. -/
theorem ofDayNumber?_dayNumber (d : Date) : ofDayNumber? d.dayNumber = some d := by
  obtain ⟨_, _, h1, h2, h3, h4⟩ := d.valid
  have hy : yearOfDayNumber d.dayNumber = d.year :=
    yearOfDayNumber_eq d.dayNumber_year.1 d.dayNumber_year.2
  have hd : d.dayNumber - daysBeforeYear d.year - 1
      = daysBeforeMonth d.year d.month + d.day - 1 := by
    simp only [dayNumber, dayNumberOf]; omega
  simp only [ofDayNumber?, hy, hd, monthOfYearDay_eq h1 h2 h3 h4]
  rw [of?_eq_some_iff]
  exact ⟨rfl, rfl, by omega⟩

/-- Different dates have different day numbers. -/
theorem dayNumber_inj {a b : Date} (h : a.dayNumber = b.dayNumber) : a = b := by
  have ha := ofDayNumber?_dayNumber a
  rw [h, ofDayNumber?_dayNumber b] at ha
  exact (Option.some.inj ha).symm

end Date

end RecurringEvents
