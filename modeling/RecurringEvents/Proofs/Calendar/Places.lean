import RecurringEvents.Expansion.Cursor
import RecurringEvents.Proofs.Calendar.Months
import Mathlib.Data.List.Sort

/-!
# Places counted from either end

A day of a month, also one on a certain weekday, may be named by its place among all of them,
counted from the front or, if it is negative, from the back. The computed days are the elements at
these places.

* `placed?`, `placed?_eq_some_iff`: the element at a place.
* `monthDay?_eq_placed?`: the days of a month.
* `weekdaysOf`, `nthWeekday_eq_placed?`: the days of a month that fall on a weekday.
* `nthWeekdayOfMonth_placed`: the same of the months of all dates, and when there is no such day.
-/

namespace RecurringEvents

/-! ## The element at a place -/

/-- The element of a list at a place, counted from the front or, if it is negative, from the
back. -/
def placed? {α : Type} (l : List α) (place : Int) : Option α :=
  if 0 < place then l[place.toNat - 1]? else l.reverse[place.natAbs - 1]?

/-- **A place is an index**, counted from one or from the length. -/
theorem placed?_eq_some_iff {α : Type} {l : List α} {place : Int} {a : α} (h : place ≠ 0) :
    placed? l place = some a ↔
      ∃ i : Nat, l[i]? = some a ∧ (if 0 < place then place - 1 else l.length + place) = i := by
  unfold placed?
  split
  · next hpos =>
    constructor
    · exact fun ha => ⟨place.toNat - 1, ha, by omega⟩
    · rintro ⟨i, ha, hi⟩
      rwa [show place.toNat - 1 = i by omega]
  · next hneg =>
    constructor
    · intro ha
      obtain ⟨hlt, -⟩ := List.getElem?_eq_some_iff.1 ha
      rw [List.length_reverse] at hlt
      rw [List.getElem?_reverse hlt] at ha
      exact ⟨_, ha, by omega⟩
    · rintro ⟨i, ha, hi⟩
      obtain ⟨hlt, -⟩ := List.getElem?_eq_some_iff.1 ha
      rwa [List.getElem?_reverse (by omega), show l.length - 1 - (place.natAbs - 1) = i by omega]

/-- Nothing is at a place beyond either end. -/
theorem placed?_eq_none_iff {α : Type} {l : List α} {place : Int} (h : place ≠ 0) :
    placed? l place = none ↔ l.length < place.natAbs := by
  unfold placed?
  split
  · rw [List.getElem?_eq_none_iff]
    omega
  · rw [List.getElem?_eq_none_iff, List.length_reverse]
    omega

theorem mem_of_placed? {α : Type} {l : List α} {place : Int} {a : α}
    (h : placed? l place = some a) : a ∈ l := by
  unfold placed? at h
  split at h
  · exact List.mem_of_getElem? h
  · exact List.mem_reverse.1 (List.mem_of_getElem? h)

/-- What is at a place of a list that is given by its indices. -/
theorem placed?_map_range_eq_some_iff {α : Type} {f : Nat → α} {size : Nat} {place : Int} {a : α}
    (h : place ≠ 0) : placed? ((List.range size).map f) place = some a ↔
      ∃ i : Nat, i < size ∧ f i = a ∧ (if 0 < place then place - 1 else size + place) = i := by
  rw [placed?_eq_some_iff h, List.length_map, List.length_range]
  refine exists_congr fun i => ?_
  rw [List.getElem?_map, Option.map_eq_some_iff, ← and_assoc]
  refine and_congr_left fun _ => ⟨?_, ?_⟩
  · rintro ⟨j, hj, ha⟩
    obtain ⟨hlt, rfl⟩ := List.getElem?_eq_some_iff.1 hj
    rw [List.length_range] at hlt
    rw [List.getElem_range] at ha
    exact ⟨hlt, ha⟩
  · rintro ⟨hlt, ha⟩
    exact ⟨i, List.getElem?_range hlt, ha⟩

/-! ## Days of a month -/

open Series (daysOf)

variable {year month day n : Int} {w : Weekday}

theorem mem_daysOf_iff : day ∈ daysOf year month ↔ 1 ≤ day ∧ day ≤ monthLength year month := by
  rw [daysOf, List.mem_map]
  constructor
  · rintro ⟨i, hi, rfl⟩
    have := List.mem_range.1 hi
    omega
  · intro h
    exact ⟨(day - 1).toNat, List.mem_range.2 (by omega), by omega⟩

theorem pairwise_daysOf (year month : Int) : (daysOf year month).Pairwise (· < ·) :=
  List.pairwise_lt_range.map _ fun i j hij => by omega

/-- **A listed day of a month is the one at its place** among all days of the month. -/
theorem monthDay?_eq_placed? (h : n ≠ 0) :
    monthDay? (monthLength year month) n = placed? (daysOf year month) n := by
  refine Option.ext fun day => ?_
  rw [daysOf, placed?_map_range_eq_some_iff h]
  simp only [monthDay?, Option.ite_none_right_eq_some, Option.some.injEq]
  constructor
  · intro hday
    exact ⟨(day - 1).toNat, by omega, by omega, by omega⟩
  · rintro ⟨i, hlt, rfl, hi⟩
    omega

theorem weekdayOfDayNumber_eq_iff : weekdayOfDayNumber n = w ↔ (n + 6) % 7 = w.number := by
  rw [← Weekday.number_inj, weekdayOfDayNumber, Weekday.number_ofNumber]

/-- The days of a month that fall on a weekday, from the first on. -/
def weekdaysOf (year month : Int) (w : Weekday) : List Int :=
  (daysOf year month).filter fun day => weekdayOfDayNumber (dayNumberOf year month day) = w

theorem weekday_of_mem_weekdaysOf (h : day ∈ weekdaysOf year month w) :
    weekdayOfDayNumber (dayNumberOf year month day) = w :=
  of_decide_eq_true (List.mem_filter.1 h).2

/-- The first day of a month that falls on a weekday. -/
def firstOf (year month : Int) (w : Weekday) : Int :=
  1 + (w.number - (weekdayOfDayNumber (dayNumberOf year month 1)).number) % 7

theorem firstOf_bounds (year month : Int) (w : Weekday) :
    1 ≤ firstOf year month w ∧ firstOf year month w ≤ 7 := by
  unfold firstOf
  omega

/-- A weekday falls on the days that are whole weeks from the first one. -/
theorem weekdayOfDayNumber_dayNumberOf_eq_iff :
    weekdayOfDayNumber (dayNumberOf year month day) = w ↔ 7 ∣ day - firstOf year month w := by
  have h0 := w.number_nonneg
  have h7 := w.number_lt
  rw [weekdayOfDayNumber_eq_iff]
  simp only [firstOf, weekdayOfDayNumber, Weekday.number_ofNumber, dayNumberOf]
  omega

/-- How many days of a month fall on a weekday. -/
def countOf (year month : Int) (w : Weekday) : Nat :=
  ((monthLength year month - firstOf year month w) / 7 + 1).toNat

/-- From the first on, every seventh day falls on the same weekday. -/
theorem weekdaysOf_eq (year month : Int) (w : Weekday) : weekdaysOf year month w =
    (List.range (countOf year month w)).map fun (i : Nat) => firstOf year month w + 7 * i := by
  refine List.Pairwise.eq_of_mem_iff ((pairwise_daysOf year month).filter _)
    (List.pairwise_lt_range.map _ fun i j hij => by omega) fun day => ?_
  obtain ⟨h1, h7⟩ := firstOf_bounds year month w
  simp only [weekdaysOf, List.mem_filter, mem_daysOf_iff, decide_eq_true_eq,
    weekdayOfDayNumber_dayNumberOf_eq_iff, List.mem_map, List.mem_range, countOf]
  constructor
  · rintro ⟨⟨hle, hlast⟩, hday⟩
    exact ⟨((day - firstOf year month w) / 7).toNat, by omega, by omega⟩
  · rintro ⟨i, hi, rfl⟩
    omega

/-- The last day of a month that falls on a weekday, counted from the end. -/
theorem lastOf_eq (year month : Int) (w : Weekday) :
    monthLength year month
      - ((weekdayOfDayNumber (dayNumberOf year month (monthLength year month))).number
        - w.number) % 7
      = firstOf year month w + 7 * ((countOf year month w : Int) - 1) := by
  have h0 := w.number_nonneg
  have h7 := w.number_lt
  have hlength := monthLength_ge year month
  simp only [countOf, firstOf, weekdayOfDayNumber, Weekday.number_ofNumber, dayNumberOf]
  omega

/-- **The so-and-so-many-th day of a month on a weekday is the one at that place** among all such
days. -/
theorem nthWeekday_eq_placed? (h : n ≠ 0) :
    nthWeekday year month w n = placed? (weekdaysOf year month w) n := by
  refine Option.ext fun day => ?_
  obtain ⟨h1, h7⟩ := firstOf_bounds year month w
  have hlength := monthLength_ge year month
  have hfirst : 1 + (w.number - (weekdayOfDayNumber (dayNumberOf year month 1)).number) % 7
      = firstOf year month w := rfl
  rw [weekdaysOf_eq, placed?_map_range_eq_some_iff h]
  simp only [nthWeekday, hfirst, lastOf_eq]
  split
  · simp only [Option.ite_none_right_eq_some, Option.some.injEq, countOf]
    constructor
    · intro hday
      exact ⟨(n - 1).toNat, by omega, by omega, by omega⟩
    · rintro ⟨i, hlt, rfl, hi⟩
      omega
  · simp only [Option.ite_none_right_eq_some, Option.some.injEq]
    constructor
    · intro hday
      exact ⟨(countOf year month w + n).toNat, by omega, by omega, by omega⟩
    · rintro ⟨i, hlt, rfl, hi⟩
      omega

/-- The days of a month that fall on a weekday are those of its dates that do. -/
theorem mem_weekdaysOf_iff (hyear : 1 ≤ year ∧ year ≤ 9999) (hmonth : 1 ≤ month ∧ month ≤ 12) :
    day ∈ weekdaysOf year month w ↔
      ∃ d : Date, d.year = year ∧ d.month = month ∧ d.day = day ∧ d.weekday = w := by
  rw [weekdaysOf, List.mem_filter, mem_daysOf_iff, decide_eq_true_eq]
  constructor
  · rintro ⟨⟨hfirst, hlast⟩, hday⟩
    exact ⟨⟨year, month, day, hyear.1, hyear.2, hmonth.1, hmonth.2, hfirst, hlast⟩, rfl, rfl, rfl,
      hday⟩
  · rintro ⟨d, rfl, rfl, rfl, hday⟩
    obtain ⟨-, -, -, -, hfirst, hlast⟩ := d.valid
    exact ⟨⟨hfirst, hlast⟩, hday⟩

theorem nthWeekdayOfMonth_eq_ok (hyear : 1 ≤ year ∧ year ≤ 9999) (hmonth : 1 ≤ month ∧ month ≤ 12)
    (w : Weekday) (n : Int) :
    nthWeekdayOfMonth year month w n = .ok (nthWeekday year month w n) := by
  have hcheckMonth : checkMonth month = .ok () := if_neg (by omega)
  rw [nthWeekdayOfMonth, hcheckMonth, checkYear_eq_ok_iff.2 hyear]
  rfl

/-- **The so-and-so-many-th day on a weekday**, in any month of the years 1 to 9999: it is the day
at that place in the increasing list of the month's days on that weekday, and there is none exactly
if the list is shorter. -/
theorem nthWeekdayOfMonth_placed (hyear : 1 ≤ year ∧ year ≤ 9999) (hmonth : 1 ≤ month ∧ month ≤ 12)
    (w : Weekday) (h : n ≠ 0) :
    ∃ days : List Int, days.Pairwise (· < ·) ∧
      (∀ day, day ∈ days ↔
        ∃ d : Date, d.year = year ∧ d.month = month ∧ d.day = day ∧ d.weekday = w) ∧
      nthWeekdayOfMonth year month w n = .ok (placed? days n) ∧
      (nthWeekdayOfMonth year month w n = .ok none ↔ days.length < n.natAbs) := by
  have hplaced : nthWeekdayOfMonth year month w n = .ok (placed? (weekdaysOf year month w) n) := by
    rw [nthWeekdayOfMonth_eq_ok hyear hmonth, nthWeekday_eq_placed? h]
  refine ⟨weekdaysOf year month w, (pairwise_daysOf year month).filter _,
    fun _ => mem_weekdaysOf_iff hyear hmonth, hplaced, ?_⟩
  rw [hplaced, Except.ok.injEq, placed?_eq_none_iff h]

/-- February 2024 has five Thursdays: the fifth one from the end is the first of the month. -/
theorem leapFebruary_thursdays :
    ((1 : Int) ≤ 2024 ∧ (2024 : Int) ≤ 9999) ∧ ((1 : Int) ≤ 2 ∧ (2 : Int) ≤ 12) ∧ (-5 : Int) ≠ 0 ∧
    nthWeekdayOfMonth 2024 2 .thursday (-5) = .ok (some 1) ∧
    ∃ days : List Int, days.Pairwise (· < ·) ∧
      (∀ day, day ∈ days ↔
        ∃ d : Date, d.year = 2024 ∧ d.month = 2 ∧ d.day = day ∧ d.weekday = .thursday) ∧
      nthWeekdayOfMonth 2024 2 .thursday (-5) = .ok (placed? days (-5)) ∧
      (nthWeekdayOfMonth 2024 2 .thursday (-5) = .ok none ↔ days.length < (-5 : Int).natAbs) :=
  ⟨by decide, by decide, by decide, by decide,
    nthWeekdayOfMonth_placed (by decide) (by decide) .thursday (by decide)⟩

end RecurringEvents
