import RecurringEvents.Calendar.Date

/-!
# Months

Lengths of months, shifting a month, and the days of a month by weekday. The functions on bare
years and months check that these name a month; inside a series, where a month comes from a date,
the unchecked forms `monthLength`, `shiftMonth` and `nthWeekday` are used.

* `shiftMonth_zero`, `shiftMonth_add`: shifting is an action of the whole numbers.
-/

namespace RecurringEvents

/-- The month `n` months after a month of a year. -/
def shiftMonth (year month n : Int) : Int × Int :=
  let total := 12 * year + (month - 1) + n
  (total / 12, total % 12 + 1)

/--
The day of the month that is the `n`-th of its weekday, counted from the end if `n` is negative, or
`none` if the month has no such day. There is no zeroth day: 0 names the day a week after the last.
-/
def nthWeekday (year month : Int) (weekday : Weekday) (n : Int) : Option Int :=
  let lastDay := monthLength year month
  if 0 < n then
    let first := weekdayOfDayNumber (dayNumberOf year month 1)
    let day := 1 + (weekday.number - first.number) % 7 + (n - 1) * 7
    if day ≤ lastDay then some day else none
  else
    let last := weekdayOfDayNumber (dayNumberOf year month lastDay)
    let day := lastDay - (last.number - weekday.number) % 7 - ((n.natAbs : Int) - 1) * 7
    if 1 ≤ day then some day else none

/--
A year that some date has. Years of more than 32 bits are out of range; others outside 1 to 9999
just name no date.
-/
def checkYear (year : Int) : Except CalendarError Unit :=
  if year < -2147483648 ∨ 2147483648 ≤ year then .error .outOfRange
  else if year < 1 ∨ 9999 < year then .error .invalidDate
  else .ok ()

/-- A month is one of 1 to 12. -/
def checkMonth (month : Int) : Except CalendarError Unit :=
  if month < 1 ∨ 12 < month then .error .invalidMonth else .ok ()

/-- The length of a month of any year, also before 1 and after 9999. -/
def daysInMonth (year month : Int) : Except CalendarError Int := do
  checkMonth month
  pure (monthLength year month)

/-- Shifts a month, both the given and the resulting month lying in the years 1 to 9999. -/
def addMonths (year month n : Int) : Except CalendarError (Int × Int) := do
  checkYear year
  if month < 1 ∨ 12 < month then throw .invalidDate
  let shifted := shiftMonth year month n
  checkYear shifted.1
  pure shifted

/-- `nthWeekday` for a month of a year that need not exist. -/
def nthWeekdayOfMonth (year month : Int) (weekday : Weekday) (n : Int) :
    Except CalendarError (Option Int) := do
  checkMonth month
  checkYear year
  pure (nthWeekday year month weekday n)

theorem shiftMonth_zero {year month : Int} (h1 : 1 ≤ month) (h2 : month ≤ 12) :
    shiftMonth year month 0 = (year, month) := by
  simp only [shiftMonth, Prod.mk.injEq]
  omega

/-- Two shifts in a row are one shift. -/
theorem shiftMonth_add (year month a b : Int) :
    shiftMonth (shiftMonth year month a).1 (shiftMonth year month a).2 b
      = shiftMonth year month (a + b) := by
  simp only [shiftMonth, Prod.mk.injEq]
  omega

theorem shiftMonth_month (year month n : Int) :
    1 ≤ (shiftMonth year month n).2 ∧ (shiftMonth year month n).2 ≤ 12 := by
  simp only [shiftMonth]
  omega

end RecurringEvents
