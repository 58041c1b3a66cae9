import RecurringEvents.Calendar.Wall

/-!
# Elapsed time

An elapsed time is a number of microseconds, and it is at least -999999999 days and less than a
thousand million days.

The seconds of an elapsed time are kept as a binary fraction of 53 significant digits: the nearest
one to the microseconds, and of two equally near ones the even one. The whole seconds are those of
this fraction. A time of many centuries that lacks less than the last place of a full second
therefore counts that second.
-/

namespace RecurringEvents

/-- The most whole days of an elapsed time, forward and backward. -/
def maxElapsedDays : Nat := 999999999

/-- An elapsed time in microseconds. -/
def elapsed (micros : Int) : Except CalendarError Int :=
  if (micros / dayMicros).natAbs ≤ maxElapsedDays then .ok micros else .error .outOfRange

/-- A quotient rounded to the nearest whole number, and a half to the even one. -/
def roundDiv (num den : Nat) : Nat :=
  let q := num / den
  let twice := 2 * (num % den)
  if twice < den then q else if den < twice then q + 1 else q + q % 2

/-- How many places after the point a binary fraction of 53 significant digits has, given its whole
part. -/
def fractionPlaces (whole : Nat) : Nat := 52 - whole.log2

/-- The whole seconds of a number of microseconds. -/
def wholeSecondsOf (micros : Nat) : Nat :=
  let scale := 1 <<< fractionPlaces (micros / 1000000)
  roundDiv (micros * scale) 1000000 / scale

/-- The whole seconds of an elapsed time in microseconds; the sign does not count. -/
def wholeSeconds (micros : Int) : Int := micros.sign * wholeSecondsOf micros.natAbs

end RecurringEvents
