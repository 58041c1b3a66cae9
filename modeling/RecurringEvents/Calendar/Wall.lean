import RecurringEvents.Calendar.Date
import RecurringEvents.Text.Integer

/-!
# Wall time

What a calendar and a clock on a wall show: a date and a time of day, to the microsecond. When
clocks are set back a time of day comes twice, so a wall time also says which pass it belongs to;
nothing but the offset of a zone depends on the pass.

The `count` of a wall time is the number of microseconds from the start of 1970, as if all days had
24 hours. It orders wall times and does not see the pass.

* `ofCount?_count`: a wall time of the first pass is recovered from its count.
-/

namespace RecurringEvents

/-- Microseconds in a second. -/
def secondMicros : Int := 1000000

/-- Microseconds in a day. -/
def dayMicros : Int := 86400000000

/-- The day number of the first of January 1970. -/
def epochDayNumber : Int := 719163

/-- Which pass of a repeated hour is meant; the first if the hour is not repeated. -/
inductive Pass where
  | first
  | second
  deriving Repr, DecidableEq

/-- The other pass. -/
def Pass.other : Pass → Pass
  | .first => .second
  | .second => .first

/-- A time of day, in microseconds from midnight. -/
structure TimeOfDay where
  micros : Int
  nonneg : 0 ≤ micros
  lt : micros < dayMicros
  deriving Repr, DecidableEq

namespace TimeOfDay

/-- The first moment of a day. -/
def midnight : TimeOfDay := ⟨0, by decide, by decide⟩

/-- The time of day with the given fields, if there is one. -/
def of? (hour minute second micro : Int) : Option TimeOfDay :=
  if h : (0 ≤ hour ∧ hour < 24) ∧ (0 ≤ minute ∧ minute < 60) ∧ (0 ≤ second ∧ second < 60) ∧
      (0 ≤ micro ∧ micro < secondMicros) then
    some ⟨((hour * 60 + minute) * 60 + second) * 1000000 + micro,
      by omega, by simp only [secondMicros] at h; simp only [dayMicros]; omega⟩
  else none

/-- The hour, 0 to 23. -/
def hour (t : TimeOfDay) : Int := t.micros / 3600000000

/-- The minute, 0 to 59. -/
def minute (t : TimeOfDay) : Int := t.micros / 60000000 % 60

/-- The second, 0 to 59. -/
def second (t : TimeOfDay) : Int := t.micros / secondMicros % 60

/-- The part of a second, in microseconds. -/
def micro (t : TimeOfDay) : Int := t.micros % secondMicros

/-- The time without its part of a second. -/
def wholeSecond (t : TimeOfDay) : TimeOfDay :=
  ⟨t.micros - t.micros % 1000000, by have := t.nonneg; omega, by
    have := t.nonneg; have := t.lt; omega⟩

end TimeOfDay

/-- A date and a time of day, and the pass of a repeated hour. -/
structure Wall where
  date : Date
  time : TimeOfDay
  pass : Pass := .first
  deriving Repr, DecidableEq

namespace Wall

/-- The place of a wall time on the line of wall times, in microseconds; 1970 begins at 0. -/
def count (w : Wall) : Int := (w.date.dayNumber - epochDayNumber) * dayMicros + w.time.micros

/-- The wall time at a place of the line, if it is in the years 1 to 9999. -/
def ofCount? (n : Int) : Option Wall :=
  (Date.ofDayNumber? (n / dayMicros + epochDayNumber)).map fun d =>
    ⟨d, ⟨n % dayMicros, Int.emod_nonneg _ (by decide), Int.emod_lt_of_pos _ (by decide)⟩, .first⟩

/-- The whole seconds of the count, rounded down. -/
def seconds (w : Wall) : Int := w.count / secondMicros

/-- The wall time some microseconds later. It belongs to the first pass. -/
def add? (w : Wall) (micros : Int) : Option Wall := ofCount? (w.count + micros)

/-- The wall time at the same time of day some days later. It belongs to the first pass. -/
def addDays? (w : Wall) (days : Int) : Option Wall := w.add? (days * dayMicros)

/-- A wall time of the first pass is recovered from its count. -/
theorem ofCount?_count (w : Wall) : ofCount? w.count = some { w with pass := .first } := by
  have h1 := w.time.nonneg
  have h2 := w.time.lt
  have hd : w.count / dayMicros + epochDayNumber = w.date.dayNumber := by
    simp only [count, dayMicros] at *; omega
  have ht : w.count % dayMicros = w.time.micros := by
    simp only [count, dayMicros] at *; omega
  simp only [ofCount?, hd, ht, Date.ofDayNumber?_dayNumber, Option.map_some]

/-- Wall times with the same count differ at most in the pass. -/
theorem eq_of_count_eq {v w : Wall} (h : v.count = w.count) :
    v.date = w.date ∧ v.time = w.time := by
  have hv := ofCount?_count v
  rw [h, ofCount?_count w] at hv
  injection hv with hv
  injection hv with hd ht _
  exact ⟨hd.symm, ht.symm⟩

/-! ## Text -/

/-- `YYYY-MM-DD`. -/
def dateText (d : Date) : List Char :=
  Text.padded 4 d.year.toNat ++ '-' :: Text.padded 2 d.month.toNat
    ++ '-' :: Text.padded 2 d.day.toNat

/-- `HH:MM`. -/
def minuteText (t : TimeOfDay) : List Char :=
  Text.padded 2 t.hour.toNat ++ ':' :: Text.padded 2 t.minute.toNat

/-- `HH:MM:SS`, followed by a point and six digits if the second is not whole. -/
def timeText (t : TimeOfDay) : List Char :=
  minuteText t ++ ':' :: Text.padded 2 t.second.toNat
    ++ (if t.micro = 0 then [] else '.' :: Text.padded 6 t.micro.toNat)

/-- A date, the letter T and a time of day. -/
def text (w : Wall) : List Char := dateText w.date ++ 'T' :: timeText w.time

end Wall

end RecurringEvents
