import RecurringEvents.Calendar.Month
import RecurringEvents.Calendar.Wall

/-!
# Regions

The clock of a region through time: the local time type at first, the listed changes, and the
schedule that holds after the latest of them. A schedule is steady, or alternates every year between
standard and daylight time.

A region is asked in two ways.

* `typeAt`: which local time type holds at an instant, and whether the wall time is then shown for
  the second time.
* `localType`: which one a wall time is read with. In a repeated hour the pass decides; a skipped
  wall time of the first pass is read with the offset before the gap, one of the second pass with
  the offset after it.

Both work on whole seconds. Instants are counted in seconds of UTC, wall times in seconds as if the
wall showed UTC; both are 0 when 1970 begins.
-/

namespace RecurringEvents

/-- A local time type: seconds east of UTC, and the abbreviation it goes by. -/
structure LocalType where
  offset : Int
  name : String
  deriving Repr, DecidableEq

/-- From the instant `start` on the local time type is `type`. -/
structure Change where
  start : Int
  type : LocalType
  deriving Repr, DecidableEq

/--
A day of the year and a wall time on it: in the month `month`, the `week`-th day with number
`weekday` (0 is Sunday; week 5 is the last one), and then `time` seconds after its midnight, which
may be negative or more than a day.
-/
structure YearlyTime where
  month : Int
  week : Int
  weekday : Int
  time : Int := 7200
  deriving Repr, DecidableEq

namespace YearlyTime

/-- The day of the month that is meant. -/
def dayOf (r : YearlyTime) (year : Int) : Int :=
  let first := weekdayOfDayNumber (dayNumberOf year r.month 1)
  let day := (r.weekday - (first.number + 1)) % 7 + 1 + (r.week - 1) * 7
  if monthLength year r.month < day then day - 7 else day

/-- The wall seconds that are meant in a year. -/
def secondsIn (r : YearlyTime) (year : Int) : Int :=
  (dayNumberOf year r.month (r.dayOf year) - epochDayNumber) * 86400 + r.time

end YearlyTime

/-- What holds after the latest listed change. -/
inductive Schedule where
  /-- One local time type for ever. -/
  | steady (type : LocalType)
  /-- Daylight time from `starts`, read in standard time, to `ends`, read in daylight time. -/
  | seasonal (standard daylight : LocalType) (starts ends : YearlyTime)
  deriving Repr, DecidableEq

namespace Schedule

/-- Whether `t` lies in the part of a year from `a` to `b`, which may contain the turn of the
year. -/
def inSeason (a b t : Int) : Bool := if a < b then a ≤ t && t < b else t < b || a ≤ t

/-- The local time type at an instant of a year of UTC, and the pass of the wall time shown. -/
def typeAt (p : Schedule) (year t : Int) : LocalType × Pass :=
  match p with
  | steady type => (type, .first)
  | seasonal standard daylight starts ends =>
    let a := starts.secondsIn year - standard.offset
    let b := ends.secondsIn year - daylight.offset
    let saved := daylight.offset - standard.offset
    let repeated :=
      if 0 < saved then b ≤ t && t < b + saved else a ≤ t && t < a - saved
    (if inSeason a b t then daylight else standard, if repeated then .second else .first)

/-- The local time type that a wall time of a year is read with. -/
def localType (p : Schedule) (pass : Pass) (year t : Int) : LocalType :=
  match p with
  | steady type => type
  | seasonal standard daylight starts ends =>
    let a := starts.secondsIn year
    let b := ends.secondsIn year
    let saved := daylight.offset - standard.offset
    let inDaylight :=
      if (pass = .second) = (0 ≤ saved) then inSeason a (b - saved) t
      else inSeason (a + saved) b t
    if inDaylight then daylight else standard

end Schedule

/-- The name of a region and the history of its clock. -/
structure Region where
  name : String
  /-- What holds before the first change. -/
  first : LocalType
  /-- The changes, the latest one first. -/
  changes : List Change
  later : Schedule
  deriving Repr, DecidableEq

namespace Region

/-- The local time type after some changes, the latest one first. -/
def typeAfter (first : LocalType) : List Change → LocalType
  | [] => first
  | c :: _ => c.type

/-- The local time type at an instant up to the latest change, and the pass of the wall time
shown: the second if the clock was set back by more than has gone by since. -/
def listedAt (first : LocalType) (t : Int) : List Change → LocalType × Pass
  | [] => (first, .first)
  | c :: cs =>
    if t < c.start then listedAt first t cs
    else
      let back := (typeAfter first cs).offset - c.type.offset
      (c.type, if t - c.start < back then .second else .first)

/-- The local time type at an instant of a year of UTC, and the pass of the wall time shown. -/
def typeAt (r : Region) (year t : Int) : LocalType × Pass :=
  match r.changes with
  | [] => r.later.typeAt year t
  | c :: cs =>
    if c.start < t then
      let (type, pass) := r.later.typeAt year t
      let back := (typeAfter r.first cs).offset - type.offset
      (type, if t - c.start < back then .second else pass)
    else listedAt r.first t (c :: cs)

/-- The wall seconds from which a change counts: for the first pass when neither offset is in
doubt any more, for the second pass as soon as the new one is possible. -/
def wallStart (pass : Pass) (before : LocalType) (c : Change) : Int :=
  match pass with
  | .first => c.start + max before.offset c.type.offset
  | .second => c.start + min before.offset c.type.offset

/-- The local time type that a wall time up to the latest change is read with. -/
def listedFor (first : LocalType) (pass : Pass) (t : Int) : List Change → LocalType
  | [] => first
  | c :: cs =>
    if t < wallStart pass (typeAfter first cs) c then listedFor first pass t cs else c.type

/-- The local time type that a wall time of a year is read with. -/
def localType (r : Region) (pass : Pass) (year t : Int) : LocalType :=
  match r.changes with
  | [] => r.later.localType pass year t
  | c :: cs =>
    if wallStart pass (typeAfter r.first cs) c < t then r.later.localType pass year t
    else listedFor r.first pass t (c :: cs)

end Region

end RecurringEvents
