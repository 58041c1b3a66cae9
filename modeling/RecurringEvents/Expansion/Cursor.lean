import RecurringEvents.Calendar.Month
import RecurringEvents.Rule.Basic

/-!
# The cursor of a series

A series is walked by a cursor, a wall time that starts at the anchor and is moved by the frequency
of the rule.

* Daily: by the interval.
* Weekly: to the next listed weekday of the week, or to the first one of the week `interval` weeks
  ahead; without listed weekdays, by the interval.
* Monthly and yearly: to the next candidate of the month or year, or to the first one of a later
  period. The candidates of a period are the listed days of its months, of which the listed places
  are picked.

A cursor that would leave the years 1 to 9999 is gone, and with it the rest of the series.
-/

namespace RecurringEvents

/-- What the cursor of a series depends on. -/
structure Series where
  rule : Rule
  anchor : Wall
  maxEmptyPeriods : Int
  deriving Repr, DecidableEq

/-- A month of a year; a year is meant by its first month. -/
structure Period where
  year : Int
  month : Int
  deriving Repr, DecidableEq

/-- The day that a place in a month denotes, if the month has it. -/
def monthDay? (lastDay place : Int) : Option Int :=
  let day := if 0 < place then place else lastDay + place + 1
  if 1 ≤ day ∧ day ≤ lastDay then some day else none

namespace Rule

/-- Whether one of the listed places denotes a day of a month with `lastDay` days. -/
def listsMonthDay (r : Rule) (lastDay day : Int) : Bool :=
  r.monthDays.any fun place => monthDay? lastDay place = some day

/-- Whether one of the listed weekdays falls on a day of a month, at its position if it has one. -/
def listsWeekday (r : Rule) (year month day : Int) : Bool :=
  r.days.any fun e => match e.position with
    | some n => nthWeekday year month e.day n = some day
    | none => weekdayOfDayNumber (dayNumberOf year month day) = e.day

/-- Whether a day of a month is a candidate. Without listed days, it is the day of the anchor, or
the last day of a month that is too short. -/
def isCandidateDay (r : Rule) (anchorDay year month day : Int) : Bool :=
  let lastDay := monthLength year month
  if r.days ≠ [] then
    r.listsWeekday year month day && (r.monthDays = [] || r.listsMonthDay lastDay day)
  else if r.monthDays ≠ [] then r.listsMonthDay lastDay day
  else day = min anchorDay lastDay

/-- The months of a period in which candidates lie. -/
def candidateMonths (r : Rule) (anchorMonth : Int) (p : Period) : List Int :=
  if r.frequency = .monthly then [p.month]
  else if r.months = [] then [anchorMonth]
  else [1, 2, 3, 4, 5, 6, 7, 8, 9, 10, 11, 12].filter r.months.contains

/-- Whether one of the listed places denotes the `index`-th of `size` candidates. -/
def listsPlace (r : Rule) (size index : Nat) : Bool :=
  r.setPositions.any fun place =>
    (if 0 < place then place - 1 else size + place) = (index : Int)

/-- The candidates at the listed places; all of them if none is listed. -/
def pickPlaces {α : Type} (r : Rule) (cs : List α) : List α :=
  if r.setPositions = [] then cs
  else (cs.zipIdx.filter fun c => r.listsPlace cs.length c.2).map Prod.fst

end Rule

namespace Series

/-- The candidate on a date: at the anchor's time of day, in the anchor's pass. -/
def on (s : Series) (d : Date) : Wall := { s.anchor with date := d }

/-- The days of a month, from the first on. -/
def daysOf (year month : Int) : List Int :=
  (List.range (monthLength year month).toNat).map fun (i : Nat) => (i : Int) + 1

/-- The candidates of one month. -/
def monthCandidates (s : Series) (year month : Int) : List Wall :=
  ((daysOf year month).filter (s.rule.isCandidateDay s.anchor.date.day year month)).filterMap
    fun day => (Date.of? year month day).map s.on

/-- The candidates of a period, in their order. -/
def candidates (s : Series) (p : Period) : List Wall :=
  s.rule.pickPlaces
    ((s.rule.candidateMonths s.anchor.date.month p).flatMap (s.monthCandidates p.year))

/-- The period that a wall time lies in. -/
def periodOf (s : Series) (w : Wall) : Period :=
  ⟨w.date.year, if s.rule.frequency = .monthly then w.date.month else 1⟩

/-- The period `interval` periods later. -/
def nextPeriod (s : Series) (p : Period) : Period :=
  if s.rule.frequency = .monthly then
    let shifted := shiftMonth p.year p.month s.rule.interval
    ⟨shifted.1, shifted.2⟩
  else ⟨p.year + s.rule.interval, p.month⟩

/-- The first candidate within the next `n` periods after one. -/
def firstAfter (s : Series) : Nat → Period → Option Wall
  | 0, _ => none
  | n + 1, p =>
    let next := s.nextPeriod p
    if 9999 < next.year then none
    else match s.candidates next with
      | c :: _ => some c
      | [] => s.firstAfter n next

/-- The first candidate of a period that satisfies `wanted`, or else the first one after it. -/
def candidateFrom (s : Series) (p : Period) (wanted : Wall → Bool) : Option Wall :=
  match (s.candidates p).find? wanted with
  | some c => some c
  | none => s.firstAfter s.maxEmptyPeriods.toNat p

/-- Whether the cursor goes from candidate to candidate of months or years. -/
def isPeriodic (s : Series) : Bool :=
  s.rule.frequency = .monthly || s.rule.frequency = .yearly

/-- Where the cursor starts. -/
def firstCursor (s : Series) : Option Wall :=
  if s.isPeriodic then
    s.candidateFrom (s.periodOf s.anchor) fun c => s.anchor.count ≤ c.count
  else some s.anchor

/-- The places of the listed weekdays in a week that begins on the week start, in their order. -/
def weekOffsets (s : Series) : List Int :=
  let start := (s.rule.weekStart.getD .sunday).number
  [0, 1, 2, 3, 4, 5, 6].filter fun o => s.rule.days.any fun e => (e.day.number - start) % 7 = o

/-- How many days a weekly cursor moves. -/
def weeklyDays (s : Series) (cursor : Wall) : Int :=
  let start := (s.rule.weekStart.getD .sunday).number
  let current := (cursor.date.weekday.number - start) % 7
  match s.weekOffsets with
  | [] => 7 * s.rule.interval
  | first :: rest => match (first :: rest).find? (current < ·) with
    | some o => o - current
    | none => 7 - current + first + (s.rule.interval - 1) * 7

/-- Where the cursor goes next. -/
def step (s : Series) (cursor : Wall) : Option Wall :=
  match s.rule.frequency with
  | .daily => cursor.addDays? s.rule.interval
  | .weekly => cursor.addDays? (s.weeklyDays cursor)
  | .monthly | .yearly => s.candidateFrom (s.periodOf cursor) fun c => cursor.count < c.count

/-- The cursor after `n` steps. -/
def cursorAt (s : Series) : Nat → Option Wall
  | 0 => s.firstCursor
  | n + 1 => (s.cursorAt n).bind s.step

end Series

namespace Rule

/-- Whether a wall time passes the filters of a rule: its months, its days of the month, and its
weekdays unless they have positions, which place the cursor and do not filter it. -/
def passes (r : Rule) (w : Wall) : Bool :=
  (r.months = [] || r.months.contains w.date.month) &&
    (r.monthDays = [] ||
      r.listsMonthDay (monthLength w.date.year w.date.month) w.date.day) &&
    (r.days = [] || r.hasPositions || r.days.any fun e => e.day = w.date.weekday)

end Rule

end RecurringEvents
