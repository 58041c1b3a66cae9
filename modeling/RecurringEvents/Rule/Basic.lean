import RecurringEvents.Moment
import RecurringEvents.Text.Upper

/-!
# Recurrence rules

A rule says how often an event recurs, within which limits, and on which days. Every rule is well
formed by its type: intervals and counts are positive, months and days lie in their ranges, the
last moment has no part of a second.

Lists that are empty count as absent wherever a rule is interpreted (`days`, `monthDays`, `months`,
`setPositions`).
-/

namespace RecurringEvents

/-- How often an event recurs. -/
inductive Frequency where
  | daily | weekly | monthly | yearly
  deriving Repr, DecidableEq

namespace Frequency

/-- All frequencies. -/
def all : List Frequency := [daily, weekly, monthly, yearly]

/-- The word for a frequency. -/
def word : Frequency → String
  | daily => "daily" | weekly => "weekly" | monthly => "monthly" | yearly => "yearly"

/-- The word with a capital. -/
def label : Frequency → String
  | daily => "Daily" | weekly => "Weekly" | monthly => "Monthly" | yearly => "Yearly"

/-- The period of a frequency. -/
def unit : Frequency → String
  | daily => "day" | weekly => "week" | monthly => "month" | yearly => "year"

/-- The frequency that a word in lower case stands for. -/
def ofWord? (s : List Char) : Option Frequency := all.find? fun f => f.word.toList = s

theorem ofWord?_word (f : Frequency) : ofWord? f.word.toList = some f := by cases f <;> decide

end Frequency

/-- A place counted from the front or, if it is negative, from the back. -/
def InSignedRange (limit n : Int) : Prop := n ≠ 0 ∧ -limit ≤ n ∧ n ≤ limit

instance (limit n : Int) : Decidable (InSignedRange limit n) := inferInstanceAs (Decidable (_ ∧ _))

/-- A month of the year. -/
def IsMonth (n : Int) : Prop := 1 ≤ n ∧ n ≤ 12

instance (n : Int) : Decidable (IsMonth n) := inferInstanceAs (Decidable (_ ∧ _))

/-- What an option holds has the properties of the value it was made of. -/
theorem forall_mem_some {α : Type} {p : α → Prop} {a : α} (h : p a) : ∀ x ∈ some a, p x := by
  intro x hx
  cases hx
  exact h

/-- An option without a value holds nothing. -/
theorem forall_mem_none {α : Type} {p : α → Prop} : ∀ x ∈ (none : Option α), p x := by
  intro x hx
  cases hx

/-- An absent position is in range. -/
theorem noPosition_valid : ∀ n ∈ (none : Option Int), InSignedRange 53 n := forall_mem_none

/-- An absent count is positive. -/
theorem noCount_pos : ∀ n ∈ (none : Option Int), 1 ≤ n := forall_mem_none

/-- An absent list of months has only months. -/
theorem noMonths_valid : ∀ ns ∈ (none : Option (List Int)), ∀ n ∈ ns, IsMonth n := forall_mem_none

/-- An absent last moment is a whole second. -/
theorem noLastMoment_whole : ∀ m ∈ (none : Option Moment), m.wall.time.micro = 0 := forall_mem_none

/-- A weekday, or with a position the so-and-so-many-th such day of a period. -/
structure DayEntry where
  day : Weekday
  position : Option Int := none
  valid : ∀ n ∈ position, InSignedRange 53 n := by decide
  deriving Repr, DecidableEq

/-- A recurrence rule. -/
structure Rule where
  frequency : Frequency
  /-- Every how many periods. -/
  interval : Int := 1
  /-- How many occurrences the series has. -/
  count : Option Int := none
  /-- The last moment at which an occurrence may start. -/
  lastMoment : Option Moment := none
  byDay : Option (List DayEntry) := none
  byMonthDay : Option (List Int) := none
  byMonth : Option (List Int) := none
  bySetPos : Option (List Int) := none
  weekStart : Option Weekday := none
  /-- Days on which there is no occurrence. -/
  exdates : Option (List TimeValue) := none
  /-- Further occurrences. -/
  rdates : Option (List TimeValue) := none
  interval_pos : 1 ≤ interval := by decide
  count_pos : ∀ n ∈ count, 1 ≤ n := by simp
  lastMoment_whole : ∀ m ∈ lastMoment, m.wall.time.micro = 0 := by simp
  byMonthDay_valid : ∀ ns ∈ byMonthDay, ∀ n ∈ ns, InSignedRange 31 n := by simp
  byMonth_valid : ∀ ns ∈ byMonth, ∀ n ∈ ns, IsMonth n := by simp
  bySetPos_valid : ∀ ns ∈ bySetPos, ∀ n ∈ ns, InSignedRange 366 n := by simp
  deriving Repr, DecidableEq

namespace Rule

/-- A rule that says no more than how often. -/
def every (frequency : Frequency) : Rule where
  frequency := frequency

/-- The weekdays that are listed. -/
def days (r : Rule) : List DayEntry := r.byDay.getD []

/-- The days of the month that are listed. -/
def monthDays (r : Rule) : List Int := r.byMonthDay.getD []

/-- The months that are listed. -/
def months (r : Rule) : List Int := r.byMonth.getD []

/-- The places within a period that are listed. -/
def setPositions (r : Rule) : List Int := r.bySetPos.getD []

/-- The days that are excluded. -/
def excluded (r : Rule) : List TimeValue := r.exdates.getD []

/-- The occurrences that are added. -/
def extras (r : Rule) : List TimeValue := r.rdates.getD []

/-- Whether some weekday has a position. -/
def hasPositions (r : Rule) : Bool := r.days.any fun e => e.position.isSome

/-- Whether two optional moments are both absent or equal as moments. -/
def sameLast : Option Moment → Option Moment → Bool
  | none, none => true
  | some a, some b => Moment.same a b
  | _, _ => false

/-- Equality of rules; last moments are compared as moments. -/
def same (a b : Rule) : Bool :=
  a.frequency = b.frequency && a.interval = b.interval && a.count = b.count &&
    sameLast a.lastMoment b.lastMoment && a.byDay = b.byDay && a.byMonthDay = b.byMonthDay &&
    a.byMonth = b.byMonth && a.bySetPos = b.bySetPos && a.weekStart = b.weekStart &&
    a.exdates = b.exdates && a.rdates = b.rdates

end Rule

end RecurringEvents
