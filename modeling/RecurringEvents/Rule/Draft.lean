import RecurringEvents.Rule.Basic
import RecurringEvents.Text.Integer
import RecurringEvents.Text.Split

/-!
# Drafts of rules

A draft holds the fields of a rule before they are checked. Checking reports everything that is
wrong with single fields, in the order of the fields; only if they are all right, the lists of
signed places are looked at, and the first bad place is reported for the rule as a whole.
-/

namespace RecurringEvents

/-- A step to the place of an issue: a field, or an item of a list. -/
inductive PlaceStep where
  | field (name : String)
  | item (index : Nat)
  deriving Repr, DecidableEq

/-- What is wrong at a place. -/
inductive IssueCause where
  | missing
  | unknownFrequency
  | unknownWeekday
  | belowOne
  /-- The position of a weekday is out of its range. -/
  | dayPosition (n : Int)
  /-- One of the months is none. -/
  | months (ns : List Int)
  /-- A place of the list `name` is 0 or beyond `limit`. -/
  | place (name : String) (limit n : Int)
  /-- An event does not end after its start. -/
  | endNotAfterStart
  deriving Repr, DecidableEq

/-- Something that is wrong with a value. -/
structure Issue where
  place : List PlaceStep
  cause : IssueCause
  deriving Repr, DecidableEq

namespace IssueCause

/-- The kind of an issue. -/
def kind : IssueCause → String
  | missing => "missing"
  | unknownFrequency | unknownWeekday => "enum"
  | belowOne => "greater_than_equal"
  | dayPosition _ | months _ | place .. | endNotAfterStart => "value_error"

/-- Whole numbers in brackets, as they are shown in messages. -/
def listText (ns : List Int) : List Char :=
  '[' :: Text.join ", ".toList (ns.map Text.integer) ++ [']']

/-- A range of places from both ends, and the number that is not in it. -/
def rangeText (limit n : Int) : List Char :=
  " must be in 1..".toList ++ Text.integer limit ++ " or -".toList ++ Text.integer limit
    ++ "..-1, got ".toList ++ Text.integer n

/-- The words for an issue. -/
def message : IssueCause → List Char
  | missing => "Field required".toList
  | unknownFrequency => "Input should be 'daily', 'weekly', 'monthly' or 'yearly'".toList
  | unknownWeekday => "Input should be 'MO', 'TU', 'WE', 'TH', 'FR', 'SA' or 'SU'".toList
  | belowOne => "Input should be greater than or equal to 1".toList
  | dayPosition n => "Value error, BYDAY position".toList ++ rangeText 53 n
  | months ns => "Value error, BYMONTH values must be in 1..12, got ".toList ++ listText ns
  | place name limit n =>
    "Value error, ".toList ++ name.toList ++ " values".toList ++ rangeText limit n
  | endNotAfterStart => "Value error, Event end must be after its start".toList

end IssueCause

/-- The outcome of a check: a value, or all that is wrong. -/
abbrev Checked (α : Type) : Type := Except (List Issue) α

/-- What is wrong. -/
def Checked.issues {α : Type} : Checked α → List Issue
  | .ok _ => []
  | .error is => is

/-- An entry of a list of weekdays before it is checked. -/
structure DayDraft where
  day : String
  position : Option Int := none
  deriving Repr, DecidableEq

/-- The fields of a rule before they are checked; `none` is an absent field. -/
structure RuleDraft where
  frequency : Option String := none
  interval : Option Int := none
  count : Option Int := none
  lastMoment : Option Reading := none
  byDay : Option (List DayDraft) := none
  byMonthDay : Option (List Int) := none
  byMonth : Option (List Int) := none
  bySetPos : Option (List Int) := none
  weekStart : Option String := none
  exdates : Option (List TimeValue) := none
  rdates : Option (List TimeValue) := none
  deriving Repr, DecidableEq

namespace DayDraft

/-- Checks an entry that stands at a place. -/
def check (place : List PlaceStep) (d : DayDraft) : Checked DayEntry :=
  let dayIssues := [Issue.mk (place ++ [.field "day"]) .unknownWeekday]
  let positionIssues (n : Int) := [Issue.mk (place ++ [.field "position"]) (.dayPosition n)]
  match Weekday.ofCode? d.day.toList, d.position with
  | some day, none => .ok { day := day, valid := noPosition_valid }
  | some day, some n =>
    if h : InSignedRange 53 n then
      .ok { day := day, position := some n, valid := forall_mem_some h }
    else .error (positionIssues n)
  | none, none => .error dayIssues
  | none, some n => .error (dayIssues ++ if InSignedRange 53 n then [] else positionIssues n)

/-- Checks the entries of a list, reporting the issues of all of them. -/
def checkAll (place : List PlaceStep) : Nat → List DayDraft → Checked (List DayEntry)
  | _, [] => .ok []
  | i, d :: ds =>
    match d.check (place ++ [.item i]), checkAll place (i + 1) ds with
    | .ok e, .ok es => .ok (e :: es)
    | e, es => .error (e.issues ++ es.issues)

end DayDraft

namespace RuleDraft

/-- Checks the frequency, which has to be there. -/
def checkFrequency : Option String → Checked Frequency
  | none => .error [⟨[.field "frequency"], .missing⟩]
  | some s => match Frequency.ofWord? s.toList with
    | some f => .ok f
    | none => .error [⟨[.field "frequency"], .unknownFrequency⟩]

/-- Checks that a number is positive. -/
def checkPositive (name : String) (n : Int) : Checked { n : Int // 1 ≤ n } :=
  if h : 1 ≤ n then .ok ⟨n, h⟩ else .error [⟨[.field name], .belowOne⟩]

/-- Checks that a count is positive, if there is one. -/
def checkCount : Option Int → Checked { c : Option Int // ∀ n ∈ c, 1 ≤ n }
  | none => .ok ⟨none, noCount_pos⟩
  | some n => (checkPositive "count" n).map fun c => ⟨some c.1, forall_mem_some c.2⟩

/-- Checks the weekdays. -/
def checkDays : Option (List DayDraft) → Checked (Option (List DayEntry))
  | none => .ok none
  | some ds => (DayDraft.checkAll [.field "by_day"] 0 ds).map some

/-- Checks that all months are months. -/
def checkMonths (ms : Option (List Int)) :
    Checked { ms : Option (List Int) // ∀ ns ∈ ms, ∀ n ∈ ns, IsMonth n } :=
  match ms with
  | none => .ok ⟨none, noMonths_valid⟩
  | some ns =>
    if h : ∀ n ∈ ns, IsMonth n then .ok ⟨some ns, forall_mem_some h⟩
    else .error [⟨[.field "by_month"], .months ns⟩]

/-- Checks the day on which weeks begin. -/
def checkWeekStart : Option String → Checked (Option Weekday)
  | none => .ok none
  | some s => match Weekday.ofCode? s.toList with
    | some d => .ok (some d)
    | none => .error [⟨[.field "week_start"], .unknownWeekday⟩]

/-- If no place out of range is found, all places are in range. -/
theorem inSignedRange_of_find? {limit : Int} {ns : List Int}
    (h : (ns.find? fun n => ¬InSignedRange limit n) = none) : ∀ n ∈ ns, InSignedRange limit n := by
  intro n hn
  simpa using List.find?_eq_none.1 h n hn

/-- Checks that all places of a list are within its limit; the first that is not is reported. -/
def checkPlaces (name : String) (limit : Int) (ps : Option (List Int)) :
    Checked { ps : Option (List Int) // ∀ ns ∈ ps, ∀ n ∈ ns, InSignedRange limit n } :=
  match ps with
  | none => .ok ⟨none, forall_mem_none⟩
  | some ns =>
    match h : ns.find? fun n => ¬InSignedRange limit n with
    | none => .ok ⟨some ns, forall_mem_some (inSignedRange_of_find? h)⟩
    | some n => .error [⟨[], .place name limit n⟩]

/-- The last moment of a draft: a reading without a zone is in UTC, parts of a second are cut. -/
def lastMomentOf (r : Option Reading) :
    { m : Option Moment // ∀ x ∈ m, x.wall.time.micro = 0 } :=
  ⟨r.map fun r => r.moment.wholeSecond, by
    intro x hx
    obtain ⟨y, _, rfl⟩ := Option.map_eq_some_iff.1 hx
    simp only [Moment.wholeSecond, TimeOfDay.wholeSecond, TimeOfDay.micro, secondMicros]
    omega⟩

/-- Checks a draft. -/
def check (d : RuleDraft) : Checked Rule :=
  match checkFrequency d.frequency, checkPositive "interval" (d.interval.getD 1),
      checkCount d.count, checkDays d.byDay, checkMonths d.byMonth,
      checkWeekStart d.weekStart with
  | .ok frequency, .ok interval, .ok count, .ok byDay, .ok byMonth, .ok weekStart => do
    let byMonthDay ← checkPlaces "BYMONTHDAY" 31 d.byMonthDay
    let bySetPos ← checkPlaces "BYSETPOS" 366 d.bySetPos
    let lastMoment := lastMomentOf d.lastMoment
    pure {
      frequency := frequency, interval := interval.1, count := count.1,
      lastMoment := lastMoment.1, byDay := byDay, byMonthDay := byMonthDay.1,
      byMonth := byMonth.1, bySetPos := bySetPos.1, weekStart := weekStart,
      exdates := d.exdates, rdates := d.rdates,
      interval_pos := interval.2, count_pos := count.2, lastMoment_whole := lastMoment.2,
      byMonthDay_valid := byMonthDay.2, byMonth_valid := byMonth.2, bySetPos_valid := bySetPos.2 }
  | frequency, interval, count, byDay, byMonth, weekStart =>
    .error (frequency.issues ++ interval.issues ++ count.issues ++ byDay.issues
      ++ byMonth.issues ++ weekStart.issues)

end RuleDraft

end RecurringEvents
