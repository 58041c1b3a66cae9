import RecurringEvents.Rule.Basic
import RecurringEvents.Text.Ordinal
import RecurringEvents.Text.Split

/-!
# Rules in English

A rule as a short phrase: how often, in which months, on which days, and how long. A count is
mentioned rather than a last moment. The date of a last moment is the one in a zone that the caller
gives.
-/

namespace RecurringEvents

open Text

/-- The English name of a month. -/
def monthName (month : Int) : String :=
  ["January", "February", "March", "April", "May", "June", "July", "August", "September",
    "October", "November", "December"].getD (month - 1).toNat ""

namespace Rule

/-- Whether two lists name the same weekdays. -/
def sameDays (a b : List Weekday) : Bool := Weekday.all.all fun d => a.contains d == b.contains d

/-- The weekdays of entries, without their positions. -/
def weekdaysOf (es : List DayEntry) : List Weekday := es.map DayEntry.day

/-- Weekdays as a set: in their order, and with words for the working days and the weekend. -/
def plainDaysPhrase (ds : List Weekday) : List Char :=
  if sameDays ds Weekday.workdays then "weekdays".toList
  else if sameDays ds Weekday.weekend then "weekends".toList
  else match Weekday.all.filter ds.contains with
    | [d] => d.label.toList
    | ordered => join ", ".toList (ordered.map fun d => d.shortLabel.toList)

/-- One of several weekdays. -/
def oneDayPhrase (ds : List Weekday) : List Char :=
  if sameDays ds Weekday.workdays then "weekday".toList
  else if sameDays ds Weekday.weekend then "weekend day".toList
  else "of ".toList ++ plainDaysPhrase ds

/-- A weekday with its position, or every such day. -/
def dayEntryPhrase (e : DayEntry) : List Char :=
  match e.position with
  | some n => "the ".toList ++ ordinalWord n ++ ' ' :: e.day.label.toList
  | none => "every ".toList ++ e.day.label.toList

/-- The weekdays of a rule that lists some. -/
def daysPhrase (r : Rule) : List Char :=
  if r.hasPositions then "on ".toList ++ enumeration (r.days.map dayEntryPhrase)
  else if r.setPositions = [] then "on ".toList ++ plainDaysPhrase (weekdaysOf r.days)
  else "on the ".toList ++ enumeration (r.setPositions.map ordinalWord)
    ++ ' ' :: oneDayPhrase (weekdaysOf r.days)

/-- A day of the month, counted from the front or the back. -/
def monthDayPhrase (n : Int) : List Char :=
  if n = -1 then "last day".toList
  else if n < 0 then ordinalWord n ++ " day".toList
  else ordinalWord n

/-- How often: the frequency, or the length of the interval. -/
def periodPhrase (r : Rule) : List Char :=
  if r.interval = 1 then r.frequency.label.toList
  else "Every ".toList ++ integer r.interval ++ ' ' :: r.frequency.unit.toList ++ ['s']

/-- How many occurrences. -/
def countPhrase (n : Int) : List Char :=
  "for ".toList ++ integer n ++ (if n = 1 then " occurrence" else " occurrences").toList

/-- Up to which date. -/
def lastDatePhrase (d : Date) : List Char :=
  "until ".toList ++ (monthName d.month).toList.take 3 ++ ' ' :: integer d.day
    ++ ", ".toList ++ integer d.year

/-- How long, if the rule says so. -/
def endPhrase (r : Rule) (zone : Zone) : Except CalendarError (List (List Char)) :=
  match r.count, r.lastMoment with
  | some n, _ => .ok [countPhrase n]
  | none, some m => do
    let shown ← m.inZone zone
    pure [lastDatePhrase shown.wall.date]
  | none, none => .ok []

/-- A phrase as a list of one, unless what it speaks of is absent. -/
def phraseUnless (absent : Bool) (phrase : List Char) : List (List Char) :=
  if absent then [] else [phrase]

/-- A rule in English; dates are those of a zone. -/
def describe (r : Rule) (zone : Zone) : Except CalendarError (List Char) := do
  let ending ← r.endPhrase zone
  pure (join [' '] ([r.periodPhrase]
    ++ phraseUnless r.months.isEmpty
      ("in ".toList ++ enumeration (r.months.map fun m => (monthName m).toList))
    ++ phraseUnless r.monthDays.isEmpty
      ("on the ".toList ++ enumeration (r.monthDays.map monthDayPhrase))
    ++ phraseUnless r.days.isEmpty r.daysPhrase
    ++ ending))

/-! ## Rules to choose from -/

/-- Rules that are offered for choice; the first choice is not to repeat. -/
def presets : List (String × Option Rule) :=
  [("Does not repeat", none),
   ("Daily", some (every .daily)),
   ("Weekly", some (every .weekly)),
   ("Monthly", some (every .monthly)),
   ("Yearly", some (every .yearly)),
   ("Every weekday", some {
      every .weekly with byDay := some (Weekday.workdays.map fun d => { day := d }) })]

end Rule

end RecurringEvents
