import RecurringEvents.Moment.Token
import RecurringEvents.Rule.Basic
import RecurringEvents.Rule.Fields

/-!
# Writing rules

The text of a rule: its fields in a fixed order, each as `KEY=value`, with semicolons between them
and, on request, the word `RRULE:` before them. An interval of 1 and empty lists are left out. The
last moment is written as a token of UTC. Excluded and added occurrences are never written.
-/

namespace RecurringEvents

open Text

/-- A weekday with its position before it. -/
def DayEntry.text (e : DayEntry) : List Char :=
  (match e.position with
    | some n => integer n
    | none => []) ++ e.day.code.toList

namespace Rule

/-- A list with commas. -/
def commaList (items : List (List Char)) : List Char := join [','] items

/-- A field as a list of none or one. -/
def fieldUnless (absent : Bool) (key : String) (value : List Char) : Fields :=
  if absent then [] else [(key.toList, value)]

/-- The frequency as it is written. -/
def frequencyText (f : Frequency) : List Char := upper f.word.toList

/-- The fields of a rule, given the text of its last moment. -/
def fields (r : Rule) (lastMoment : Option (List Char)) : Fields :=
  fieldUnless false "FREQ" (frequencyText r.frequency)
    ++ fieldUnless (r.interval = 1) "INTERVAL" (integer r.interval)
    ++ fieldUnless r.count.isNone "COUNT" (integer (r.count.getD 0))
    ++ fieldUnless lastMoment.isNone "UNTIL" (lastMoment.getD [])
    ++ fieldUnless r.days.isEmpty "BYDAY" (commaList (r.days.map DayEntry.text))
    ++ fieldUnless r.monthDays.isEmpty "BYMONTHDAY" (commaList (r.monthDays.map integer))
    ++ fieldUnless r.months.isEmpty "BYMONTH" (commaList (r.months.map integer))
    ++ fieldUnless r.setPositions.isEmpty "BYSETPOS" (commaList (r.setPositions.map integer))
    ++ fieldUnless r.weekStart.isNone "WKST"
      ((r.weekStart.map fun d => d.code.toList).getD [])

/-- Fields as one text. -/
def fieldsText (fs : Fields) : List Char := join [';'] (fs.map fun f => f.1 ++ '=' :: f.2)

/-- The text of a rule, with or without the word before its fields. -/
def text (r : Rule) (marked : Bool := true) : Except CalendarError (List Char) := do
  let lastMoment ← r.lastMoment.mapM Token.write
  pure ((if marked then Fields.mark else []) ++ fieldsText (r.fields lastMoment))

end Rule

end RecurringEvents
