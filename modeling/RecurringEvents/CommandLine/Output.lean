import RecurringEvents.Expansion.Query
import RecurringEvents.Text.Json

/-!
# Rules and occurrences as JSON

The members stand in a fixed order, and those without a value are left out. Rules are those of rule
texts, which have neither excluded nor added days.
-/

namespace RecurringEvents

/-- A text as JSON. -/
def jsonText (s : String) : JsonValue := .text s.toList

/-- A moment as JSON. -/
def Moment.toJson (m : Moment) : JsonValue := .text m.text

/-- Numbers as JSON. -/
def jsonNumbers (ns : List Int) : JsonValue := .array (ns.map .number)

/-- A weekday with its position as JSON. -/
def DayEntry.toJson (e : DayEntry) : JsonValue :=
  .object (("day", jsonText e.day.code)
    :: JsonValue.member? "position" (e.position.map .number))

/-- A rule as JSON. -/
def Rule.toJson (r : Rule) : JsonValue :=
  .object ([("frequency", jsonText r.frequency.word), ("interval", .number r.interval)]
    ++ JsonValue.member? "count" (r.count.map .number)
    ++ JsonValue.member? "until" (r.lastMoment.map Moment.toJson)
    ++ JsonValue.member? "by_day" (r.byDay.map fun es => .array (es.map DayEntry.toJson))
    ++ JsonValue.member? "by_month_day" (r.byMonthDay.map jsonNumbers)
    ++ JsonValue.member? "by_month" (r.byMonth.map jsonNumbers)
    ++ JsonValue.member? "by_set_pos" (r.bySetPos.map jsonNumbers)
    ++ JsonValue.member? "week_start" (r.weekStart.map fun d => jsonText d.code))

/-- An occurrence as JSON. -/
def Occurrence.toJson (o : Occurrence) : JsonValue :=
  .object ([("id", jsonText o.id), ("title", jsonText o.title), ("start", o.start.toJson),
      ("end", o.finish.toJson), ("time_zone", jsonText o.timeZone)]
    ++ JsonValue.member? "recurrence" (o.rule.map Rule.toJson)
    ++ JsonValue.member? "location" (o.location.map jsonText)
    ++ JsonValue.member? "description" (o.description.map jsonText)
    ++ [("is_recurrence_instance", .bool o.recurring),
      ("instance_date", o.instanceDate.toJson)]
    ++ JsonValue.member? "master_event_id" (o.masterId.map jsonText))

/-- The answer to an expansion as JSON. -/
def Expansion.toJson (x : Expansion) : JsonValue :=
  .object [("instances", .array (x.occurrences.map Occurrence.toJson)),
    ("truncated", .bool x.cutShort)]

end RecurringEvents
