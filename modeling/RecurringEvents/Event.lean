import RecurringEvents.Rule.Draft

/-!
# Events

An event has a start and an end, and it may recur by a rule, whose calendar is that of the event's
time zone. The end is after the start, as moments are compared: by the wall if both are in one zone,
by the instant if not.

An occurrence is an event that is not kept but made anew for every query, and knows where it comes
from.

* `check_eq_ok_iff`: a draft of an event is accepted exactly if its end is after its start.
-/

namespace RecurringEvents

/-- A calendar event. -/
structure Event where
  id : String
  title : String := ""
  start : Moment
  finish : Moment
  /-- The name of the zone whose calendar the rule follows. -/
  timeZone : String := "UTC"
  rule : Option Rule := none
  location : Option String := none
  description : Option String := none
  finish_after_start : Moment.notAfter finish start = false
  deriving Repr, DecidableEq

/-- One occurrence of an event. -/
structure Occurrence extends Event where
  /-- Whether it comes from a rule. -/
  recurring : Bool := true
  instanceDate : Moment
  /-- The identifier of the event that recurs. -/
  masterId : Option String := none
  deriving Repr, DecidableEq

/-- The fields of an event before they are checked. -/
structure EventDraft where
  id : String
  title : String := ""
  start : Option Reading := none
  finish : Option Reading := none
  timeZone : String := "UTC"
  rule : Option Rule := none
  location : Option String := none
  description : Option String := none
  deriving Repr, DecidableEq

namespace Event

/-- What is wrong with an event that does not end after its start. -/
def endIssue : Issue := ⟨[], .endNotAfterStart⟩

/-- The fields that a draft lacks. -/
def missingFields (d : EventDraft) : List Issue :=
  (if d.start.isNone then [⟨[.field "start"], .missing⟩] else [])
    ++ (if d.finish.isNone then [⟨[.field "end"], .missing⟩] else [])

/-- Checks a draft. A reading without a zone is in UTC. -/
def check (d : EventDraft) : Checked Event :=
  match d.start, d.finish with
  | some start, some finish =>
    if h : Moment.notAfter finish.moment start.moment = false then
      .ok {
        id := d.id, title := d.title, start := start.moment, finish := finish.moment,
        timeZone := d.timeZone, rule := d.rule, location := d.location,
        description := d.description, finish_after_start := h }
    else .error [endIssue]
  | _, _ => .error (missingFields d)

/-- The microseconds that elapse from start to end. -/
def duration (e : Event) : Except CalendarError Int := Moment.elapsed e.start e.finish

/-- The event with another rule. -/
def withRule (e : Event) (rule : Option Rule) : Event := { e with rule := rule }

/-- A draft with both times is accepted exactly if its end is after its start. -/
theorem check_eq_ok_iff {d : EventDraft} {start finish : Reading} (hs : d.start = some start)
    (hf : d.finish = some finish) :
    (∃ e, check d = .ok e) ↔ Moment.before start.moment finish.moment = true := by
  rw [Moment.before_eq_not_notAfter]
  unfold check
  rw [hs, hf]
  by_cases h : Moment.notAfter finish.moment start.moment = false
  · simp [h]
  · simp [h]

end Event

/-- The whole milliseconds of the start after the identifier of the master. -/
def occurrenceId (masterId : String) (start : Moment) : String :=
  masterId ++ "_" ++ String.ofList (Text.integer start.epochMillis)

end RecurringEvents
