import RecurringEvents.Expansion.Extra
import RecurringEvents.Rule.Reader
import RecurringEvents.Zone.Host

/-!
# Expansion of an event

The occurrences of an event in a half-open range of time, in their order. An occurrence that starts
before the range and reaches into it belongs to it. The calendar of the series is that of the zone
that the event names, or of the zone of its start if that name is not known.

* `occurrences`: all that can be had, and how it ended.
* `expand`: the list and whether it was cut short, or the error.
* `take`: only the first ones, as they are had one after the other.
-/

namespace RecurringEvents

/-- The answer to an expansion. -/
structure Expansion where
  occurrences : List Occurrence
  /-- Whether a limit cut the series short. -/
  cutShort : Bool
  deriving Repr, DecidableEq

/-- A range of time and a cap, as they are asked for. -/
structure Query where
  start : Moment
  finish : Moment
  cap : Option Int := none
  deriving Repr, DecidableEq

/-- A range in UTC that is not reversed, and a positive cap. -/
structure CheckedQuery where
  start : Moment
  finish : Moment
  cap : Int
  deriving Repr, DecidableEq

/-- The words for an error of an expansion, if it has any. -/
def ExpansionError.message? : ExpansionError → Option (List Char)
  | capBelowOne cap => some ("max_instances must be at least 1, got ".toList ++ Text.integer cap)
  | reversedRange start finish =>
    some ("Range end ".toList ++ finish.text ++ " is before start ".toList ++ start.text)
  | calendar _ | refused _ => none

namespace Query

/-- Checks a query; the cap is that of the limits if none is asked for. -/
def check (q : Query) (limits : Limits) : Except ExpansionError CheckedQuery := do
  let cap := q.cap.getD limits.maxInstances
  if cap < 1 then throw (.capBelowOne cap)
  let start ← Event.lift q.start.inUtc
  let finish ← Event.lift q.finish.inUtc
  if finish.before start then throw (.reversedRange start finish)
  pure ⟨start, finish, cap⟩

end Query

namespace Event

/-- The zone whose calendar the series follows. -/
def calendarZone [ZoneDatabase] (e : Event) : Zone :=
  match ZoneName.resolve? e.timeZone with
  | some r => .region r
  | none => e.start.zone

/-- The window of starts that a range asks for: it begins earlier by the length of the event. -/
def windowOf (e : Event) (q : CheckedQuery) : Except ExpansionError Window := do
  let duration ← lift e.duration
  let start ← lift (q.start.add (-duration))
  pure ⟨start, q.finish⟩

/-- The walk through the series of an event with a rule. -/
def walk [ZoneDatabase] (e : Event) (rule : Rule) (limits : Limits) (q : CheckedQuery) :
    Except ExpansionError Walk := do
  let zone := e.calendarZone
  let anchor ← lift (e.start.inZone zone)
  let excluded ← lift (daysIn zone rule.excluded)
  let window ← e.windowOf q
  pure {
    event := e
    series := { rule := rule, anchor := anchor.wall, maxEmptyPeriods := limits.maxEmptyPeriods }
    zone := zone, window := window, excluded := excluded, cap := q.cap
    maxIterations := limits.maxIterations }

/-- The run through the series. -/
def seriesRun [ZoneDatabase] (e : Event) (rule : Rule) (limits : Limits) (q : CheckedQuery) : Run :=
  match e.walk rule limits q with
  | .ok w => w.run
  | .error err => .ofError err

/-- The occurrences of an event without a rule: itself, if it overlaps the range. -/
def singleRun [ZoneDatabase] (e : Event) (q : CheckedQuery) : Run :=
  if e.start.before q.finish && q.start.before e.finish then
    match e.occurrenceAt e.calendarZone false e.start with
    | .ok o => ⟨[o], .finished false⟩
    | .error err => .ofError err
  else ⟨[], .finished false⟩

/-- The added occurrences in a range. -/
def extrasIn [ZoneDatabase] (e : Event) (rule : Rule) (q : CheckedQuery) :
    Except ExpansionError (List Occurrence) := do
  let window ← e.windowOf q
  e.extraOccurrences rule e.calendarZone window

/-- The occurrences of an event in a range. Added ones are made before the series is walked. -/
def occurrences [ZoneDatabase] (e : Event) (limits : Limits) (q : CheckedQuery) : Run :=
  match e.rule with
  | none => e.singleRun q
  | some rule =>
    if rule.extras = [] then e.seriesRun rule limits q
    else match e.extrasIn rule q with
      | .error err => .ofError err
      | .ok extras => (e.seriesRun rule limits q).withExtras extras

/-- The occurrences of an event in a range, and whether a limit cut them short. -/
def expand [ZoneDatabase] (e : Event) (limits : Limits) (q : Query) :
    Except ExpansionError Expansion := do
  let q ← q.check limits
  let run := e.occurrences limits q
  match run.ending with
  | .finished cutShort => pure ⟨run.occurrences, cutShort⟩
  | .failed err => throw err

/-- How far a list was read that is had one after the other. -/
inductive Reach where
  /-- There may be more. -/
  | more
  | done
  | failed (e : ExpansionError)
  deriving Repr, DecidableEq

/-- The occurrences of an event in a range as far as the first `n` of them. A rule without added
occurrences is walked by no further than that. -/
def firstOccurrences [ZoneDatabase] (e : Event) (limits : Limits) (q : CheckedQuery) (n : Nat) :
    Run :=
  match e.rule with
  | none => e.occurrences limits q
  | some rule =>
    if rule.extras = [] then
      match e.walk rule limits q with
      | .ok w => w.first n
      | .error err => .ofError err
    else e.occurrences limits q

/-- The first `n` occurrences, and what came of asking for them. -/
def take [ZoneDatabase] (e : Event) (limits : Limits) (q : Query) (n : Nat) :
    Except ExpansionError (List Occurrence × Reach) := do
  let q ← q.check limits
  let run := e.firstOccurrences limits q n
  let reach := match run.ending with
    | .finished _ => Reach.done
    | .failed err => .failed err
  pure (run.occurrences.take n, if n ≤ run.occurrences.length then .more else reach)

/-- Reading no further than needed does not change the first occurrences. -/
theorem take_firstOccurrences [ZoneDatabase] (e : Event) (limits : Limits) (q : CheckedQuery)
    (n : Nat) :
    (e.firstOccurrences limits q n).occurrences.take n
      = (e.occurrences limits q).occurrences.take n := by
  unfold firstOccurrences
  split
  · rfl
  · next rule hr =>
    split
    · next hx =>
      simp only [occurrences, hr, hx, if_true, seriesRun]
      split
      · exact Walk.take_first _ n
      · rfl
    · rfl

/-- The event with a rule that is read from a text; a text that is no rule leaves it without one.
Excluded days that are given replace those of the rule. -/
def withRuleText (e : Event) (zone : Zone) (text : Option String) (excluded : List TimeValue) :
    Event :=
  let rule := text.bind fun t => Rule.read? zone t.toList
  e.withRule (rule.map fun r => if excluded = [] then r else { r with exdates := some excluded })

end Event

end RecurringEvents
