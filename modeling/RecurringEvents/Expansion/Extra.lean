import RecurringEvents.Expansion.Walk

/-!
# Added occurrences

Besides its series a rule may have further occurrences on given dates. A date without a time of day
takes that of the event. They are put in the order of the wall of the event's zone, and of several
at one wall time only the first counts. They do not count towards any limit.

The two ordered lists are then merged. Where both have an occurrence the one of the series comes
first, and an occurrence that starts when the previous one does is dropped.
-/

namespace RecurringEvents

/-- Puts a moment in its place by the wall, unless there is one at the same wall time. -/
def insertByWall (m : Moment) : List Moment → List Moment
  | [] => [m]
  | x :: xs =>
    if m.wall.count < x.wall.count then m :: x :: xs
    else if m.wall.count = x.wall.count then x :: xs
    else x :: insertByWall m xs

namespace Event

/-- The days of a zone that values lie on. -/
def daysIn (zone : Zone) (vs : List TimeValue) : Except CalendarError (List Date) :=
  vs.mapM fun v => v.dayIn zone

/-- The moment of an added occurrence; a date is shown at the wall time of `anchor`. -/
def extraMoment (zone : Zone) (anchor : Wall) (v : TimeValue) : Except CalendarError Moment :=
  match v with
  | .date d => Moment.localize { anchor with date := d } zone
  | .time r => r.moment.inZone zone

/-- Whether an added occurrence is in the window and not on an excluded day. -/
def isExtraShown (window : Window) (excluded : List Date) (m : Moment) : Bool :=
  !excluded.contains m.wall.date && window.start.notAfter m && m.before window.finish

/-- The added occurrences of a rule in a window, in their order. -/
def extraOccurrences (e : Event) (rule : Rule) (zone : Zone) (window : Window) :
    Except ExpansionError (List Occurrence) := do
  let excluded ← lift (daysIn zone rule.excluded)
  let anchor ← lift (e.start.inZone zone)
  let moments ← lift (rule.extras.mapM (extraMoment zone anchor.wall))
  let shown := moments.filter (isExtraShown window excluded)
  (shown.foldl (fun ms m => insertByWall m ms) []).mapM (e.occurrenceAt zone true)

end Event

namespace Run

/-- Merges added occurrences into a run by their starts. When the run fails, those that would come
after the failure are lost. -/
def merge (ending : Ending) : List Occurrence → List Occurrence → List Occurrence
  | [], es => match ending with
    | .finished _ => es
    | .failed _ => []
  | ss, [] => ss
  | s :: ss, e :: es =>
    if e.start.before s.start then e :: merge ending (s :: ss) es
    else s :: merge ending ss (e :: es)
termination_by ss es => ss.length + es.length

/-- Drops each occurrence that starts when the one before it does. -/
def dropRepeats : Option Moment → List Occurrence → List Occurrence
  | _, [] => []
  | last, o :: os =>
    if last.any fun m => o.start.same m then dropRepeats last os
    else o :: dropRepeats (some o.start) os

/-- A run with added occurrences. -/
def withExtras (r : Run) (extras : List Occurrence) : Run :=
  { r with occurrences := dropRepeats none (merge r.ending r.occurrences extras) }

/-- What comes of an expansion that fails before it begins. -/
def ofError (e : ExpansionError) : Run := ⟨[], .failed e⟩

end Run

end RecurringEvents
