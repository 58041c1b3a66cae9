import RecurringEvents.Event
import RecurringEvents.Expansion.Cursor
import RecurringEvents.Expansion.Limits

/-!
# The walk through a series

A walk moves the cursor of a series and collects the occurrences that overlap a window. Every
cursor that passes the filters of the rule counts towards the count of the rule and the cap, also
if it lies before the window or on an excluded day. A walk ends

* finished, when the cursor is gone, after the last moment, at the end of the window, or when the
  count of the rule is used up;
* cut short, when the cap is used up or the cursor has made all its steps;
* failed, when an occurrence cannot be made.

What was collected before the end is kept in any case. A walk of which only the first occurrences
are wanted stops as soon as it has them.

* `take_first`: stopping early does not change the occurrences that are wanted.
-/

namespace RecurringEvents

/-- Why an expansion gives no list of occurrences. -/
inductive ExpansionError where
  | capBelowOne (cap : Int)
  | reversedRange (start finish : Moment)
  | calendar (e : CalendarError)
  /-- An occurrence does not end after its start. -/
  | refused (issues : List Issue)
  deriving Repr, DecidableEq

/-- How a walk ends. -/
inductive Ending where
  | finished (cutShort : Bool)
  | failed (e : ExpansionError)
  deriving Repr, DecidableEq

/-- The occurrences that were collected, and how it ended. -/
structure Run where
  occurrences : List Occurrence
  ending : Ending
  deriving Repr, DecidableEq

/-- The part of time that is looked at: from `start`, before `finish`. -/
structure Window where
  start : Moment
  finish : Moment
  deriving Repr, DecidableEq

namespace Event

/-- A calendar error as an error of an expansion. -/
def lift {α : Type} : Except CalendarError α → Except ExpansionError α
  | .ok a => .ok a
  | .error e => .error (.calendar e)

/--
The occurrence of an event that starts at a moment. It lasts as long as the event, in elapsed time,
and ends in the zone `zone`.
-/
def occurrenceAt (e : Event) (zone : Zone) (recurring : Bool) (start : Moment) :
    Except ExpansionError Occurrence := do
  let u ← lift start.inUtc
  let duration ← lift e.duration
  let v ← lift (u.add duration)
  let finish ← lift (v.inZone zone)
  if h : Moment.notAfter finish start = false then
    pure { e with
      id := if recurring then occurrenceId e.id start else e.id
      start := start, finish := finish, finish_after_start := h, recurring := recurring,
      instanceDate := start, masterId := if recurring then some e.id else none }
  else throw (.refused [Event.endIssue])

end Event

/-- What a walk depends on. -/
structure Walk where
  event : Event
  series : Series
  zone : Zone
  window : Window
  /-- The days of the zone on which there is no occurrence. -/
  excluded : List Date
  cap : Int
  maxIterations : Int
  deriving Repr, DecidableEq

/-- How far a walk has come. -/
structure Progress where
  cursor : Option Wall
  /-- How many cursors have passed the filters. -/
  budget : Nat := 0
  /-- How many cursors have been looked at. -/
  steps : Nat := 0
  /-- The occurrences so far, the latest first. -/
  collected : List Occurrence := []
  deriving Repr, DecidableEq

/-- One move of a walk: to the next cursor, or to the end. -/
inductive Move where
  | next (p : Progress)
  | stop (ending : Ending)
  deriving Repr, DecidableEq

namespace Walk

/-- The rule that is walked by. -/
def rule (w : Walk) : Rule := w.series.rule

/-- Whether a walk stops at a cursor that is shown as `start`, and how. -/
def stops? (w : Walk) (p : Progress) (start : Moment) : Option Ending :=
  if w.rule.lastMoment.any fun m => m.before start then some (.finished false)
  else if !start.before w.window.finish then some (.finished false)
  else if w.rule.count.any fun n => n ≤ (p.budget : Int) then some (.finished false)
  else if w.cap ≤ p.budget then some (.finished true)
  else if w.maxIterations ≤ p.steps then some (.finished true)
  else none

/-- Whether the occurrence of a cursor is collected. -/
def isShown (w : Walk) (cursor : Wall) (start : Moment) : Bool :=
  !w.excluded.contains cursor.date && w.window.start.notAfter start

/-- Looks at the cursor and moves it. -/
def move (w : Walk) (p : Progress) : Move :=
  match p.cursor with
  | none => .stop (.finished false)
  | some cursor =>
    match Moment.localize cursor w.zone with
    | .error e => .stop (.failed (.calendar e))
    | .ok start =>
      match w.stops? p start with
      | some ending => .stop ending
      | none =>
        if !w.rule.passes cursor then
          .next { p with cursor := w.series.step cursor, steps := p.steps + 1 }
        else if !w.isShown cursor start then
          .next { p with
            cursor := w.series.step cursor, steps := p.steps + 1, budget := p.budget + 1 }
        else match w.event.occurrenceAt w.zone true start with
          | .error e => .stop (.failed e)
          | .ok o => .next {
              cursor := w.series.step cursor, steps := p.steps + 1, budget := p.budget + 1,
              collected := o :: p.collected }

/-- Moves until the end, `n` times at most. -/
def runFrom (w : Walk) : Nat → Progress → Run
  | 0, p => ⟨p.collected.reverse, .finished true⟩
  | n + 1, p => match w.move p with
    | .stop ending => ⟨p.collected.reverse, ending⟩
    | .next p => w.runFrom n p

/-- The whole walk. After `maxIterations` steps the next move stops it. -/
def run (w : Walk) : Run :=
  w.runFrom (w.maxIterations.toNat + 1) { cursor := w.series.firstCursor }

/-- Moves until `wanted` occurrences are collected or the walk ends, `n` times at most. -/
def firstFrom (w : Walk) (wanted : Nat) : Nat → Progress → Run
  | 0, p => ⟨p.collected.reverse, .finished true⟩
  | n + 1, p =>
    if wanted ≤ p.collected.length then ⟨p.collected.reverse, .finished true⟩
    else match w.move p with
      | .stop ending => ⟨p.collected.reverse, ending⟩
      | .next p => w.firstFrom wanted n p

/-- The walk as far as its first `wanted` occurrences. -/
def first (w : Walk) (wanted : Nat) : Run :=
  w.firstFrom wanted (w.maxIterations.toNat + 1) { cursor := w.series.firstCursor }

/-! ## What is collected -/

/-- A move keeps what was collected before. -/
theorem collected_suffix_of_move {w : Walk} {p q : Progress} (h : w.move p = .next q) :
    p.collected <:+ q.collected := by
  unfold move at h
  split at h
  · cases h
  · split at h
    · cases h
    · split at h
      · cases h
      · split at h
        · cases h
          exact List.suffix_refl _
        · split at h
          · cases h
            exact List.suffix_refl _
          · split at h
            · cases h
            · cases h
              exact List.suffix_cons _ _

/-- A run begins with what was collected before it. -/
theorem collected_prefix_runFrom (w : Walk) (n : Nat) (p : Progress) :
    p.collected.reverse <+: (w.runFrom n p).occurrences := by
  induction n generalizing p with
  | zero => exact List.prefix_refl _
  | succ n ih =>
    unfold runFrom
    split
    · exact List.prefix_refl _
    · next q hq =>
      exact (collected_suffix_of_move hq).reverse.trans (ih q)

theorem take_firstFrom (w : Walk) (wanted n : Nat) (p : Progress) :
    (w.firstFrom wanted n p).occurrences.take wanted
      = (w.runFrom n p).occurrences.take wanted := by
  induction n generalizing p with
  | zero => rfl
  | succ n ih =>
    unfold firstFrom
    split
    · next hk =>
      obtain ⟨later, hl⟩ := collected_prefix_runFrom w (n + 1) p
      rw [← hl, List.take_append_of_le_length (by simpa using hk)]
    · unfold runFrom
      split
      · rfl
      · exact ih _

/-- Stopping early does not change the occurrences that are wanted. -/
theorem take_first (w : Walk) (wanted : Nat) :
    (w.first wanted).occurrences.take wanted = w.run.occurrences.take wanted :=
  take_firstFrom w wanted _ _

end Walk

end RecurringEvents
