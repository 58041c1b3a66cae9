import RecurringEvents.Expansion.Heap
import RecurringEvents.Expansion.Query

/-!
# Expansion of many events

The occurrences of many events in one list. Each event is expanded for itself, and one that cannot
be expanded contributes nothing. Their lists are merged: a heap holds the lists by their first
starts, lists with equal starts by their order, and always gives up the first occurrence of the list
in front.
-/

namespace RecurringEvents

/-- What is left of the list of one event. -/
structure Stream where
  /-- The place of the event among the events that can be expanded. -/
  order : Nat
  head : Occurrence
  tail : List Occurrence
  deriving Repr, DecidableEq

namespace Stream

/-- Whether one list is to be taken from before another. -/
def less (a b : Stream) : Bool :=
  if a.head.start.same b.head.start then a.order < b.order
  else a.head.start.before b.head.start

/-- The lists that are not empty, with their places. -/
def ofLists (lists : List (List Occurrence)) : List Stream :=
  lists.zipIdx.filterMap fun l => match l.1 with
    | [] => none
    | o :: os => some ⟨l.2, o, os⟩

/-- Takes `n` occurrences at most from a heap of lists. -/
def drain : Nat → Array Stream → List Occurrence
  | 0, _ => []
  | n + 1, h =>
    match h[0]? with
    | none => []
    | some s => s.head :: drain n (match s.tail with
      | [] => Heap.dropFirst less h
      | o :: os => Heap.replaceFirst less h { s with head := o, tail := os })

/-- The lists merged into one. -/
def merge (lists : List (List Occurrence)) : List Occurrence :=
  drain lists.flatten.length (Heap.ofArray less (ofLists lists).toArray)

end Stream

namespace Event

/-- The occurrences of an event in a range, if it can be expanded. -/
def expand? [ZoneDatabase] (e : Event) (limits : Limits) (q : Query) : Option (List Occurrence) :=
  match e.expand limits q with
  | .ok x => some x.occurrences
  | .error _ => none

/-- The occurrences of many events in a range. A record that is no event is `none`. -/
def expandAll [ZoneDatabase] (events : List (Option Event)) (limits : Limits) (q : Query) :
    List Occurrence :=
  Stream.merge (events.filterMap fun e => e.bind fun e => e.expand? limits q)

end Event

end RecurringEvents
