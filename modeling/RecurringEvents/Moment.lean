import RecurringEvents.Zone.Region

/-!
# Moments

A moment is a wall time in a zone. It has an offset from UTC and denotes an instant, which is a
number of microseconds from the start of 1970 in UTC.

Two moments of one zone are compared by their wall times, and the pass of a repeated hour does not
count. Moments of different zones are compared as instants, but they are never equal if the offset
of either depends on the pass.

Changing the zone goes through UTC, where the instant has to lie in the years 1 to 9999, and so has
the wall time in the new zone. Only a moment of UTC or of a region is left as it is when it is asked
for in its own zone.

* `before_eq_not_notAfter`: the order of two moments is decided one way or the other.
-/

namespace RecurringEvents

/-- Where a wall time is observed: at a fixed offset from UTC in seconds, or in a region. -/
inductive Zone where
  | fixed (offset : Int)
  | region (r : Region)
  deriving Repr, DecidableEq

/-- A wall time and the zone it is observed in. -/
structure Moment where
  wall : Wall
  zone : Zone
  deriving Repr, DecidableEq

/-- A wall time with or without the zone it is observed in. -/
structure Reading where
  wall : Wall
  zone : Option Zone := none
  deriving Repr, DecidableEq

/-- A date, or a reading of calendar and clock. -/
inductive TimeValue where
  | date (d : Date)
  | time (r : Reading)
  deriving Repr, DecidableEq

namespace Zone

/-- The zone at offset 0 that belongs to no region. -/
def utc : Zone := fixed 0

/-- Whether a zone is one of a kind, as UTC and regions are. Other offsets are made anew each
time. -/
def isUnique : Zone → Bool
  | fixed o => o = 0
  | region _ => true

/-- The offset that a wall time is read with, in seconds. -/
def offsetOf (z : Zone) (w : Wall) : Int :=
  match z with
  | fixed o => o
  | region r => (r.localType w.pass w.date.year w.seconds).offset

/-- The wall time of a zone at an instant, given as the wall time of UTC. -/
def wallOf? (z : Zone) (u : Wall) : Option Wall :=
  match z with
  | fixed o => Wall.ofCount? (u.count + o * secondMicros)
  | region r =>
    let (type, pass) := r.typeAt u.date.year u.seconds
    (Wall.ofCount? (u.count + type.offset * secondMicros)).map fun w => { w with pass := pass }

/-- The moment of a zone at an instant. -/
def atInstant (z : Zone) (t : Int) : Except CalendarError Moment :=
  match (Wall.ofCount? t).bind z.wallOf? with
  | some w => .ok ⟨w, z⟩
  | none => .error .outOfRange

end Zone

namespace Moment

/-- The offset from UTC in seconds. -/
def offset (m : Moment) : Int := m.zone.offsetOf m.wall

/-- The instant in microseconds; 1970 begins at 0. -/
def instant (m : Moment) : Int := m.wall.count - m.offset * secondMicros

/-- The moment at the same instant in a zone. -/
def inZone (m : Moment) (z : Zone) : Except CalendarError Moment :=
  if m.zone = z ∧ z.isUnique then .ok m else z.atInstant m.instant

/-- The moment at the same instant in UTC. -/
def inUtc (m : Moment) : Except CalendarError Moment := m.inZone .utc

/-- A wall time in UTC. -/
def ofUtc (w : Wall) : Moment := ⟨w, .utc⟩

/-- What a comparison of two moments looks at: the wall times if the zones are the same, else the
instants. -/
def places (a b : Moment) : Int × Int :=
  if a.zone = b.zone then (a.wall.count, b.wall.count) else (a.instant, b.instant)

/-- Whether one moment is before another. -/
def before (a b : Moment) : Bool := (places a b).1 < (places a b).2

/-- Whether one moment is not after another. -/
def notAfter (a b : Moment) : Bool := (places a b).1 ≤ (places a b).2

/-- Whether the offset is different in the other pass. -/
def dependsOnPass (m : Moment) : Bool :=
  m.zone.offsetOf { m.wall with pass := m.wall.pass.other } ≠ m.offset

/-- Equality of moments: no two zones agree on a time of which either is in doubt. -/
def same (a b : Moment) : Bool :=
  if a.zone = b.zone then a.wall.count == b.wall.count
  else a.instant == b.instant && !a.dependsOnPass && !b.dependsOnPass

/-- Moves the wall time; the zone stays. -/
def add (m : Moment) (micros : Int) : Except CalendarError Moment :=
  match m.wall.add? micros with
  | some w => .ok ⟨w, m.zone⟩
  | none => .error .outOfRange

/-- The microseconds that elapse from one moment to another. Both need a representation in UTC. -/
def elapsed (a b : Moment) : Except CalendarError Int := do
  let b ← b.inUtc
  let a ← a.inUtc
  pure (b.instant - a.instant)

/-- The whole milliseconds since 1970 began, rounded down. -/
def epochMillis (m : Moment) : Int := m.instant / 1000

/-- The moment without its part of a second. -/
def wholeSecond (m : Moment) : Moment :=
  { m with wall := { m.wall with time := m.wall.time.wholeSecond } }

/--
Reads a wall time in a zone. A time that the zone skips moves forward by the gap: it is read with
the offset before the gap and shown with the one after it.
-/
def localize (w : Wall) (z : Zone) : Except CalendarError Moment := do
  let u ← Moment.inUtc ⟨w, z⟩
  u.inZone z

end Moment

/-- A reading without a zone is in UTC. -/
def Reading.moment (r : Reading) : Moment := ⟨r.wall, r.zone.getD .utc⟩

/-- The calendar day of a value as it is observed in a zone; a date is its own day everywhere. -/
def TimeValue.dayIn (v : TimeValue) (z : Zone) : Except CalendarError Date :=
  match v with
  | .date d => .ok d
  | .time r => do
    let m ← r.moment.inZone z
    pure m.wall.date

namespace Moment

/-! ## Text -/

/-- An offset as `+HH:MM`, with `:SS` if it has seconds. -/
def offsetText (seconds : Int) : List Char :=
  let n := seconds.natAbs
  (if seconds < 0 then '-' else '+') :: Text.padded 2 (n / 3600)
    ++ ':' :: Text.padded 2 (n / 60 % 60)
    ++ (if n % 60 = 0 then [] else ':' :: Text.padded 2 (n % 60))

/-- The wall time followed by the offset. -/
def text (m : Moment) : List Char := m.wall.text ++ offsetText m.offset

/-! ## Lemmas -/

/-- Of two moments one is before the other, or the other is not after it. -/
theorem before_eq_not_notAfter (a b : Moment) : before a b = !notAfter b a := by
  unfold before notAfter places
  by_cases h : a.zone = b.zone
  · simp only [h, if_true, ← decide_not, decide_eq_decide]; omega
  · simp only [h, Ne.symm h, if_false, ← decide_not, decide_eq_decide]; omega

@[simp] theorem instant_ofUtc (w : Wall) : (ofUtc w).instant = w.count := by
  show w.count - 0 * secondMicros = w.count
  omega

theorem inZone_self {m : Moment} (h : m.zone.isUnique) : m.inZone m.zone = .ok m :=
  if_pos ⟨rfl, h⟩

/-- A moment of UTC is already in UTC. -/
@[simp] theorem inUtc_ofUtc (w : Wall) : (ofUtc w).inUtc = .ok (ofUtc w) := inZone_self rfl

end Moment

end RecurringEvents
