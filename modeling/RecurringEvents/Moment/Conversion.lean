import RecurringEvents.Iso.Clock
import RecurringEvents.Moment.Layout
import RecurringEvents.Zone.Host

/-!
# Conversion between instants and wall clocks

Conversion to and from the wall clock of a named region. A name that is not known stands for the
region of the host.
-/

namespace RecurringEvents

namespace Host

/-- The zone that a text names, or else the host's. -/
def zoneOr [ZoneDatabase] (h : Host) (env : Environment) (name : Option String) : Zone :=
  .region (h.regionOr env name)

/-- A reading in the zone that `name` names. If the reading has no zone, it is taken in the zone
that `source` names, or in UTC if no source is given. -/
def convert [ZoneDatabase] (h : Host) (env : Environment) (r : Reading)
    (name source : Option String) : Except CalendarError Moment :=
  let zone := r.zone.getD (((given? source).map fun s => h.zoneOr env (some s)).getD .utc)
  Moment.inZone ⟨r.wall, zone⟩ (h.zoneOr env name)

/-- The instant, in UTC, at which the clock of a zone shows a date and a time. A text that is no
date or no time is an invalid date. -/
def instantOfWallClock [ZoneDatabase] (h : Host) (env : Environment) (date time : String)
    (name : Option String) : Except CalendarError Moment :=
  match Iso.day? (Text.trim date.toList), Iso.clock? (Text.trim time.toList) with
  | some d, some t => Moment.inUtc ⟨⟨d, t, .first⟩, h.zoneOr env name⟩
  | _, _ => .error .invalidDate

/-- The date and the minute that the clock of a zone shows. The year has no leading zeros. -/
def wallClockOfInstant [ZoneDatabase] (h : Host) (env : Environment) (m : Moment)
    (name : Option String) : Except CalendarError (List Char × List Char) := do
  let w := (← m.inZone (h.zoneOr env name)).wall
  pure (Text.decimal w.date.year.toNat ++ '-' :: Text.padded 2 w.date.month.toNat
      ++ '-' :: Text.padded 2 w.date.day.toNat, Wall.minuteText w.time)

/-- The wall clock of a zone in a layout. -/
def layoutInZone [ZoneDatabase] (h : Host) (env : Environment) (m : Moment) (layout : String)
    (name : Option String) : Except CalendarError (List Char) := do
  let shown ← m.inZone (h.zoneOr env name)
  pure (Layout.render layout.toList shown.wall)

end Host

end RecurringEvents
