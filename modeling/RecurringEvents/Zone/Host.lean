import RecurringEvents.Settings.Environment
import RecurringEvents.Text.Split
import RecurringEvents.Zone.Database

/-!
# The zone of the host

The host is asked in this order: the variable `TZ`, the link to the zone file of the host, and the
abbreviation that its clock goes by. What cannot be told is UTC; in particular, a link into the
zone database that leads to no known region is not followed by a further question.

A configured default comes before the host.
-/

namespace RecurringEvents

/-- What the host tells about its zone. -/
structure Host where
  /-- Where the link to the zone file leads, if it is a link. -/
  localtime : Option String := none
  /-- The abbreviations of the clock, in standard and in daylight time. -/
  abbreviations : List String := ["UTC", "UTC"]
  /-- Which abbreviation is in use; a negative place counts from the end. -/
  daylight : Int := 0
  deriving Repr, DecidableEq

namespace Host

/-- The regions that abbreviations stand for. -/
def abbreviatedRegions : List (String × String) :=
  [("PST", "America/Los_Angeles"),
   ("PDT", "America/Los_Angeles"),
   ("EST", "America/New_York"),
   ("EDT", "America/New_York"),
   ("CST", "America/Chicago"),
   ("CDT", "America/Chicago"),
   ("MST", "America/Denver"),
   ("MDT", "America/Denver"),
   ("UTC", "UTC"),
   ("GMT", "UTC")]

/-- The name of last resort. -/
def fallbackName : String := "UTC"

/-- The abbreviation in use. -/
def abbreviation? (h : Host) : Option String :=
  let place := if h.daylight < 0 then h.abbreviations.length + h.daylight else h.daylight
  if place < 0 then none else h.abbreviations[place.toNat]?

/-- The name that the link to the zone file tells, if it leads into a zone database. -/
def linkedName? (h : Host) : Option String := do
  let target ← h.localtime
  let name ← Text.afterFirst? "zoneinfo/".toList target.toList
  pure (String.ofList name)

/-- The region that the abbreviation in use stands for. -/
def abbreviatedName? (h : Host) : Option String :=
  h.abbreviation?.bind fun a => abbreviatedRegions.lookup a

/-- The canonical name that the variable `TZ` gives, where `regions` finds regions by their
names. -/
def variableNameIn? (regions : String → Option Region) (env : Environment) : Option String :=
  ZoneName.canonicalIn? regions
    (ZoneName.trimmed (String.ofList (Text.trimLeft (· = ':') (env.getText "TZ").toList)))

/-- The name of the host's region, where `regions` finds regions by their names. -/
def zoneNameIn (regions : String → Option Region) (h : Host) (env : Environment) : String :=
  match variableNameIn? regions env with
  | some name => name
  | none => match h.linkedName?.or h.abbreviatedName? with
    | some name => if (regions name).isSome then name else fallbackName
    | none => fallbackName

/-- The name of the host's region. -/
def zoneName [ZoneDatabase] (h : Host) (env : Environment) : String :=
  zoneNameIn ZoneDatabase.find? h env

/-- A text that is there and not empty. -/
def given? (text : Option String) : Option String := text.filter (· ≠ "")

/-- The name of the default region, where `regions` finds regions by their names: the configured one
or else `fallback`, whichever is given first, if it names a region; otherwise the host's. -/
def defaultZoneNameIn (regions : String → Option Region) (h : Host) (env : Environment)
    (fallback : Option String) : String :=
  match (given? (env.get? "RECURRENCE_DEFAULT_TIMEZONE")).or (given? fallback) with
  | none => zoneNameIn regions h env
  | some name => (ZoneName.canonicalIn? regions name).getD (zoneNameIn regions h env)

/-- The name of the default region. -/
def defaultZoneName [ZoneDatabase] (h : Host) (env : Environment)
    (fallback : Option String := none) : String :=
  defaultZoneNameIn ZoneDatabase.find? h env fallback

/-- The region that a text names, or else the host's. -/
def regionOr [ZoneDatabase] (h : Host) (env : Environment) (name : Option String) : Region :=
  ((name.bind ZoneName.resolve?).or (ZoneName.resolve? (h.zoneName env))).getD Region.utc

end Host

end RecurringEvents
