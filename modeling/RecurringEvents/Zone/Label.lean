import RecurringEvents.Iso.Stamp
import RecurringEvents.Zone.Host

/-!
# Labels of zones

How a zone is shown to people: the label of its offset, the abbreviation in force, and a long name.
The long name is, in this order, one that is peculiar to the region, the one of the abbreviation,
the curated name of the region, or the name that was asked for.
-/

namespace RecurringEvents.ZoneLabel

/-- Long names of abbreviations. -/
def longNames : List (String × String) :=
  [("UTC", "Coordinated Universal Time"),
   ("GMT", "Greenwich Mean Time"),
   ("BST", "British Summer Time"),
   ("IST", "India Standard Time"),
   ("CET", "Central European Standard Time"),
   ("CEST", "Central European Summer Time"),
   ("EET", "Eastern European Standard Time"),
   ("EEST", "Eastern European Summer Time"),
   ("MSK", "Moscow Standard Time"),
   ("EST", "Eastern Standard Time"),
   ("EDT", "Eastern Daylight Time"),
   ("CST", "Central Standard Time"),
   ("CDT", "Central Daylight Time"),
   ("MST", "Mountain Standard Time"),
   ("MDT", "Mountain Daylight Time"),
   ("PST", "Pacific Standard Time"),
   ("PDT", "Pacific Daylight Time"),
   ("AKST", "Alaska Standard Time"),
   ("AKDT", "Alaska Daylight Time"),
   ("HST", "Hawaii-Aleutian Standard Time"),
   ("JST", "Japan Standard Time"),
   ("KST", "Korean Standard Time"),
   ("HKT", "Hong Kong Standard Time"),
   ("AEST", "Australian Eastern Standard Time"),
   ("AEDT", "Australian Eastern Daylight Time"),
   ("AWST", "Australian Western Standard Time"),
   ("NZST", "New Zealand Standard Time"),
   ("NZDT", "New Zealand Daylight Time"),
   ("SAST", "South Africa Standard Time")]

/-- Long names of abbreviations that mean something else in one region. -/
def regionalNames : List ((String × String) × String) :=
  [(("Asia/Shanghai", "CST"), "China Standard Time"),
   (("Asia/Taipei", "CST"), "Taipei Standard Time"),
   (("Europe/Dublin", "IST"), "Irish Standard Time"),
   (("Asia/Jerusalem", "IST"), "Israel Standard Time")]

/-- Regions that are offered for choice, with their curated names. -/
def commonRegions : List (String × String) :=
  [("America/New_York", "Eastern Time (US & Canada)"),
   ("America/Chicago", "Central Time (US & Canada)"),
   ("America/Denver", "Mountain Time (US & Canada)"),
   ("America/Los_Angeles", "Pacific Time (US & Canada)"),
   ("America/Anchorage", "Alaska"),
   ("Pacific/Honolulu", "Hawaii"),
   ("Europe/London", "London"),
   ("Europe/Paris", "Paris"),
   ("Europe/Berlin", "Berlin"),
   ("Europe/Rome", "Rome"),
   ("Europe/Madrid", "Madrid"),
   ("Europe/Amsterdam", "Amsterdam"),
   ("Europe/Stockholm", "Stockholm"),
   ("Europe/Warsaw", "Warsaw"),
   ("Europe/Moscow", "Moscow"),
   ("Asia/Dubai", "Dubai"),
   ("Asia/Kolkata", "New Delhi"),
   ("Asia/Bangkok", "Bangkok"),
   ("Asia/Hong_Kong", "Hong Kong"),
   ("Asia/Shanghai", "Beijing"),
   ("Asia/Tokyo", "Tokyo"),
   ("Asia/Seoul", "Seoul"),
   ("Asia/Singapore", "Singapore"),
   ("Australia/Sydney", "Sydney"),
   ("Australia/Melbourne", "Melbourne"),
   ("Australia/Perth", "Perth"),
   ("America/Toronto", "Toronto"),
   ("America/Vancouver", "Vancouver"),
   ("America/Mexico_City", "Mexico City"),
   ("America/Sao_Paulo", "São Paulo"),
   ("America/Argentina/Buenos_Aires", "Buenos Aires"),
   ("Africa/Johannesburg", "Johannesburg"),
   ("Pacific/Auckland", "Auckland"),
   ("UTC", "UTC")]

/--
The label of an offset in microseconds: `UTC`, `UTC-5`, `UTC+5:30`. The offset is rounded down to
whole minutes.
-/
def ofOffset (micros : Int) : List Char :=
  let minutes := micros / 60000000
  let hour := Text.decimal (minutes.natAbs / 60)
  let minute := minutes.natAbs % 60
  if minutes = 0 then "UTC".toList
  else "UTC".toList ++ (if 0 < minutes then '+' else '-') :: hour
    ++ (if minute = 0 then [] else ':' :: Text.padded 2 minute)

/-- The local time type of a region at a moment. -/
def typeAt (r : Region) (m : Moment) : Except CalendarError LocalType := do
  let shown ← m.inZone (.region r)
  pure (r.localType shown.wall.pass shown.wall.date.year shown.wall.seconds)

/-- The local time type of the region that a text names, if it names one and the moment can be
shown there. -/
def typeOf? [ZoneDatabase] (name : Option String) (m : Moment) : Option (Region × LocalType) := do
  let r ← name.bind ZoneName.resolve?
  match typeAt r m with
  | .ok type => some (r, type)
  | .error _ => none

/-- The label of the offset of a zone at a moment. -/
def offsetLabel [ZoneDatabase] (name : Option String) (m : Moment) : List Char :=
  match typeOf? name m with
  | some (_, type) => ofOffset (type.offset * secondMicros)
  | none => "UTC+0".toList

/-- The abbreviation of a zone at a moment. -/
def shortName [ZoneDatabase] (name : Option String) (m : Moment) : String :=
  match typeOf? name m with
  | some (_, type) => type.name
  | none => ""

/-- The long name of a zone at a moment; the text itself if it names no zone. -/
def displayName [ZoneDatabase] (name : Option String) (m : Moment) : Option String :=
  match typeOf? name m with
  | none => name
  | some (r, type) =>
    (regionalNames.lookup (r.name, type.name)).or
      ((longNames.lookup type.name).or ((commonRegions.lookup r.name).or name))

/-- The regions that are offered for choice: name, curated name and label of the offset. -/
def choices [ZoneDatabase] (m : Moment) : List (String × String × List Char) :=
  commonRegions.map fun c => (c.1, c.2, offsetLabel (some c.1) m)

/-- The moment that is taken for the present one instead of the clock's, if a usable one is set. -/
def presetNow? (env : Environment) : Option Moment := do
  let text ← Host.given? (env.get? "RECURRENCE_TEST_TIME")
  match Iso.stamp text.toList with
  | .ok r => match r.moment.inUtc with
    | .ok m => some m
    | .error _ => none
  | .error _ => none

end RecurringEvents.ZoneLabel
