import RecurringEvents.Text.Blank
import RecurringEvents.Zone.Region

/-!
# Names of regions

A region goes by its canonical name, by older or shorter aliases of it, and by the names that
Windows calendars use. A Windows name is taken as it stands; an alias or a canonical name may have
white space around it.

Names are read with any way to find regions by them (`canonicalIn?`, `resolveIn?`).

* `ZoneName.IsComplete`: what is assumed of such a way.
-/

namespace RecurringEvents.ZoneName

/-- The names that Windows calendars use. -/
def windowsNames : List (String × String) :=
  [("Pacific Standard Time", "America/Los_Angeles"),
   ("Mountain Standard Time", "America/Denver"),
   ("Central Standard Time", "America/Chicago"),
   ("Eastern Standard Time", "America/New_York"),
   ("Alaskan Standard Time", "America/Anchorage"),
   ("Hawaiian Standard Time", "Pacific/Honolulu"),
   ("US Mountain Standard Time", "America/Phoenix"),
   ("Atlantic Standard Time", "America/Halifax"),
   ("GMT Standard Time", "Europe/London"),
   ("Romance Standard Time", "Europe/Paris"),
   ("W. Europe Standard Time", "Europe/Berlin"),
   ("Central European Standard Time", "Europe/Warsaw"),
   ("Russian Standard Time", "Europe/Moscow"),
   ("Arabian Standard Time", "Asia/Dubai"),
   ("India Standard Time", "Asia/Kolkata"),
   ("SE Asia Standard Time", "Asia/Bangkok"),
   ("China Standard Time", "Asia/Shanghai"),
   ("Tokyo Standard Time", "Asia/Tokyo"),
   ("Korea Standard Time", "Asia/Seoul"),
   ("Singapore Standard Time", "Asia/Singapore"),
   ("AUS Eastern Standard Time", "Australia/Sydney"),
   ("W. Australia Standard Time", "Australia/Perth"),
   ("New Zealand Standard Time", "Pacific/Auckland"),
   ("E. South America Standard Time", "America/Sao_Paulo"),
   ("South Africa Standard Time", "Africa/Johannesburg")]

/-- Aliases of canonical names. -/
def aliases : List (String × String) :=
  [("US/Pacific", "America/Los_Angeles"),
   ("US/Mountain", "America/Denver"),
   ("US/Central", "America/Chicago"),
   ("US/Eastern", "America/New_York"),
   ("US/Alaska", "America/Anchorage"),
   ("US/Hawaii", "Pacific/Honolulu"),
   ("US/Arizona", "America/Phoenix"),
   ("GMT", "UTC"),
   ("Etc/UTC", "UTC"),
   ("Etc/GMT", "UTC"),
   ("Etc/Universal", "UTC"),
   ("Universal", "UTC"),
   ("Zulu", "UTC"),
   ("Z", "UTC"),
   ("Asia/Calcutta", "Asia/Kolkata"),
   ("Asia/Rangoon", "Asia/Yangon"),
   ("America/Godthab", "America/Nuuk")]

/-- The region that a Windows name stands for. -/
def ofWindows? (name : String) : Option String := windowsNames.lookup name

/-- The name that an alias stands for; any other text stands for itself. -/
def unalias (name : String) : String := (aliases.lookup name).getD name

/-- The text without white space around it. -/
def trimmed (name : String) : String := String.ofList (Text.trim name.toList)

/-- The name by which the region that a text names is looked up. -/
def lookupName (name : String) : String := (ofWindows? name).getD (unalias (trimmed name))

/-- The canonical name of the region that a text names, where `regions` finds regions by their
names. The empty text names none. -/
def canonicalIn? (regions : String → Option Region) (name : String) : Option String :=
  if name ≠ "" ∧ (regions (lookupName name)).isSome then some (lookupName name) else none

/-- The region that a text names, where `regions` finds regions by their names. -/
def resolveIn? (regions : String → Option Region) (name : String) : Option Region :=
  (canonicalIn? regions name).bind regions

/-- What is assumed of a way to find regions by their names: it finds UTC and what the tables refer
to, and its names are not empty and have no white space around them. -/
structure IsComplete (regions : String → Option Region) : Prop where
  utc : (regions "UTC").isSome
  windows : ∀ e ∈ windowsNames, (regions e.2).isSome
  aliases : ∀ e ∈ aliases, (regions e.2).isSome
  trimmed : ∀ name, (regions name).isSome → trimmed name = name
  nonempty : regions "" = none

/-- What is found under a canonical name is a region. -/
theorem isSome_of_canonicalIn? {regions : String → Option Region} {name c : String}
    (h : canonicalIn? regions name = some c) : (regions c).isSome := by
  unfold canonicalIn? at h
  split at h
  · next hknown =>
    cases h
    exact hknown.2
  · cases h

end RecurringEvents.ZoneName
