import RecurringEvents.Expansion.Batch
import RecurringEvents.Logging
import RecurringEvents.Moment.Conversion
import RecurringEvents.Rule.Description
import RecurringEvents.Rule.Printer
import RecurringEvents.Zone.Label

/-!
# Sessions

What a running program keeps: the environment, which loading the environment file adds to; the file
and the host as they are found; the log levels; and the limits of the shared expander, which are
taken from the settings when they are first asked for.

An action that may load the file gives back the session in any case, since what was set before an
error remains set.
-/

namespace RecurringEvents

/-- The state of a running program. -/
structure Session where
  env : Environment := {}
  envFile : EnvFile := .absent
  host : Host := {}
  logging : Logging := {}
  /-- The limits of the shared expander, once they have been asked for. -/
  sharedLimits : Option Limits := none

namespace Session

/-! ## Settings -/

/-- Loads the environment file; gives the names that were set. -/
def loadEnvFile (s : Session) : Session × Except EnvFileError (List String) :=
  let loaded := s.envFile.load s.env
  ({ s with env := loaded.env }, loaded.result)

/-- The settings of the environment as it is. -/
def config (s : Session) : Config := Config.ofEnvironment s.env

/-- The settings after loading the environment file. -/
def loadConfig (s : Session) : Session × Except EnvFileError Config :=
  let (s, names) := s.loadEnvFile
  (s, names.map fun _ => s.config)

/-- The limits that the settings give after loading the environment file. -/
def loadLimits (s : Session) : Session × Except EnvFileError Limits :=
  let (s, config) := s.loadConfig
  (s, config.map Config.limits)

/-- The limits of the shared expander. -/
def limits (s : Session) : Session × Except EnvFileError Limits :=
  match s.sharedLimits with
  | some l => (s, .ok l)
  | none =>
    let (s, loaded) := s.loadLimits
    match loaded with
    | .ok l => ({ s with sharedLimits := some l }, .ok l)
    | .error e => (s, .error e)

/-! ## Zones and rules -/

/-- The name of the default region. -/
def defaultZoneName [ZoneDatabase] (s : Session) (fallback : Option String := none) : String :=
  s.host.defaultZoneName s.env fallback

/-- A name that is given, or that of the default region. -/
def nameOrDefault [ZoneDatabase] (s : Session) (name : Option String) : String :=
  (Host.given? name).getD s.defaultZoneName

/-- The zone for times that have none: that of a name or of the default; UTC if it is not known. -/
def floatingZone [ZoneDatabase] (s : Session) (name : Option String) : Zone :=
  match ZoneName.resolve? (s.nameOrDefault name) with
  | some r => .region r
  | none => .utc

/-- Reads a rule; a last moment without a Z is in the zone that `name` names or the default one. -/
def readRule [ZoneDatabase] (s : Session) (name : Option String) (text : Option String) :
    Except Rule.ReadError Rule :=
  match text with
  | none => .error .empty
  | some t => Rule.read (s.floatingZone name) t.toList

/-- Describes a rule; its dates are those of the zone that `name` names or of the default one. -/
def describe [ZoneDatabase] (s : Session) (r : Rule) (name : Option String) :
    Except CalendarError (List Char) :=
  r.describe (s.host.zoneOr s.env (some (s.nameOrDefault name)))

/-- Expands an event by a rule that is read from a text; the zone of the event is that of times
without one. -/
def expandRule [ZoneDatabase] (s : Session) (e : Event) (text : Option String)
    (excluded : List TimeValue) (limits : Limits) (q : Query) :
    Except ExpansionError (List Occurrence) :=
  ((e.withRuleText (s.floatingZone (some e.timeZone)) text excluded).expand limits q).map
    Expansion.occurrences

end Session

end RecurringEvents
