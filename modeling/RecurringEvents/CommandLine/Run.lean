import RecurringEvents.CommandLine.Arguments
import RecurringEvents.CommandLine.Output
import RecurringEvents.Iso.Stamp
import RecurringEvents.Session

/-!
# Running a command line

A command line is run in a session. It loads the environment file, sets the log levels, settles the
zone, and then carries out its command, which prints to one of two outputs and has an exit code.

A refused rule, an impossible date and a bad range are reported and give the code 1. A calendar that
is left, a number that is lacking, and an environment file that is refused, end the program instead.
-/

namespace RecurringEvents.CommandLine

/-- What ends the program. -/
inductive Crash where
  | envFile (e : EnvFileError)
  /-- A time outside the years 1 to 9999. -/
  | outOfRange
  /-- An option for a number that occurs without one. -/
  | lackingNumber
  deriving Repr, DecidableEq

/-- Why a command cannot be carried out. -/
inductive Failure where
  /-- It is reported; a report without words is a star. -/
  | reported (words : Option (List Char))
  | crash (c : Crash)
  deriving Repr, DecidableEq

/-- What a program leaves behind. -/
structure Report where
  code : Int := 0
  output : List Char := []
  errors : List Char := []
  deriving Repr, DecidableEq

/-- How a command line ends. -/
inductive Outcome where
  | exit (e : Exit)
  | report (r : Report)
  | crash (c : Crash)
  deriving Repr, DecidableEq

namespace Failure

/-- A failure of the calendar. Only leaving it ends the program. -/
def ofCalendar : CalendarError → Failure
  | .outOfRange => .crash .outOfRange
  | _ => .reported none

/-- A failure of an expansion. -/
def ofExpansion (e : ExpansionError) : Failure :=
  match e with
  | .calendar c => ofCalendar c
  | _ => .reported e.message?

/-- A refused rule. -/
def ofReadError (e : Rule.ReadError) : Failure := .reported (some e.message)

/-- A refused environment file. -/
def ofEnvFile (e : EnvFileError) : Failure := .crash (.envFile e)

/-- How a command ends that failed. -/
def outcome : Failure → Outcome
  | reported words =>
    .report { code := 1, errors := "Error: ".toList ++ words.getD ['*'] ++ ['\n'] }
  | crash c => .crash c

end Failure

/-- A value, with its error as a failure. -/
def orFail {ε α : Type} (f : ε → Failure) : Except ε α → Except Failure α
  | .ok a => .ok a
  | .error e => .error (f e)

/-- A value that has to be there. -/
def need {α : Type} (f : Failure) : Option α → Except Failure α
  | some a => .ok a
  | none => .error f

/-- A line of output. -/
def printed (line : List Char) : Report := { output := line ++ ['\n'] }

/-- The report about a text that is no rule. -/
def invalidRule (text : String) : Report :=
  { code := 1, errors := "Invalid RRULE: ".toList ++ text.toList ++ ['\n'] }

/-- The moment that a time stamp denotes; without an offset it is in the zone. -/
def instantOf (text : String) (zone : Zone) : Except CalendarError Moment := do
  let r ← Iso.stamp text.toList
  match r.zone with
  | some _ => pure r.moment
  | none => Moment.localize r.wall zone

/-- The length of the range when no end is asked for: 366 days. -/
def defaultRange : Int := 366 * dayMicros

/-- A time stamp that is asked for and not empty. -/
def stampOr (text : Option String) (zone : Zone) (other : Except CalendarError Moment) :
    Except CalendarError Moment :=
  match Host.given? text with
  | some t => instantOf t zone
  | none => other

/-- The event and the range that `expand` asks for. A start without a value is read as an empty one,
and an event without a title is refused. -/
def ExpandRequest.event (r : ExpandRequest) (rule : Rule) (zoneName : String) (zone : Zone) :
    Except Failure (Event × Query) := do
  let start ← orFail .ofCalendar (instantOf (r.start.getD "") zone)
  let rangeStart ← orFail .ofCalendar (stampOr r.rangeStart zone (.ok start))
  let rangeEnd ← orFail .ofCalendar (stampOr r.finish zone (rangeStart.add defaultRange))
  let minutes ← need (.crash .lackingNumber) r.minutes
  let finish ← orFail .ofCalendar (start.add (minutes * 60 * secondMicros))
  let title ← need (.reported none) r.title
  let event ← orFail (fun _ => .reported none) (Event.check {
    id := "cli", title := title, start := some ⟨start.wall, some start.zone⟩
    finish := some ⟨finish.wall, some finish.zone⟩, timeZone := zoneName, rule := some rule })
  pure (event, ⟨rangeStart, rangeEnd, r.cap.value?⟩)

/-- Carries out `expand`. -/
def runExpand [ZoneDatabase] (s : Session) (zoneName : String) (r : ExpandRequest) :
    Session × Except Failure Report :=
  let asked : Except Failure (Event × Query) := do
    let rule ← orFail .ofReadError (s.readRule (some zoneName) (some r.rule))
    r.event rule zoneName (s.floatingZone (some zoneName))
  match asked with
  | .error f => (s, .error f)
  | .ok (event, q) =>
    let (s, limits) := s.loadLimits
    (s, do
      let limits ← orFail .ofEnvFile limits
      if r.cap = .blank then throw (.crash .lackingNumber)
      let x ← orFail .ofExpansion (event.expand limits q)
      pure (printed (JsonValue.document x.toJson)))

/-- Carries out a command. -/
def runCommand [ZoneDatabase] (s : Session) (zoneName : String) : Command → Session × Except
    Failure Report
  | .parse text strict =>
    (s, match s.readRule (some zoneName) (some text) with
      | .ok rule => .ok (printed (JsonValue.document rule.toJson))
      | .error e => if strict then .error (.ofReadError e) else .ok (invalidRule text))
  | .describe text =>
    (s, match s.readRule (some zoneName) (some text) with
      | .ok rule => (orFail .ofCalendar (s.describe rule (some zoneName))).map printed
      | .error _ => .ok (invalidRule text))
  | .expand r => runExpand s zoneName r

/-- The log level that is asked for on the command line or else in the settings. -/
def logLevel (a : Arguments) (c : Config) : Option String :=
  Host.given? (some (Config.shout (((Host.given? a.logLevel).or c.logLevel).getD "")))

/-- Sets the log levels. -/
def setLevels (s : Session) (level : Option String) : Session :=
  let l := (s.logging.init s.env level).configure s.env
    { debug := level = some "DEBUG", level := level }
  { s with logging := l }

/-- The name of the zone: the one asked for, if it is known, or else the default one. -/
def zoneName [ZoneDatabase] (s : Session) (a : Arguments) (c : Config) : String :=
  (a.zone.bind ZoneName.canonical?).getD (s.defaultZoneName c.defaultZone)

/-- Runs the arguments of a command line. -/
def runArguments [ZoneDatabase] (s : Session) (a : Arguments) : Session × Outcome :=
  let (s, config) := s.loadConfig
  match config with
  | .error e => (s, .crash (.envFile e))
  | .ok config =>
    let s := setLevels s (logLevel a config)
    let (s, result) := runCommand s (zoneName s a config) a.command
    (s, match result with
      | .ok report => .report report
      | .error f => f.outcome)

/-- Runs a command line. -/
def run [ZoneDatabase] (s : Session) (args : List String) : Session × Outcome :=
  match arguments args with
  | .error e => (s, .exit e)
  | .ok a => runArguments s a

end RecurringEvents.CommandLine
