import RecurringEvents.Settings.Config

/-!
# Log levels

The levels of the loggers and the handlers of the root logger. The loggers of the package share a
level, and so do those of the libraries that are kept quiet.

There are two ways to set levels. `init` takes any level by its name and obeys the debug variable in
a wide sense; `configure` knows four levels and obeys the variable in a narrow one. Either installs
a handler only if there is none.
-/

namespace RecurringEvents

/-- The level of a logger. -/
inductive LogLevel where
  | notSet | debug | info | warning | error | critical
  deriving Repr, DecidableEq

namespace LogLevel

/-- The name of a level. -/
def name : LogLevel → String
  | notSet => "NOTSET" | debug => "DEBUG" | info => "INFO" | warning => "WARNING"
  | error => "ERROR" | critical => "CRITICAL"

/-- All names of levels; two levels have a second one. -/
def names : List (String × LogLevel) :=
  [("CRITICAL", critical), ("FATAL", critical), ("ERROR", error), ("WARNING", warning),
   ("WARN", warning), ("INFO", info), ("DEBUG", debug), ("NOTSET", notSet)]

/-- The levels that can be requested for the root logger. -/
def requestable : List (String × LogLevel) :=
  [("DEBUG", debug), ("INFO", info), ("WARNING", warning), ("ERROR", error)]

end LogLevel

/-- How a handler formats its records. -/
inductive LogFormat where
  | silent | colored | plain
  deriving Repr, DecidableEq

/-- A handler of the root logger. -/
structure LogHandler where
  format : LogFormat
  level : LogLevel := .notSet
  deriving Repr, DecidableEq

/-- The levels of all loggers, and the handlers of the root logger. -/
structure Logging where
  root : LogLevel := .warning
  package : LogLevel := .notSet
  libraries : LogLevel := .notSet
  handlers : List LogHandler := [{ format := .silent }]
  deriving Repr, DecidableEq

namespace Logging

/-- The name of the logger of the package. -/
def packageLogger : String := "recurrence_lite"

/-- How many loggers the package has: its own, and those of four of its parts. -/
def packageLoggerCount : Nat := 5

/-- The names of the loggers of the libraries that are kept quiet. -/
def libraryLoggers : List String := ["asyncio", "pydantic", "dateutil"]

/-- Adds a handler if there is none. -/
def ensureHandler (l : Logging) (h : LogHandler) : Logging :=
  if l.handlers = [] then { l with handlers := [h] } else l

/-- Whether a text is one of some words, in any case. -/
def isOneOf (words : List String) (s : List Char) : Bool :=
  words.any fun w => w.toList = Text.lower s

/-- Sets up the root logger. The debug variable overrules the level; an unknown level is INFO. -/
def init (l : Logging) (env : Environment) (level : Option String) : Logging :=
  let forced := isOneOf ["1", "true", "yes", "on"]
    (Text.trim (env.getText "RECURRENCE_DEBUG").toList)
  let name := if forced then some "DEBUG" else level
  let chosen := (name.bind fun n => LogLevel.names.lookup (Config.shout n)).getD .info
  { l.ensureHandler { format := .colored } with root := chosen }

/-- What `configure` is told. -/
structure Request where
  debug : Bool := false
  /-- Overrules both `debug` and the debug variable. -/
  force : Option Bool := none
  level : Option String := none
  deriving Repr, DecidableEq

/-- Sets the levels of all loggers. -/
def configure (l : Logging) (env : Environment) (r : Request) : Logging :=
  let forced := isOneOf ["1", "true", "yes"] (env.getText "RECURRENCE_DEBUG").toList
  let debug := r.force.getD (forced || r.debug)
  let base := if debug then LogLevel.debug else .info
  let requested :=
    Config.shout ((r.level.filter (· ≠ "")).getD (env.getText "RECURRENCE_LOG_LEVEL"))
  let root := (LogLevel.requestable.lookup requested).getD base
  { l.ensureHandler { format := .plain, level := root } with
    root := root, package := base, libraries := .warning }

/-- Sets all loggers to DEBUG. -/
def reset (l : Logging) : Logging :=
  { l with root := .debug, package := .debug, libraries := .debug }

/-- The names and levels of the loggers that are reported. -/
def status (l : Logging) : List (String × LogLevel) :=
  ("root", l.root) :: (packageLogger, l.package)
    :: libraryLoggers.map fun name => (name, l.libraries)

/-- The levels of the loggers of the package. -/
def packageLevels (l : Logging) : List LogLevel := List.replicate packageLoggerCount l.package

/-- Without handlers. -/
def withoutHandlers (l : Logging) : Logging := { l with handlers := [] }

end Logging

end RecurringEvents
