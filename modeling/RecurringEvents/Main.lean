import RecurringEvents.CommandLine.Run

/-!
# The program

Finds the environment file and the variables of the process, runs the command line in a session of
them, and prints what it leaves behind.
-/

namespace RecurringEvents.Program

/-- The variables that the program looks at. -/
def variableNames : List String :=
  ["TZ", "RECURRENCE_DEFAULT_TIMEZONE", "RECURRENCE_TEST_TIME", "RECURRENCE_MAX_INSTANCES",
   "RECURRENCE_MAX_ITERATIONS", "RECURRENCE_MAX_EMPTY_PERIODS", "RECURRENCE_LOG_LEVEL",
   "RECURRENCE_DEBUG"]

/-- The names that an environment file gives values to. -/
def assignedNames : EnvFile → List String
  | .content bytes =>
    match String.fromUTF8? bytes with
    | some text => (EnvFile.assignments text.toList).map Prod.fst
    | none => []
  | _ => []

/-- The environment file of the working directory. -/
def findEnvFile : IO EnvFile := do
  match ← (IO.FS.readBinFile ".env").toBaseIO with
  | .ok bytes => pure (.content bytes)
  | .error _ => pure .absent

/-- The variables of the process that have the given names. -/
def findVariables (names : List String) : IO Environment :=
  names.foldlM (fun env name => do
    match ← IO.getEnv name with
    | some value => pure (env.set name value)
    | none => pure env) {}

/-- Where the link to the zone file of the host leads. -/
def findHost : IO Host := do
  match ← (IO.FS.realPath "/etc/localtime").toBaseIO with
  | .ok path => pure { localtime := some path.toString }
  | .error _ => pure {}

/-- The session that the program runs in. -/
def findSession : IO Session := do
  let envFile ← findEnvFile
  let env ← findVariables (variableNames ++ assignedNames envFile)
  let host ← findHost
  pure { env := env, envFile := envFile, host := host }

/-- How the program is called. -/
def usage : String :=
  "usage: recurring-events [--log-level LEVEL] [--timezone TZ] parse RRULE [--strict]\n" ++
  "       recurring-events [--log-level LEVEL] [--timezone TZ] describe RRULE\n" ++
  "       recurring-events [--log-level LEVEL] [--timezone TZ] expand RRULE --start TIME\n" ++
  "           [--end TIME] [--range-start TIME] [--duration MINUTES] [--title TITLE]\n" ++
  "           [--max-instances N]\n"

/-- The words for the end of a program that was not carried out. -/
def crashMessage : CommandLine.Crash → String
  | .envFile .notUtf8 => "The environment file is not UTF-8."
  | .envFile .nulCharacter => "The environment file has a NUL character in a name or a value."
  | .outOfRange => "A time is not in the years 1 to 9999."
  | .lackingNumber => "An option for a number occurs without one."

/-- Prints an outcome; gives the exit code. -/
def finish : CommandLine.Outcome → IO UInt32
  | .exit e => do
    match e with
    | .help => IO.print usage
    | .usage => IO.eprint usage
    pure e.code.toNat.toUInt32
  | .report r => do
    IO.print (String.ofList r.output)
    IO.eprint (String.ofList r.errors)
    pure r.code.toNat.toUInt32
  | .crash c => do
    IO.eprintln (crashMessage c)
    pure 1

end RecurringEvents.Program

/-- Runs the command line. -/
def main (args : List String) : IO UInt32 := do
  let s ← RecurringEvents.Program.findSession
  RecurringEvents.Program.finish (RecurringEvents.CommandLine.run s args).2
