import RecurringEvents.Expansion.Limits
import RecurringEvents.Settings.EnvFile
import RecurringEvents.Text.Integer
import RecurringEvents.Text.Upper

/-!
# Settings

Settings are read from variables. A limit has to be a positive whole number; anything else counts
as not set. A log level is upper-cased.
-/

namespace RecurringEvents

/-- The settings that are given. -/
structure Config where
  maxInstances : Option Int := none
  maxIterations : Option Int := none
  maxEmptyPeriods : Option Int := none
  defaultZone : Option String := none
  logLevel : Option String := none
  deriving Repr, DecidableEq

namespace Config

/-- A positive limit in a variable. -/
def limit? (env : Environment) (name : String) : Option Int :=
  (Text.looseInteger? (env.getText name).toList).filter (1 ≤ ·)

/-- A variable that is set and not empty. -/
def text? (env : Environment) (name : String) : Option String :=
  (env.get? name).filter (· ≠ "")

/-- A text trimmed and in upper case. -/
def shout (s : String) : String := String.ofList (Text.upper (Text.trim s.toList))

/-- The settings of an environment. -/
def ofEnvironment (env : Environment) : Config where
  maxInstances := limit? env "RECURRENCE_MAX_INSTANCES"
  maxIterations := limit? env "RECURRENCE_MAX_ITERATIONS"
  maxEmptyPeriods := limit? env "RECURRENCE_MAX_EMPTY_PERIODS"
  defaultZone := text? env "RECURRENCE_DEFAULT_TIMEZONE"
  logLevel := (text? env "RECURRENCE_LOG_LEVEL").map shout

/-- The limits that settings give. -/
def limits (c : Config) : Limits where
  maxInstances := c.maxInstances.getD Limits.standard.maxInstances
  maxIterations := c.maxIterations.getD Limits.standard.maxIterations
  maxEmptyPeriods := c.maxEmptyPeriods.getD Limits.standard.maxEmptyPeriods

theorem one_le_of_limit? {env : Environment} {name : String} {n : Int}
    (h : limit? env name = some n) : 1 ≤ n := by
  simpa using (Option.filter_eq_some_iff.1 h).2

/-- A default that is positive keeps positive what is there. -/
theorem one_le_getD {n : Option Int} {d : Int} (h : ∀ x ∈ n, 1 ≤ x) (hd : 1 ≤ d) :
    1 ≤ n.getD d := by
  cases n with
  | none => exact hd
  | some x => exact h x rfl

/-- Limits that come from settings are positive. -/
theorem one_le_limits (env : Environment) :
    1 ≤ (ofEnvironment env).limits.maxInstances ∧ 1 ≤ (ofEnvironment env).limits.maxIterations ∧
      1 ≤ (ofEnvironment env).limits.maxEmptyPeriods := by
  have h (name : String) : ∀ n ∈ limit? env name, 1 ≤ n := fun _ hn => one_le_of_limit? hn
  simp only [limits, ofEnvironment]
  exact ⟨one_le_getD (h _) (by decide), one_le_getD (h _) (by decide),
    one_le_getD (h _) (by decide)⟩

end Config

/-- Limits of an object: each may be absent, and one that is there may be null. -/
structure LimitFields where
  maxInstances : Option (Option Int) := none
  maxIterations : Option (Option Int) := none
  maxEmptyPeriods : Option (Option Int) := none
  deriving Repr, DecidableEq

/-- The limits of an object: absent ones are the defaults, others are taken as they are. -/
def LimitFields.values (f : LimitFields) : List (Option Int) :=
  [f.maxInstances.getD (some Limits.standard.maxInstances),
   f.maxIterations.getD (some Limits.standard.maxIterations),
   f.maxEmptyPeriods.getD (some Limits.standard.maxEmptyPeriods)]

end RecurringEvents
