/-!
# Limits of an expansion

Limits keep an expansion from running away. They are whole numbers that nobody has checked: a cap
below 1 is refused when an expansion begins, and other limits below 1 stop it at once.
-/

namespace RecurringEvents

/-- The limits of an expansion. -/
structure Limits where
  /-- How many places of a series are counted, whether shown or not. -/
  maxInstances : Int := 366
  /-- How many steps a cursor takes. -/
  maxIterations : Int := 100000
  /-- Within how many periods a day has to be found. -/
  maxEmptyPeriods : Int := 120
  deriving Repr, DecidableEq

namespace Limits

/-- The defaults. -/
def standard : Limits := {}

end Limits

end RecurringEvents
