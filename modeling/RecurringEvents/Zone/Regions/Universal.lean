import RecurringEvents.Zone.Region

/-!
# Universal time

The clocks of the regions, as the tz database tells them (release 2025b).
-/

namespace RecurringEvents.Region

/-- `UTC`. -/
def utc : Region where
  name := "UTC"
  first := ⟨0, "UTC"⟩
  changes :=
    []
  later := .steady ⟨0, "UTC"⟩

end RecurringEvents.Region
