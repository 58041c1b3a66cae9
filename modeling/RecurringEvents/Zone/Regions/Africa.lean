import RecurringEvents.Zone.Region

/-!
# Regions of Africa

The clocks of the regions since local mean time, as the tz database tells them (release 2025b). The
latest change stands first.
-/

namespace RecurringEvents.Region

/-- `Africa/Johannesburg`. -/
def johannesburg : Region where
  name := "Africa/Johannesburg"
  first := ⟨6720, "LMT"⟩
  changes :=
    [⟨-813805200, 7200, "SAST"⟩, ⟨-829526400, 10800, "SAST"⟩, ⟨-845254800, 7200, "SAST"⟩,
     ⟨-860976000, 10800, "SAST"⟩, ⟨-2109288600, 7200, "SAST"⟩, ⟨-2458173120, 5400, "SAST"⟩]
  later := .steady ⟨7200, "SAST"⟩

end RecurringEvents.Region
