import RecurringEvents.Zone.Name
import RecurringEvents.Zone.Regular
import RecurringEvents.Zone.Regions.Africa
import RecurringEvents.Zone.Regions.America
import RecurringEvents.Zone.Regions.Asia
import RecurringEvents.Zone.Regions.Europe
import RecurringEvents.Zone.Regions.Pacific
import RecurringEvents.Zone.Regions.Universal

/-!
# Zone databases

A zone database finds regions by their names. Names are compared exactly: no other spelling names a
region. The names are complete, so far as the tables of other names refer to them, and the regions
are orderly.

All that is said of zones holds for every such database. The one that is in use has the regions of
`Zone/Regions`.

* `Region.IsOrderly`: what is assumed of a region.
* `ZoneDatabase`: what is assumed of a database.
-/

namespace RecurringEvents

namespace Region

/-- Whether a region is orderly: it is regular, or it is Nuuk, where the schedule begins with the
end of a daylight time that the clock, set to the same offset half a year before, has not shown. -/
def IsOrderly (r : Region) : Prop := r.IsRegular ∨ r = nuuk

instance (r : Region) : Decidable r.IsOrderly := inferInstanceAs (Decidable (_ ∨ _))

end Region

/-- How regions are found by their names. -/
class ZoneDatabase where
  /-- The region with a name. -/
  find? : String → Option Region
  isOrderly_of_find? : ∀ {name r}, find? name = some r → r.IsOrderly
  isComplete : ZoneName.IsComplete find?

/-! ## The known regions -/

namespace Region

/-- All regions, in the order of their names. -/
def all : List Region :=
  [johannesburg, anchorage, buenosAires, chicago, denver, halifax, losAngeles, mexicoCity, newYork,
   nuuk, phoenix, saoPaulo, stJohns, toronto, vancouver, bangkok, dubai, hongKong, jerusalem,
   kathmandu, kolkata, riyadh, seoul, shanghai, singapore, taipei, tokyo, yangon, lordHowe,
   melbourne, perth, sydney, amsterdam, berlin, dublin, london, madrid, moscow, paris, rome,
   stockholm, warsaw, apia, auckland, chatham, honolulu, usPacific, utc]

/-- The region with a name. -/
def find? (name : String) : Option Region := all.find? (·.name == name)

theorem mem_all_of_find? {name : String} {r : Region} (h : find? name = some r) : r ∈ all :=
  List.mem_of_find?_eq_some h

/-- All known regions are orderly. -/
theorem isOrderly_of_mem_all : ∀ r ∈ all, r.IsOrderly := by decide +kernel

/-- Their names are complete. -/
theorem isComplete_find? : ZoneName.IsComplete find? where
  utc := by decide +kernel
  windows := by decide +kernel
  aliases := by decide +kernel
  trimmed := by
    intro name h
    have hall : ∀ r ∈ all, ZoneName.trimmed r.name = r.name := by decide +kernel
    obtain ⟨r, hr⟩ := Option.isSome_iff_exists.1 h
    have hname : r.name = name := by simpa using List.find?_some hr
    rw [← hname]
    exact hall r (mem_all_of_find? hr)
  nonempty := by decide +kernel

end Region

/-- The known regions. -/
instance ZoneDatabase.known : ZoneDatabase where
  find? := Region.find?
  isOrderly_of_find? h := Region.isOrderly_of_mem_all _ (Region.mem_all_of_find? h)
  isComplete := Region.isComplete_find?

/-! ## Names -/

namespace ZoneName

/-- The canonical name of the region that a text names. -/
def canonical? [ZoneDatabase] (name : String) : Option String :=
  canonicalIn? ZoneDatabase.find? name

/-- The region that a text names. -/
def resolve? [ZoneDatabase] (name : String) : Option Region := resolveIn? ZoneDatabase.find? name

/-- A region that a text names is orderly. -/
theorem isOrderly_of_resolve? [ZoneDatabase] {name : String} {r : Region}
    (h : resolve? name = some r) : r.IsOrderly := by
  obtain ⟨c, -, hc⟩ := Option.bind_eq_some_iff.1 h
  exact ZoneDatabase.isOrderly_of_find? hc

end ZoneName

end RecurringEvents
