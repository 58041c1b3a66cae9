import RecurringEvents.Proofs.Moment.Layout
import RecurringEvents.Proofs.Moment.WallClock

/-!
# The wall clock as text and in a layout

The minute that the wall clock of a zone shows is written as the layout `HH:mm` writes it. The date
is written without leading zeros in its year. With a year of four digits it is what the layout
`yyyy-MM-dd` writes and is read back, whatever time of day comes with it. With an earlier year it is
shorter, and is not read as a date.

* `Layout.render_date`, `Layout.render_minute`: the two layouts.
* `Host.Accepts`, `Host.Refuses`: what is read as a date.
* `Host.wallClockOfInstant_layouts`: the two ways to write an instant.
-/

namespace RecurringEvents

open Text

namespace Layout

theorem render_date (w : Wall) : render "yyyy-MM-dd".toList w = Wall.dateText w.date := by
  simp [render, pieces, Piece.render, Wall.dateText]

theorem render_minute (w : Wall) : render "HH:mm".toList w = Wall.minuteText w.time := by
  simp [render, pieces, Piece.render, Wall.minuteText, shownHour]

end Layout

namespace Host

/-- Whether a text is read as a date, whatever time of day and zone come with it. -/
def Accepts [ZoneDatabase] (s : List Char) (d : Date) : Prop :=
  ∀ (h : Host) (env : Environment) (time : String) (name : Option String) (t : TimeOfDay),
    Iso.clock? (trim time.toList) = some t →
    h.instantOfWallClock env (String.ofList s) time name
      = Moment.inUtc ⟨⟨d, t, .first⟩, h.zoneOr env name⟩

/-- Whether a text is refused as a date, whatever time of day and zone come with it. -/
def Refuses [ZoneDatabase] (s : List Char) : Prop :=
  ∀ (h : Host) (env : Environment) (time : String) (name : Option String),
    h.instantOfWallClock env (String.ofList s) time name = .error .invalidDate

variable {h : Host} {env : Environment} {m u : Moment} {name : Option String}

theorem accepts_dateText [ZoneDatabase] (d : Date) : Accepts (Wall.dateText d) d := by
  intro h env time name t ht
  refine instantOfWallClock_of_found ?_ ht
  rw [String.toList_ofList, Wall.trim_of_textChars fun c hc => Wall.mem_textChars_of_dateText hc,
    Iso.day?_dateText]

theorem refuses_clockDate [ZoneDatabase] {d : Date} (hy : d.year < 1000) : Refuses
    (Wall.clockDate d) := by
  intro h env time name
  refine instantOfWallClock_of_none (Or.inl ?_)
  rw [String.toList_ofList, Wall.trim_clockDate, Iso.day?_clockDate_of_short hy]

/-- **The wall clock and the layouts agree.** Whenever a zone has an instant in the calendar, the
minute of its wall clock is what the layout `HH:mm` writes. If the year has four digits, the date is
what the layout `yyyy-MM-dd` writes; it has ten characters and is accepted as the date that is
shown. With an earlier year it is another text, has fewer characters and is refused. -/
theorem wallClockOfInstant_layouts [ZoneDatabase] (hu : m.inZone (h.zoneOr env name) = .ok u) :
    ∃ date time, h.wallClockOfInstant env m name = .ok (date, time) ∧
      h.layoutInZone env m "HH:mm" name = .ok time ∧
      (1000 ≤ u.wall.date.year → h.layoutInZone env m "yyyy-MM-dd" name = .ok date ∧
        date.length = 10 ∧ Accepts date u.wall.date) ∧
      (u.wall.date.year < 1000 → h.layoutInZone env m "yyyy-MM-dd" name ≠ .ok date ∧
        date.length < 10 ∧ Refuses date) := by
  have hdate : h.layoutInZone env m "yyyy-MM-dd" name = .ok (Wall.dateText u.wall.date) := by
    rw [← Layout.render_date, ← layoutInZone_eq hu, String.ofList_toList]
  refine ⟨Wall.clockDate u.wall.date, Wall.minuteText u.wall.time, ?_, ?_, fun hy => ?_,
    fun hy => ?_⟩
  · exact wallClockOfInstant_eq_ok h env hu
  · rw [← Layout.render_minute, ← layoutInZone_eq hu, String.ofList_toList]
  · rw [Wall.clockDate_of_le hy]
    exact ⟨hdate, Iso.length_dateText _, accepts_dateText _⟩
  · have hshort := Wall.length_clockDate_of_short hy
    refine ⟨fun hsame => ?_, hshort, refuses_clockDate hy⟩
    have htext := Except.ok.inj (hdate.symm.trans hsame)
    rw [← htext, Iso.length_dateText] at hshort
    omega

/-- The wall clock of London on a summer afternoon, as the layouts write it. -/
theorem earlyAfternoon_layouts : ∃ date time,
    wallClockOfInstant {} {} earlyAfternoon (some "Europe/London") = .ok (date, time) ∧
      layoutInZone {} {} earlyAfternoon "HH:mm" (some "Europe/London") = .ok time ∧
      layoutInZone {} {} earlyAfternoon "yyyy-MM-dd" (some "Europe/London") = .ok date ∧
      date = "2024-07-04".toList ∧ time = "14:05".toList ∧ Accepts date (.near 2024 7 4) := by
  have hu : earlyAfternoon.inZone (zoneOr {} {} (some "Europe/London"))
      = .ok (.london (.near 2024 7 4) 845) := rfl
  obtain ⟨date, time, hboth, htime, hyear, -⟩ := wallClockOfInstant_layouts hu
  obtain ⟨hdate, -, haccepts⟩ := hyear (by decide)
  have hwritten : wallClockOfInstant {} {} earlyAfternoon (some "Europe/London")
      = .ok ("2024-07-04".toList, "14:05".toList) := rfl
  cases Except.ok.inj (hwritten.symm.trans hboth)
  exact ⟨_, _, hboth, htime, hdate, rfl, rfl, haccepts⟩

/-- Noon of a summer day of the year 999 is written with three digits of the year, the layout writes
four, and what is written is not read. -/
theorem earlyNoon_layouts :
    wallClockOfInstant {} {} (.ofUtc ⟨.near 999 7 4, .ofMinutes 720, .first⟩) (some "UTC")
      = .ok ("999-07-04".toList, "12:00".toList) ∧
    layoutInZone {} {} (.ofUtc ⟨.near 999 7 4, .ofMinutes 720, .first⟩) "yyyy-MM-dd" (some "UTC")
      = .ok "0999-07-04".toList ∧
    "999-07-04".toList ≠ "0999-07-04".toList ∧ "999-07-04".toList.length ≠ 10 ∧
    instantOfWallClock {} {} "999-07-04" "12:00" (some "UTC") = .error .invalidDate :=
  ⟨rfl, rfl, by decide, by decide, rfl⟩

end Host

end RecurringEvents
