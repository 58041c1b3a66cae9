import RecurringEvents.Proofs.Expansion.Trace
import RecurringEvents.Proofs.Zone.Gap

/-!
# The wall clock of occurrences

An occurrence of a series starts at the wall time of its cursor, which is that of the event, and
when the zone skips this time, later by the length of the gap. That holds of every cursor of the
first pass. A cursor of the second pass, which comes from an event that starts in the second pass of
a repeated hour, moves back instead of forward where its time is skipped.

* `StartsAsShown`: what is asked of a start.
* `Event.seriesRun_start`: when it holds.
* `Event.lastSundays_starts_early`: an event of which it does not hold.
-/

namespace RecurringEvents

/-- Whether a cursor starts as it should: at its date and time of day if the zone shows them, else
later by the length of the gap that they lie in. -/
structure StartsAsShown (z : Zone) (c : Wall) (start : Moment) : Prop where
  shown : z.Shows c.count → start.wall.date = c.date ∧ start.wall.time = c.time
  skipped : ¬z.Shows c.count → ∃ lo hi, z.IsGap lo hi ∧ lo ≤ c.count ∧ c.count < hi ∧
    start.wall.count = c.count + (hi - lo)

/-- A start that is as it should be is never early. -/
theorem StartsAsShown.count_le {z : Zone} {c : Wall} {start : Moment}
    (h : StartsAsShown z c start) : c.count ≤ start.wall.count := by
  by_cases hs : z.Shows c.count
  · obtain ⟨hd, ht⟩ := h.shown hs
    exact Int.le_of_eq (by rw [Wall.count, Wall.count, hd, ht])
  · obtain ⟨lo, hi, hgap, -, -, hcount⟩ := h.skipped hs
    have := hgap.lt
    omega

namespace Moment

variable {r : Region} {c : Wall} {m : Moment}

/-- A localized wall time is shown at the instant that it is read as. -/
theorem count_of_localize (h : localize c (.region r) = .ok m) :
    m.wall.count = (Zone.region r).shown ((Zone.region r).readAt c.pass c.count) := by
  rw [localize_region] at h
  exact (Zone.atInstant_eq_ok_iff.1 h).2.2.1

/-- **When a localized wall time is as it should be**; otherwise it is early. -/
theorem startsAsShown_iff (hr : r.IsOrderly) (h : localize c (.region r) = .ok m) :
    (StartsAsShown (.region r) c m ↔ ¬r.ReadsEarly c.pass c.count) ∧
      (r.ReadsEarly c.pass c.count → m.wall.count < c.count) := by
  have hcount := count_of_localize h
  have hlt : r.ReadsEarly c.pass c.count → m.wall.count < c.count := fun hearly => by
    rw [hcount]
    exact hearly.shown_lt hr
  refine ⟨⟨fun hstart hearly => ?_, fun hearly => ?_⟩, hlt⟩
  · have := hstart.count_le
    have := hlt hearly
    omega
  · constructor
    · intro hs
      refine Wall.eq_of_count_eq (hcount.trans ?_)
      exact Region.shown_readAt_of_shows hr hs fun hreset => hearly (Or.inr hreset)
    · intro hs
      obtain ⟨lo, hi, hgap, hlo, hhi, hfirst, -⟩ := Region.exists_gap hr hs
      have hpass : c.pass = .first := by
        cases hp : c.pass with
        | first => rfl
        | second => exact absurd (Or.inl ⟨hp, hs⟩) hearly
      rw [hpass, hfirst] at hcount
      exact ⟨lo, hi, hgap, hlo, hhi, hcount⟩

end Moment

namespace Event

variable {e : Event} {rule : Rule} {r : Region} {limits : Limits} {q : CheckedQuery}

/--
**Where an occurrence of a series starts.** It is the localized time of a cursor, which has the
event's time of day, and the event's pass if it goes from candidate to candidate or is the first
one. It starts as it should unless the zone reads the cursor early: one of the second pass whose
time is skipped, or one in the hour before the reset at Nuuk.
-/
theorem seriesRun_start [ZoneDatabase] {o : Occurrence} (hz : ZoneName.resolve? e.timeZone = some r)
    (ho : o ∈ (e.seriesRun rule limits q).occurrences) :
    ∃ anchor n c, e.start.inZone (.region r) = .ok anchor ∧
      (seriesAt rule limits anchor).cursorAt n = some c ∧
      Moment.localize c (.region r) = .ok o.start ∧ c.time = anchor.wall.time ∧
      c.pass = (if (seriesAt rule limits anchor).isPeriodic ∨ n = 0 then anchor.wall.pass
        else .first) ∧
      (StartsAsShown (.region r) c o.start ↔ ¬r.ReadsEarly c.pass c.count) ∧
      (r.ReadsEarly c.pass c.count → o.start.wall.count < c.count) := by
  unfold seriesRun at ho
  split at ho
  · next w hw =>
    obtain ⟨anchor, days, window, ha, -, -, rfl⟩ := walk_eq_ok_iff.1 hw
    obtain ⟨n, c, hmakes⟩ := Walk.exists_makes_of_mem_run ho
    have hzone := calendarZone_of_resolve? hz
    have hcursor := hmakes.asked.goes_on.cursor
    have hlocal := hmakes.asked.goes_on.localized
    simp only [hzone] at ha hlocal
    exact ⟨anchor, n, c, ha, hcursor, hlocal, Series.time_of_cursorAt hcursor,
      Series.pass_of_cursorAt hcursor,
      Moment.startsAsShown_iff (ZoneName.isOrderly_of_resolve? hz) hlocal⟩
  · cases ho

/-! ## An example -/

/-- The last Sunday of every month. -/
def lastSunday : Rule :=
  { Rule.every .monthly with byDay := some [{ day := .sunday, position := some (-1) }] }

/-- An event in London that starts in the second pass of the hour that is repeated on the last
Sunday of October. -/
def lastSundays : Event where
  id := "sundays"
  start := .london (.near 2024 10 27) 90 .second
  finish := .london (.near 2024 10 27) 150
  timeZone := "Europe/London"
  rule := some lastSunday
  finish_after_start := by decide +kernel

/-- The next March, on whose last Sunday this hour is skipped. -/
def nextMarch : CheckedQuery where
  start := .ofUtc ⟨.near 2025 3 1, .midnight, .first⟩
  finish := .ofUtc ⟨.near 2025 4 1, .midnight, .first⟩
  cap := 366

/-- Where that hour is skipped, the event starts an hour before it. -/
theorem lastSundays_starts_early : ∃ anchor n c, ∃ o ∈
    (lastSundays.seriesRun lastSunday .standard nextMarch).occurrences,
    lastSundays.start.inZone (.region .london) = .ok anchor ∧
      (seriesAt lastSunday .standard anchor).cursorAt n = some c ∧
      Moment.localize c (.region .london) = .ok o.start ∧
      o.start.wall.count = c.count - 3600 * secondMicros ∧
      ¬StartsAsShown (.region .london) c o.start := by
  obtain ⟨o, ho, hstart⟩ : ∃ o ∈ (lastSundays.seriesRun lastSunday .standard nextMarch).occurrences,
      o.start = .london (.near 2025 3 30) 30 := by decide +kernel
  refine ⟨lastSundays.start, 5, ⟨.near 2025 3 30, .ofMinutes 90, .second⟩, o, ho, ?_⟩
  rw [hstart]
  refine ⟨Moment.inZone_self rfl, by decide +kernel, ?_, by decide, fun h => ?_⟩
  · rw [Moment.localize_region]
    exact Zone.atInstant_eq_ok_iff.2 ⟨by decide +kernel, rfl, by decide +kernel, by decide +kernel⟩
  have hle := h.count_le
  -- half past midnight is before the time of the cursor
  have hlt : (Moment.london (.near 2025 3 30) 30).wall.count
      < Wall.count ⟨.near 2025 3 30, .ofMinutes 90, .second⟩ := by decide
  omega

/-- It comes from a cursor of the second pass. -/
theorem seriesRun_start_lastSundays : ∃ o ∈
    (lastSundays.seriesRun lastSunday .standard nextMarch).occurrences, ∃ anchor n c,
      lastSundays.start.inZone (.region .london) = .ok anchor ∧
      (seriesAt lastSunday .standard anchor).cursorAt n = some c ∧
      Moment.localize c (.region .london) = .ok o.start ∧ c.time = anchor.wall.time ∧
      c.pass = (if (seriesAt lastSunday .standard anchor).isPeriodic ∨ n = 0
        then anchor.wall.pass else .first) ∧
      (StartsAsShown (.region .london) c o.start ↔ ¬Region.london.ReadsEarly c.pass c.count) ∧
      (Region.london.ReadsEarly c.pass c.count → o.start.wall.count < c.count) := by
  obtain ⟨o, ho, -⟩ : ∃ o ∈ (lastSundays.seriesRun lastSunday .standard nextMarch).occurrences,
      o.recurring = true := by decide +kernel
  exact ⟨o, ho, seriesRun_start (by decide +kernel) ho⟩

end Event

end RecurringEvents
