import RecurringEvents.Proofs.Expansion.LastMoment
import RecurringEvents.Proofs.Rule.RoundTrip
import RecurringEvents.Session

/-!
# Stored rules

A rule that is written as a text and read again expands an event to the same occurrences. The text
keeps the series; only the last moment changes, as it comes back in UTC. There it is compared by its
instant, so nothing changes if it was in another zone than the event, or at a wall time that both
passes read alike.

* `Rule.bare_written`: what a text keeps.
* `Walk.stopsAlike_of_instant`: last moments at one instant.
* `Session.expandRule_text`: an event and the text of its rule.
-/

namespace RecurringEvents

/-- A text keeps the series of a rule. -/
theorem Rule.bare_written (r : Rule) (last : Option Wall) (h : ∀ w ∈ last, w.time.micro = 0) :
    (r.written last h).bare = r.bare := by
  simp only [bare, written, days, monthDays, months, setPositions, getD_unlessEmpty]

/-- **Last moments at one instant stop a walk alike**, if they are compared with its starts by this
instant. -/
theorem Walk.stopsAlike_of_instant {w : Walk} {rule : Rule} (hz : w.zone.IsOrderly)
    (hsame : rule.lastMoment.map Moment.instant = w.rule.lastMoment.map Moment.instant)
    (h : ∀ m ∈ rule.lastMoment, m.zone = w.zone → m.dependsOnPass = false)
    (h' : ∀ m ∈ w.rule.lastMoment, m.zone = w.zone → m.dependsOnPass = false) :
    w.StopsAlike rule := by
  intro c start hs
  obtain ⟨hzone, -, hreal⟩ := Moment.of_localize hz hs
  have hbefore : ∀ m : Moment, (m.zone = w.zone → m.dependsOnPass = false) →
      m.before start = decide (m.instant < start.instant) := fun m hm =>
    Moment.before_of_settled (hzone ▸ hz) (fun hmz => hm (hmz.trans hzone)) hreal
  have hany : ∀ last : Option Moment, (∀ m ∈ last, m.zone = w.zone → m.dependsOnPass = false) →
      last.any (fun m => m.before start)
        = (last.map Moment.instant).any fun t => decide (t < start.instant) := by
    intro last hlast
    cases last with
    | none => rfl
    | some m => exact hbefore m (hlast m rfl)
  unfold isPast
  rw [hany _ h', ← hsame, ← hany _ h]
  rfl

namespace Session

open Event (nights nightly fourNights)

variable {e : Event} {rule : Rule} {r : Region}

/--
**An event is expanded by the text of its rule as it is by the rule**, with the same identifiers,
starts and ends, or with the same error. The rule excludes and adds nothing, its numbers have no
more digits than are read, and its last moment has a year of four digits in UTC; if that moment is
in the zone of the event, its wall time is one that both passes read alike.
-/
theorem expandRule_text [ZoneDatabase] (s : Session) (marked : Bool) (limits : Limits) (q : Query)
    (hz : ZoneName.resolve? e.timeZone = some r) (hrule : e.rule = some rule)
    (hexcluded : rule.excluded = []) (hx : rule.extras = [])
    (hinterval : (Text.integer rule.interval).length ≤ Text.digitLimit)
    (hcount : ∀ n ∈ rule.count, (Text.integer n).length ≤ Text.digitLimit)
    (hlast : ∀ m ∈ rule.lastMoment, ∃ u, m.inUtc = .ok u ∧ 1000 ≤ u.wall.date.year)
    (hsettled : ∀ m ∈ rule.lastMoment, m.zone = .region r → m.dependsOnPass = false) :
    ∃ text, rule.text marked = .ok text ∧
      (s.expandRule e (some (String.ofList text)) [] limits q).map (List.map Occurrence.slot)
        = (e.expand limits q).map fun x => x.occurrences.map Occurrence.slot := by
  have hzone := Event.calendarZone_of_resolve? hz
  obtain ⟨last, hwall, hwrite, hinstant⟩ := rule.exists_last hlast
  have hread := rule.read_fieldsText (s.floatingZone (some e.timeZone)) marked hinterval
    hcount hwall
  refine ⟨_, bind_eq_ok_iff.2 ⟨_, hwrite, rfl⟩, ?_⟩
  have hstored : e.withRuleText (s.floatingZone (some e.timeZone))
      (some (String.ofList ((if marked then Fields.mark else [])
        ++ Rule.fieldsText (rule.fields (last.map Token.ofWall))))) []
      = e.withRule (some (rule.written last fun w hw => (hwall w hw).2)) := by
    rw [Event.withRuleText, Option.bind_some, String.toList_ofList, Rule.read?, hread]
    rfl
  have hslots : ∀ x : Except ExpansionError Expansion,
      (x.map Expansion.occurrences).map (List.map Occurrence.slot)
        = x.map fun x => x.occurrences.map Occurrence.slot := by
    intro x
    cases x <;> rfl
  rw [expandRule, hstored, hslots]
  refine Event.slots_withRule hrule hx rfl (Rule.bare_written _ _ _) hexcluded.symm fun c w hw => ?_
  have hwzone : w.zone = .region r := (Event.zone_of_walk hw).trans hzone
  obtain rfl := Event.rule_of_walk hw
  refine Walk.stopsAlike_of_instant (hwzone ▸ ZoneName.isOrderly_of_resolve? hz) ?_ ?_
    (hwzone ▸ hsettled)
  · -- what is read has the same instant
    rw [← hinstant]
    cases last with
    | none => rfl
    | some u => exact congrArg some (Moment.instant_ofUtc _)
  · -- and is in UTC
    intro m hm hregion
    obtain ⟨u, -, rfl⟩ := Option.map_eq_some_iff.1 hm
    exact absurd (hregion.trans hwzone).symm Moment.region_ne_utc

/-! ## Examples -/

/-- The last moment in the second pass of the night of the 27th stops the series before the start in
the first pass. Stored, it is compared by its instant, and the night is there. -/
theorem nights_stored : ∃ text x os, (nightly 27 90 .second).text = .ok text ∧
    (nights (nightly 27 90 .second)).expand .standard fourNights = .ok x ∧
    ({} : Session).expandRule (nights (nightly 27 90 .second)) (some (String.ofList text)) []
      .standard fourNights = .ok os ∧
    os.map Occurrence.slot ≠ x.occurrences.map Occurrence.slot := by
  obtain ⟨x, hx, hlength⟩ :
      ∃ x, (nights (nightly 27 90 .second)).expand .standard fourNights = .ok x ∧
        x.occurrences.length = 1 := exists_ok_of_any (by decide +kernel)
  obtain ⟨text, htext, hread⟩ : ∃ text, (nightly 27 90 .second).text = .ok text ∧
      text = "RRULE:FREQ=DAILY;UNTIL=20241027T013000Z".toList :=
      exists_ok_of_any (by decide +kernel)
  obtain ⟨os, hos, hlength'⟩ : ∃ os, ({} : Session).expandRule (nights (nightly 27 90 .second))
      (some "RRULE:FREQ=DAILY;UNTIL=20241027T013000Z") [] .standard fourNights = .ok os ∧
      os.length = 2 := exists_ok_of_any (by decide +kernel)
  have hstored : ({} : Session).expandRule (nights (nightly 27 90 .second))
      (some (String.ofList text)) [] .standard fourNights = .ok os := by
    rw [hread, String.ofList_toList]
    exact hos
  refine ⟨text, x, os, htext, hx, hstored, Occurrence.slots_ne ?_⟩
  rw [hlength, hlength']
  decide

/-- With the last moment at the start of the night of the 28th there are three nights, stored or
not. -/
theorem nights_storedInTime : ∃ text x, (nightly 28 105 .first).text = .ok text ∧
    (nights (nightly 28 105 .first)).expand .standard fourNights = .ok x ∧
    x.occurrences.length = 3 ∧
    (({} : Session).expandRule (nights (nightly 28 105 .first)) (some (String.ofList text)) []
      .standard fourNights).map (List.map Occurrence.slot)
        = .ok (x.occurrences.map Occurrence.slot) := by
  obtain ⟨x, hx, hlength⟩ :
      ∃ x, (nights (nightly 28 105 .first)).expand .standard fourNights = .ok x ∧
        x.occurrences.length = 3 := exists_ok_of_any (by decide +kernel)
  have hlast : ∀ m ∈ (nightly 28 105 .first).lastMoment, ∃ u, m.inUtc = .ok u ∧
      1000 ≤ u.wall.date.year := by
    intro m hm
    cases hm
    exact exists_ok_of_any (by decide +kernel)
  have hsettled : ∀ m ∈ (nightly 28 105 .first).lastMoment, m.zone = .region .london →
      m.dependsOnPass = false := by
    intro m hm _
    cases hm
    decide +kernel
  obtain ⟨text, htext, hstored⟩ := expandRule_text (e := nights (nightly 28 105 .first)) {} true
    .standard fourNights (by decide +kernel) rfl rfl rfl (by decide +kernel)
    (by decide +kernel) hlast
    hsettled
  exact ⟨text, x, htext, hx, hlength, by rw [hstored, hx]; rfl⟩

end Session

end RecurringEvents
