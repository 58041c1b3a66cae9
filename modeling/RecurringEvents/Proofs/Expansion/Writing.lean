import RecurringEvents.Proofs.Expansion.Failure
import RecurringEvents.Proofs.Expansion.WallClock
import RecurringEvents.Proofs.Moment.Writing

/-!
# Times that are written in other zones

A recurring event is expanded by the zone that it names, and its own start and end count as instants
only. So it makes no difference in which zones they are written. The exception is a start that is
written in the named zone itself, which is then left as it is: in the hour at Nuuk that is read
early its wall time is not the one that the zone shows at its instant.

* `Event.writtenAs`: an event with its times written in another way.
* `Walk.run_withEvent`: what a walk reads of the event.
* `Event.expand_of_writtenAs`: the expansions are the same.
-/

namespace RecurringEvents

/-! ## Runs -/

namespace Walk

/-- The walk for another event. -/
def withEvent (w : Walk) (e : Event) : Walk := { w with event := e }

variable {w : Walk} {e : Event}

/-- A walk reads of the event only the occurrences that it asks for. -/
theorem move_withEvent (h : e.occurrenceAt w.zone true = w.event.occurrenceAt w.zone true)
    (p : Progress) : (w.withEvent e).move p = w.move p := by
  have hstops : (w.withEvent e).stops? p = w.stops? p := rfl
  have hshown : (w.withEvent e).isShown = w.isShown := rfl
  unfold move
  rw [hstops, hshown, withEvent, h]
  rfl

theorem runFrom_withEvent (h : e.occurrenceAt w.zone true = w.event.occurrenceAt w.zone true)
    (n : Nat) (p : Progress) : (w.withEvent e).runFrom n p = w.runFrom n p := by
  induction n generalizing p with
  | zero => rfl
  | succ n ih =>
    unfold runFrom
    rw [move_withEvent h]
    cases w.move p with
    | stop ending => rfl
    | next q => exact ih q

/-- **The whole run.** -/
theorem run_withEvent (h : e.occurrenceAt w.zone true = w.event.occurrenceAt w.zone true) :
    (w.withEvent e).run = w.run :=
  runFrom_withEvent h _ _

end Walk

/-! ## Events -/

namespace Event

/-- The event with other moments for its start and its end. -/
def writtenAs (e : Event) (start finish : Moment) (h : Moment.notAfter finish start = false) :
    Event :=
  { e with start := start, finish := finish, finish_after_start := h }

variable {e : Event} {start finish : Moment} {h : Moment.notAfter finish start = false}
  {r : Region} {rule : Rule} {limits : Limits} {c : CheckedQuery}

theorem duration_writtenAs (hs : start.instant = e.start.instant)
    (hf : finish.instant = e.finish.instant) :
    (e.writtenAs start finish h).duration = e.duration := by
  refine (failsOnly_duration _).ext e.failsOnly_duration fun d => ?_
  simp only [duration_eq_ok_iff, Moment.exists_inUtc_iff, writtenAs, hs, hf]

/-- Occurrences depend on the duration only. -/
theorem occurrenceAt_writtenAs (hd : (e.writtenAs start finish h).duration = e.duration) :
    (e.writtenAs start finish h).occurrenceAt = e.occurrenceAt := by
  funext zone recurring m
  unfold occurrenceAt
  rw [hd]
  rfl

/-- Where an event has no duration, no window is found. -/
theorem exists_duration_of_windowOf {window : Window} (hw : e.windowOf c = .ok window) :
    ∃ d, e.duration = .ok d := by
  obtain ⟨d, hd, -⟩ := windowOf_eq_ok_iff.1 hw
  exact ⟨d, hd⟩

/-- Two writings of an event that no step of an expansion can tell apart. -/
structure SameShown [ZoneDatabase] (e e' : Event) : Prop where
  zone : e'.calendarZone = e.calendarZone
  duration : e'.duration = e.duration
  anchor : (∃ d, e.duration = .ok d) →
    e'.start.inZone e.calendarZone = e.start.inZone e.calendarZone
  made : e'.occurrenceAt = e.occurrenceAt

namespace SameShown

variable {e' : Event}

theorem windowOf [ZoneDatabase] (h : e.SameShown e') : e'.windowOf c = e.windowOf c := by
  rw [Event.windowOf, Event.windowOf, h.duration]

/-- The walks differ in the event only. -/
theorem walk [ZoneDatabase] (h : e.SameShown e') :
    e'.walk rule limits c = (e.walk rule limits c).map fun w => w.withEvent e' := by
  cases hwindow : e.windowOf c with
  | error err =>
    have hnone : ∀ e'' : Event, e''.windowOf c = .error err →
        e''.walk rule limits c = .error (.calendar .outOfRange) := by
      intro e'' hfail
      refine (e''.failsOnly_walk rule limits c).eq_error fun ⟨w, hw⟩ => ?_
      obtain ⟨anchor, days, window, -, -, hok, -⟩ := walk_eq_ok_iff.1 hw
      cases hfail.symm.trans hok
    rw [hnone e hwindow, hnone e' (h.windowOf.trans hwindow)]
    rfl
  | ok window =>
    unfold Event.walk
    simp only [h.zone, h.anchor (exists_duration_of_windowOf hwindow), h.windowOf, hwindow]
    cases lift (e.start.inZone e.calendarZone) with
    | error err => rfl
    | ok anchor => cases lift (daysIn e.calendarZone rule.excluded) <;> rfl

/-- The series are run alike. -/
theorem seriesRun [ZoneDatabase] (h : e.SameShown e') :
    e'.seriesRun rule limits c = e.seriesRun rule limits c := by
  unfold Event.seriesRun
  rw [h.walk]
  cases hw : e.walk rule limits c with
  | error err => rfl
  | ok w =>
    refine Walk.run_withEvent ?_
    rw [h.made, event_of_walk hw]

/-- The same occurrences are added. -/
theorem extrasIn [ZoneDatabase] (h : e.SameShown e') : e'.extrasIn rule c = e.extrasIn rule c := by
  unfold Event.extrasIn extraOccurrences
  rw [h.zone, h.windowOf, h.made]
  cases hwindow : e.windowOf c with
  | error err => simp only [bind, Except.bind]
  | ok window => rw [h.anchor (exists_duration_of_windowOf hwindow)]

/-- **The expansions by a rule are the same.** -/
theorem expand [ZoneDatabase] (h : e.SameShown e') (hrule : e.rule = some rule)
    (hrule' : e'.rule = some rule)
    (q : Query) : e'.expand limits q = e.expand limits q := by
  have hoccurrences : e'.occurrences limits = e.occurrences limits := by
    funext c
    unfold Event.occurrences
    simp only [hrule, hrule', h.seriesRun, h.extrasIn]
  unfold Event.expand
  rw [hoccurrences]

end SameShown

/-- Moments of the same instants make an event that is shown alike. -/
theorem sameShown_writtenAs [ZoneDatabase] (hz : ZoneName.resolve? e.timeZone = some r)
    (hs : start.instant = e.start.instant) (hf : finish.instant = e.finish.instant)
    (hnew : start.zone = .region r → start.IsExisting)
    (hold : e.start.zone = .region r → e.start.IsExisting)
    (hboth : (start.zone = .region r ∧ start.IsMisread) ↔
      (e.start.zone = .region r ∧ e.start.IsMisread)) :
    e.SameShown (e.writtenAs start finish h) where
  zone := by
    rw [calendarZone_of_resolve? hz]
    exact calendarZone_of_resolve? hz
  duration := duration_writtenAs hs hf
  anchor := by
    rintro ⟨d, hd⟩
    obtain ⟨-, hstart, -⟩ := duration_eq_ok_iff.1 hd
    rw [calendarZone_of_resolve? hz]
    exact Moment.inZone_congr (calendarZone_of_resolve? hz ▸ isOrderly_of_resolve? hz) hnew hold
      hboth hs (Moment.exists_inUtc_iff.1 hstart)
  made := occurrenceAt_writtenAs (duration_writtenAs hs hf)

/--
**An expansion by a rule depends on the start and the end of the event as instants only.** With its
times written in any zones it is the same expansion, or the same failure, if a start that is written
in the zone of the event exists there and not just one of the two starts is in the hour at Nuuk that
is read early.
-/
theorem expand_of_writtenAs [ZoneDatabase] (hz : ZoneName.resolve? e.timeZone = some r)
    (hrule : e.rule = some rule) (hs : start.instant = e.start.instant)
    (hf : finish.instant = e.finish.instant)
    (hnew : start.zone = .region r → start.IsExisting)
    (hold : e.start.zone = .region r → e.start.IsExisting)
    (hboth : (start.zone = .region r ∧ start.IsMisread) ↔
      (e.start.zone = .region r ∧ e.start.IsMisread))
    (limits : Limits) (q : Query) :
    (e.writtenAs start finish h).expand limits q = e.expand limits q :=
  (sameShown_writtenAs hz hs hf hnew hold hboth).expand hrule hrule q

/-! ## Examples -/

/-- What the clock at Nuuk shows on a day of October 2023, in the first pass. -/
def nuukOctober (day : Int) (minutes : Nat) : Moment :=
  ⟨⟨.near 2023 10 day, .ofMinutes minutes, .first⟩, .region .nuuk⟩

/-- Two evenings at Nuuk. The first one begins in the hour that is read early, at half past midnight
in UTC. -/
def twoEvenings : Event where
  id := "evenings"
  start := nuukOctober 28 1410
  finish := .ofUtc ⟨.near 2023 10 29, .ofMinutes 120, .first⟩
  timeZone := "America/Nuuk"
  rule := some (.daily 2)
  finish_after_start := by decide +kernel

/-- These evenings with the first start written in UTC. -/
def twoEveningsInUtc : Event :=
  twoEvenings.writtenAs (.ofUtc ⟨.near 2023 10 29, .ofMinutes 30, .first⟩) twoEvenings.finish
    (by decide +kernel)

/-- The days around these evenings. -/
def endOfOctober : Query where
  start := .ofUtc ⟨.near 2023 10 28, .midnight, .first⟩
  finish := .ofUtc ⟨.near 2023 11 1, .midnight, .first⟩

/-- The second evening begins an hour later if the start is written at Nuuk, although its wall time
exists there. -/
theorem twoEvenings_not_rewritten : ZoneName.resolve? twoEvenings.timeZone = some .nuuk ∧
    twoEveningsInUtc.start.instant = twoEvenings.start.instant ∧
    twoEveningsInUtc.start.IsExisting ∧ twoEvenings.start.IsExisting ∧
    ∃ x y, twoEvenings.expand .standard endOfOctober = .ok x ∧
      twoEveningsInUtc.expand .standard endOfOctober = .ok y ∧
      x.occurrences.map (·.start) = [nuukOctober 28 1350, nuukOctober 29 1410] ∧
      y.occurrences.map (·.start) = [nuukOctober 28 1350, nuukOctober 29 1350] := by
  have hutc : twoEveningsInUtc.start.IsExisting := by
    refine ⟨⟨twoEveningsInUtc.start.instant, by decide +kernel⟩, ?_⟩
    intro h
    cases h
  have hnuuk : twoEvenings.start.IsExisting := by
    refine ⟨⟨twoEvenings.start.instant + 3600 * secondMicros, by decide +kernel⟩, ?_⟩
    intro h
    cases h
  obtain ⟨x, hx, hxs⟩ : ∃ x, twoEvenings.expand .standard endOfOctober = .ok x ∧
      x.occurrences.map (·.start) = [nuukOctober 28 1350, nuukOctober 29 1410] :=
    exists_ok_of_any (by decide +kernel)
  obtain ⟨y, hy, hys⟩ : ∃ y, twoEveningsInUtc.expand .standard endOfOctober = .ok y ∧
      y.occurrences.map (·.start) = [nuukOctober 28 1350, nuukOctober 29 1350] :=
    exists_ok_of_any (by decide +kernel)
  exact ⟨by decide +kernel, by decide +kernel, hutc, hnuuk, x, y, hx, hy, hxs, hys⟩

/-- Three nights in London, the first one from half past one in the second pass. -/
def threeNights : Event where
  id := "nights"
  start := .london (.near 2024 10 27) 90 .second
  finish := .london (.near 2024 10 27) 150
  timeZone := "Europe/London"
  rule := some (.daily 3)
  finish_after_start := lastSundays.finish_after_start

/-- These nights with the first start written two hours east of UTC. -/
def threeNightsEast : Event :=
  threeNights.writtenAs ⟨⟨.near 2024 10 27, .ofMinutes 210, .first⟩, .fixed 7200⟩ threeNights.finish
    (by decide +kernel)

/-- The days around these nights. -/
def lastDays : Query where
  start := .ofUtc ⟨.near 2024 10 26, .midnight, .first⟩
  finish := .ofUtc ⟨.near 2024 11 1, .midnight, .first⟩

/-- It makes no difference that the first night is written in the second pass. -/
theorem threeNights_rewritten : threeNights.start.wall.pass = .second ∧
    ∃ x, threeNights.expand .standard lastDays = .ok x ∧
      x.occurrences.map (·.start) = [.london (.near 2024 10 27) 90 .second,
        .london (.near 2024 10 28) 90, .london (.near 2024 10 29) 90] ∧
      threeNightsEast.expand .standard lastDays = .ok x := by
  have hexists : threeNights.start.IsExisting := by
    refine ⟨⟨threeNights.start.instant, by decide +kernel⟩, ?_⟩
    intro _
    decide +kernel
  have hclear : ¬threeNights.start.IsMisread := by
    rintro ⟨r, -, -, hfirst, -⟩
    cases hfirst
  have hsame : threeNightsEast.expand .standard lastDays = threeNights.expand .standard lastDays :=
    expand_of_writtenAs (r := .london) (by decide +kernel) rfl (by decide +kernel) rfl
      (fun hzone => by cases hzone) (fun _ => hexists)
      ⟨fun hnew => (by cases hnew.1), fun hold => absurd hold.2 hclear⟩ _ _
  obtain ⟨x, hx, hstarts⟩ : ∃ x, threeNights.expand .standard lastDays = .ok x ∧
      x.occurrences.map (·.start) = [.london (.near 2024 10 27) 90 .second,
        .london (.near 2024 10 28) 90, .london (.near 2024 10 29) 90] :=
    exists_ok_of_any (by decide +kernel)
  exact ⟨rfl, x, hx, hstarts, hsame.trans hx⟩

end Event

end RecurringEvents
