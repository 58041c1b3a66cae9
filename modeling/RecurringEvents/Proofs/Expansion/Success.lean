import RecurringEvents.Expansion.Query
import RecurringEvents.Proofs.Outcome
import RecurringEvents.Proofs.Zone.Reading

/-!
# What a successful expansion has gone through

One lemma for each step of an expansion: what it has computed when it succeeds, and when it does.
Ranges and windows are moments of UTC, so they are compared with the moments of a region by their
instants.

* `Event.occurrenceAt_eq_ok_iff`: when an occurrence is made, and which.
* `Query.check_eq_ok`: a checked range has the instants of the range.
* `Event.walk_eq_ok_iff`: when a walk begins, and which.
* `Event.expand_eq_ok_iff`: an expansion succeeds if its run is not a failed one.
-/

namespace RecurringEvents

namespace Moment

/-- Moments of different zones are compared by their instants. -/
theorem before_of_ne {a b : Moment} (h : a.zone ≠ b.zone) :
    a.before b = decide (a.instant < b.instant) := by
  rw [before, places, if_neg h]

theorem notAfter_of_ne {a b : Moment} (h : a.zone ≠ b.zone) :
    a.notAfter b = decide (a.instant ≤ b.instant) := by
  rw [notAfter, places, if_neg h]

theorem region_ne_utc {r : Region} : Zone.region r ≠ Zone.utc := by
  intro h
  cases h

/-- The instant of a moment of UTC is its wall time. -/
theorem instant_of_utc {m : Moment} (h : m.zone = .utc) : m.instant = m.wall.count := by
  rw [instant_eq, h]
  simp [Zone.readAt, Zone.utc, Zone.offsetFor]

/-- A moment of UTC is compared with any other one by its instant. -/
theorem before_of_utc {a b : Moment} (h : b.zone = .utc) :
    a.before b = decide (a.instant < b.instant) := by
  by_cases hz : a.zone = b.zone
  · rw [before, places, if_pos hz, instant_of_utc h, instant_of_utc (hz.trans h)]
  · exact before_of_ne hz

theorem before_of_utc_left {a b : Moment} (h : a.zone = .utc) :
    a.before b = decide (a.instant < b.instant) := by
  by_cases hz : a.zone = b.zone
  · exact before_of_utc (hz.symm.trans h)
  · exact before_of_ne hz

theorem notAfter_of_utc {a b : Moment} (h : a.zone = .utc) :
    a.notAfter b = decide (a.instant ≤ b.instant) := by
  by_cases hz : a.zone = b.zone
  · rw [notAfter, places, if_pos hz, instant_of_utc h, instant_of_utc (hz.symm.trans h)]
  · exact notAfter_of_ne hz

/-- A moment has one of UTC exactly if its instant lies in the years 1 to 9999. -/
theorem exists_inUtc_iff {m : Moment} :
    (∃ u, m.inUtc = .ok u) ↔ Wall.firstCount ≤ m.instant ∧ m.instant < Wall.endCount := by
  constructor
  · rintro ⟨u, hu⟩
    rw [← (count_of_inUtc hu).2]
    exact ⟨u.wall.firstCount_le, u.wall.count_lt⟩
  · rintro ⟨h1, h2⟩
    unfold inUtc inZone
    split
    · exact ⟨m, rfl⟩
    · have hshown : Zone.utc.shown m.instant = m.instant := by
        simp [Zone.shown, Zone.utc, Zone.offsetAt]
      exact Zone.utc.exists_atInstant h1 h2 (by rwa [hshown]) (by rwa [hshown])

/-- Moving a moment of UTC moves its instant. -/
theorem add_eq_ok_of_utc {m n : Moment} {k : Int} (hm : m.zone = .utc) (h : m.add k = .ok n) :
    n.zone = .utc ∧ n.wall.count = m.wall.count + k ∧ n.instant = m.instant + k := by
  unfold add at h
  split at h
  · next w hw =>
    cases h
    have hc := (Wall.count_of_ofCount? hw).1
    refine ⟨hm, hc, ?_⟩
    simp only [instant_eq, hm, Zone.utc, Zone.readAt, Zone.offsetFor, hc]
    omega
  · cases h

/-- A moment can be moved within the years 1 to 9999. -/
theorem exists_add {m : Moment} {k : Int} (h1 : Wall.firstCount ≤ m.wall.count + k)
    (h2 : m.wall.count + k < Wall.endCount) : ∃ n, m.add k = .ok n := by
  obtain ⟨w, hw⟩ := Wall.exists_ofCount? h1 h2
  refine ⟨⟨w, m.zone⟩, ?_⟩
  unfold add
  rw [Wall.add?, hw]

end Moment

namespace Event

theorem lift_eq_ok_iff {α : Type} {x : Except CalendarError α} {a : α} :
    lift x = .ok a ↔ x = .ok a := by
  cases x with
  | error e => simp [lift]
  | ok b => simp [lift]

variable {e : Event}

/-- An event has a duration if its times have moments of UTC. -/
theorem duration_eq_ok_iff {d : Int} :
    e.duration = .ok d ↔ (∃ v, e.finish.inUtc = .ok v) ∧ (∃ u, e.start.inUtc = .ok u) ∧
      d = e.finish.instant - e.start.instant := by
  unfold duration Moment.elapsed
  constructor
  · intro h
    obtain ⟨v, hv, h⟩ := bind_eq_ok_iff.1 h
    obtain ⟨u, hu, h⟩ := bind_eq_ok_iff.1 h
    cases h
    rw [Moment.instant_of_inZone Zone.isOrderly_utc hv,
      Moment.instant_of_inZone Zone.isOrderly_utc hu]
    exact ⟨⟨v, hv⟩, ⟨u, hu⟩, rfl⟩
  · rintro ⟨⟨v, hv⟩, ⟨u, hu⟩, rfl⟩
    refine bind_eq_ok_iff.2 ⟨v, hv, bind_eq_ok_iff.2 ⟨u, hu, ?_⟩⟩
    rw [Moment.instant_of_inZone Zone.isOrderly_utc hv,
      Moment.instant_of_inZone Zone.isOrderly_utc hu]
    rfl

/-- **An occurrence is made if it stays within the calendar and does not end before it starts.** -/
theorem occurrenceAt_eq_ok_iff {z : Zone} {recurring : Bool} {start : Moment} {o : Occurrence} :
    e.occurrenceAt z recurring start = .ok o ↔ ∃ u d v finish, start.inUtc = .ok u ∧
      e.duration = .ok d ∧ u.add d = .ok v ∧ v.inZone z = .ok finish ∧
      ∃ h : Moment.notAfter finish start = false, o = { e with
        id := if recurring then occurrenceId e.id start else e.id
        start := start, finish := finish, finish_after_start := h, recurring := recurring,
        instanceDate := start, masterId := if recurring then some e.id else none } := by
  unfold occurrenceAt
  constructor
  · intro h
    obtain ⟨u, hu, h⟩ := bind_eq_ok_iff.1 h
    obtain ⟨d, hd, h⟩ := bind_eq_ok_iff.1 h
    obtain ⟨v, hv, h⟩ := bind_eq_ok_iff.1 h
    obtain ⟨finish, hf, h⟩ := bind_eq_ok_iff.1 h
    split at h
    · next hafter =>
      cases h
      exact ⟨u, d, v, finish, lift_eq_ok_iff.1 hu, lift_eq_ok_iff.1 hd, lift_eq_ok_iff.1 hv,
        lift_eq_ok_iff.1 hf, hafter, rfl⟩
    · cases h
  · rintro ⟨u, d, v, finish, hu, hd, hv, hf, hafter, rfl⟩
    refine bind_eq_ok_iff.2 ⟨u, lift_eq_ok_iff.2 hu, bind_eq_ok_iff.2 ⟨d, lift_eq_ok_iff.2 hd,
      bind_eq_ok_iff.2 ⟨v, lift_eq_ok_iff.2 hv,
        bind_eq_ok_iff.2 ⟨finish, lift_eq_ok_iff.2 hf, ?_⟩⟩⟩⟩
    exact dif_pos hafter

theorem start_of_occurrenceAt {z : Zone} {recurring : Bool} {start : Moment} {o : Occurrence}
    (h : e.occurrenceAt z recurring start = .ok o) : o.start = start := by
  obtain ⟨u, d, v, finish, -, -, -, -, -, rfl⟩ := occurrenceAt_eq_ok_iff.1 h
  rfl

/-- The window of an event in a range. -/
theorem windowOf_eq_ok_iff {q : CheckedQuery} {w : Window} :
    e.windowOf q = .ok w ↔ ∃ d, e.duration = .ok d ∧ q.start.add (-d) = .ok w.start ∧
      w.finish = q.finish := by
  unfold windowOf
  constructor
  · intro h
    obtain ⟨d, hd, h⟩ := bind_eq_ok_iff.1 h
    obtain ⟨start, hs, h⟩ := bind_eq_ok_iff.1 h
    cases h
    exact ⟨d, lift_eq_ok_iff.1 hd, lift_eq_ok_iff.1 hs, rfl⟩
  · rintro ⟨d, hd, hs, hf⟩
    refine bind_eq_ok_iff.2 ⟨d, lift_eq_ok_iff.2 hd, bind_eq_ok_iff.2 ⟨w.start, lift_eq_ok_iff.2 hs,
      ?_⟩⟩
    rw [← hf]
    rfl

/-- The series of an event whose start is shown at `anchor`. -/
def seriesAt (rule : Rule) (limits : Limits) (anchor : Moment) : Series :=
  ⟨rule, anchor.wall, limits.maxEmptyPeriods⟩

@[simp] theorem seriesAt_anchor (rule : Rule) (limits : Limits) (anchor : Moment) :
    (seriesAt rule limits anchor).anchor = anchor.wall := rfl

/-- The walk through the series of an event. -/
theorem walk_eq_ok_iff [ZoneDatabase] {rule : Rule} {limits : Limits} {q : CheckedQuery}
    {w : Walk} :
    e.walk rule limits q = .ok w ↔ ∃ anchor days window,
      e.start.inZone e.calendarZone = .ok anchor ∧
      daysIn e.calendarZone rule.excluded = .ok days ∧ e.windowOf q = .ok window ∧
      w = ⟨e, seriesAt rule limits anchor, e.calendarZone, window, days, q.cap,
        limits.maxIterations⟩ := by
  unfold walk
  constructor
  · intro h
    obtain ⟨anchor, ha, h⟩ := bind_eq_ok_iff.1 h
    obtain ⟨days, hd, h⟩ := bind_eq_ok_iff.1 h
    obtain ⟨window, hw, h⟩ := bind_eq_ok_iff.1 h
    cases h
    exact ⟨anchor, days, window, lift_eq_ok_iff.1 ha, lift_eq_ok_iff.1 hd, hw, rfl⟩
  · rintro ⟨anchor, days, window, ha, hd, hw, rfl⟩
    exact bind_eq_ok_iff.2 ⟨anchor, lift_eq_ok_iff.2 ha, bind_eq_ok_iff.2 ⟨days,
      lift_eq_ok_iff.2 hd, bind_eq_ok_iff.2 ⟨window, hw, rfl⟩⟩⟩

theorem event_of_walk [ZoneDatabase] {rule : Rule} {limits : Limits} {q : CheckedQuery} {w : Walk}
    (h : e.walk rule limits q = .ok w) : w.event = e := by
  obtain ⟨anchor, days, window, -, -, -, rfl⟩ := walk_eq_ok_iff.1 h
  rfl

/-- A walk goes through the calendar of its event. -/
theorem zone_of_walk [ZoneDatabase] {rule : Rule} {limits : Limits} {q : CheckedQuery} {w : Walk}
    (h : e.walk rule limits q = .ok w) : w.zone = e.calendarZone := by
  obtain ⟨anchor, days, window, -, -, -, rfl⟩ := walk_eq_ok_iff.1 h
  rfl

theorem calendarZone_of_resolve? [ZoneDatabase] {r : Region}
    (h : ZoneName.resolve? e.timeZone = some r) : e.calendarZone = .region r := by
  rw [calendarZone, h]

end Event

/-- The calendar zone of an event is orderly if its name stands for a region. -/
theorem Event.isOrderly_of_resolve? [ZoneDatabase] {e : Event} {r : Region}
    (h : ZoneName.resolve? e.timeZone = some r) : e.calendarZone.IsOrderly := by
  rw [calendarZone_of_resolve? h]
  exact ZoneName.isOrderly_of_resolve? h

/-- A checked range is the range in UTC. -/
theorem Query.check_eq_ok {q : Query} {limits : Limits} {c : CheckedQuery}
    (h : q.check limits = .ok c) :
    q.start.inUtc = .ok c.start ∧ q.finish.inUtc = .ok c.finish ∧
      c.cap = q.cap.getD limits.maxInstances ∧ 1 ≤ c.cap := by
  unfold check at h
  simp only at h
  split at h
  · cases h
  · next hcap =>
    obtain ⟨start, hs, h⟩ := bind_eq_ok_iff.1 h
    obtain ⟨finish, hf, h⟩ := bind_eq_ok_iff.1 h
    split at h
    · cases h
    · cases h
      exact ⟨Event.lift_eq_ok_iff.1 hs, Event.lift_eq_ok_iff.1 hf, rfl, by simp only; omega⟩

/-- A range is accepted if it is not reversed and the cap is positive. -/
theorem Query.check_of_le {q : Query} {limits : Limits} {start finish : Moment}
    (hcap : 1 ≤ q.cap.getD limits.maxInstances) (hs : q.start.inUtc = .ok start)
    (hf : q.finish.inUtc = .ok finish) (hle : q.start.instant ≤ q.finish.instant) :
    q.check limits = .ok ⟨start, finish, q.cap.getD limits.maxInstances⟩ := by
  have hforward : finish.before start = false := by
    rw [Moment.before_of_utc (Moment.zone_of_inZone hs),
      Moment.instant_of_inZone Zone.isOrderly_utc hs,
      Moment.instant_of_inZone Zone.isOrderly_utc hf]
    simpa using hle
  unfold check
  simp only
  rw [if_neg (by omega)]
  refine bind_eq_ok_iff.2 ⟨start, Event.lift_eq_ok_iff.2 hs, bind_eq_ok_iff.2 ⟨finish,
    Event.lift_eq_ok_iff.2 hf, ?_⟩⟩
  rw [hforward]
  rfl

/-- The window of an event in a range of UTC. -/
theorem Event.windowOf_utc {e : Event} {limits : Limits} {q : Query} {c : CheckedQuery}
    {w : Window} (hc : q.check limits = .ok c)
    (hw : e.windowOf c = .ok w) : ∃ d, e.duration = .ok d ∧
      (w.start.zone = .utc ∧ w.start.instant = q.start.instant - d) ∧
      (w.finish.zone = .utc ∧ w.finish.instant = q.finish.instant) := by
  obtain ⟨hs, hf, -, -⟩ := Query.check_eq_ok hc
  obtain ⟨d, hd, hstart, hfinish⟩ := windowOf_eq_ok_iff.1 hw
  obtain ⟨hzone, -, hinstant⟩ := Moment.add_eq_ok_of_utc (Moment.zone_of_inZone hs) hstart
  rw [Moment.instant_of_inZone Zone.isOrderly_utc hs] at hinstant
  exact ⟨d, hd, ⟨hzone, hinstant⟩,
    ⟨hfinish ▸ Moment.zone_of_inZone hf, hfinish ▸ Moment.instant_of_inZone Zone.isOrderly_utc hf⟩⟩

/-- **An expansion succeeds if the range can be checked and the run is not a failed one.** -/
theorem Event.expand_eq_ok_iff [ZoneDatabase] {e : Event} {limits : Limits} {q : Query}
    {x : Expansion} :
    e.expand limits q = .ok x ↔ ∃ c, q.check limits = .ok c ∧
      e.occurrences limits c = ⟨x.occurrences, .finished x.cutShort⟩ := by
  unfold expand
  constructor
  · intro h
    obtain ⟨c, hc, h⟩ := bind_eq_ok_iff.1 h
    refine ⟨c, hc, ?_⟩
    simp only at h
    split at h
    · next cut hcut =>
      cases h
      rw [← hcut]
    · cases h
  · rintro ⟨c, hc, hrun⟩
    refine bind_eq_ok_iff.2 ⟨c, hc, ?_⟩
    simp only [hrun]
    rfl

/-! ## Dates, moments and rules of examples -/

/-- The time of day some minutes after midnight. -/
def TimeOfDay.ofMinutes (n : Nat) : TimeOfDay :=
  ⟨(n % 1440 : Nat) * 60000000, by omega, by simp only [dayMicros]; omega⟩

/-- The date with the given fields; a field that is out of its range is moved to the end of it. -/
def Date.near (year month day : Int) : Date where
  year := max 1 (min 9999 year)
  month := max 1 (min 12 month)
  day := max 1 (min (monthLength (max 1 (min 9999 year)) (max 1 (min 12 month))) day)
  valid := by
    have := monthLength_ge (max 1 (min 9999 year)) (max 1 (min 12 month))
    exact ⟨by omega, by omega, by omega, by omega, by omega, by omega⟩

/-- What the clock in London shows on a day, some minutes after midnight. -/
def Moment.london (d : Date) (minutes : Nat) (pass : Pass := .first) : Moment :=
  ⟨⟨d, .ofMinutes minutes, pass⟩, .region .london⟩

/-- A series of a number of days in a row, at least one. -/
def Rule.daily (n : Nat) : Rule :=
  { Rule.every .daily with
    count := some (max 1 n)
    count_pos := forall_mem_some (by omega) }

end RecurringEvents
