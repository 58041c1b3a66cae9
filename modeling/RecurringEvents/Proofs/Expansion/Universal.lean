import RecurringEvents.Proofs.Expansion.Cut
import RecurringEvents.Proofs.Expansion.Failure

/-!
# Expansions in universal time

An event that names universal time as its zone never has a skipped or a repeated hour, and if it
ends after it starts in time, none of its occurrences is refused. What is wrong with a cap or a
range is reported, and nothing else is. All other failures come from leaving the years 1 to 9999:
with the time from which the window looks for starts, with the end of an occurrence, or with a date
of the event.

* `InCalendar`: the instants of the years 1 to 9999.
* `Moment.exists_inUniversal_iff`, `Moment.exists_localize_universal`: moments.
* `Event.exists_occurrenceAt_iff_inCalendar`: occurrences.
* `Event.StaysInCalendar`, `Event.exists_expand_iff_staysInCalendar`: when an expansion succeeds.
* `Event.expand_universal`: all ways in which it can end.
-/

namespace RecurringEvents

/-- Whether an instant lies in the years 1 to 9999 of UTC. -/
def InCalendar (t : Int) : Prop := Wall.firstCount ≤ t ∧ t < Wall.endCount

instance (t : Int) : Decidable (InCalendar t) := inferInstanceAs (Decidable (_ ∧ _))

theorem Wall.inCalendar (w : Wall) : InCalendar w.count := ⟨w.firstCount_le, w.count_lt⟩

/-! ## Moments -/

/-- The region of universal time. -/
def Zone.universal : Zone := .region .utc

namespace Zone

theorem universal_isOrderly : universal.IsOrderly := by
  show Region.utc.IsOrderly
  decide +kernel

/-- Universal time shows every instant as it is. -/
@[simp] theorem shown_universal (t : Int) : universal.shown t = t := by
  simp [universal, shown, offsetAt, Region.clock, Region.typeAt, Region.utc, Schedule.typeAt]

/-- Its wall is read as it is. -/
@[simp] theorem readAt_universal (pass : Pass) (n : Int) : universal.readAt pass n = n := by
  simp [universal, readAt, offsetFor, Region.clock, Region.localType, Region.utc,
    Schedule.localType]

theorem exists_atInstant_universal {t : Int} (ht : InCalendar t) :
    ∃ m, universal.atInstant t = .ok m := by
  obtain ⟨h1, h2⟩ := ht
  exact universal.exists_atInstant h1 h2 (by simpa using h1) (by simpa using h2)

end Zone

namespace Moment

variable {m n : Moment} {z : Zone} {w : Wall} {k : Int}

/-- A wall time is localized if it is read as an instant of the calendar, and what is shown at this
instant lies in the calendar. -/
theorem exists_localize_iff : (∃ n, localize w z = .ok n) ↔
    InCalendar (z.readAt w.pass w.count) ∧ InCalendar (z.shown (z.readAt w.pass w.count)) := by
  have hinstant : instant ⟨w, z⟩ = z.readAt w.pass w.count := instant_eq ⟨w, z⟩
  constructor
  · rintro ⟨n, hn⟩
    obtain ⟨u, hu, hn⟩ := bind_eq_ok_iff.1 hn
    obtain ⟨huzone, hucount⟩ := count_of_inUtc hu
    rw [hinstant] at hucount
    have hread : InCalendar (z.readAt w.pass w.count) := hucount ▸ u.wall.inCalendar
    refine ⟨hread, ?_⟩
    unfold inZone at hn
    split at hn
    · next hsame =>
      rw [← hsame.1, huzone] at hread ⊢
      simpa [Zone.shown, Zone.utc, Zone.offsetAt] using hread
    · have hshown := (Zone.atInstant_eq_ok_iff.1 hn).2.2.1
      rw [instant_of_utc huzone, hucount] at hshown
      exact hshown ▸ n.wall.inCalendar
  · rintro ⟨hread, hshown⟩
    obtain ⟨u, hu⟩ := exists_inUtc_iff.2 (hinstant ▸ hread)
    have huinstant := (instant_of_inZone Zone.isOrderly_utc hu).trans hinstant
    obtain ⟨n, hn⟩ : ∃ n, u.inZone z = .ok n := by
      unfold inZone
      split
      · exact ⟨u, rfl⟩
      · rw [huinstant]
        exact z.exists_atInstant hread.1 hread.2 hshown.1 hshown.2
    exact ⟨n, bind_eq_ok_iff.2 ⟨u, hu, hn⟩⟩

/-- A moment of universal time is its wall time. -/
theorem instant_of_universal (h : m.zone = .universal) : m.instant = m.wall.count := by
  rw [instant_eq, h, Zone.readAt_universal]

theorem inCalendar_of_universal (h : m.zone = .universal) : InCalendar m.instant :=
  instant_of_universal h ▸ m.wall.inCalendar

/-- A moment of universal time is compared by its instant. -/
theorem notAfter_of_universal (h : m.zone = .universal) :
    m.notAfter n = decide (m.instant ≤ n.instant) := by
  by_cases hzone : m.zone = n.zone
  · rw [notAfter, places, if_pos hzone, instant_of_universal h, instant_of_universal (hzone ▸ h)]
  · exact notAfter_of_ne hzone

/-- A moment has one of universal time exactly if its instant lies in the calendar. -/
theorem exists_inUniversal_iff : (∃ n, m.inZone .universal = .ok n) ↔ InCalendar m.instant := by
  constructor
  · rintro ⟨n, hn⟩
    rw [← instant_of_inZone Zone.universal_isOrderly hn]
    exact inCalendar_of_universal (zone_of_inZone hn)
  · intro h
    unfold inZone
    split
    · exact ⟨m, rfl⟩
    · exact Zone.exists_atInstant_universal h

/-- Every wall time has a moment of universal time. -/
theorem exists_localize_universal (w : Wall) : ∃ m, localize w .universal = .ok m := by
  have hlocal : localize w .universal = Zone.universal.atInstant w.count := by
    rw [← Zone.readAt_universal w.pass w.count]
    exact localize_region w .utc
  rw [hlocal]
  exact Zone.exists_atInstant_universal w.inCalendar

theorem exists_add_iff_of_utc (hm : m.zone = .utc) :
    (∃ n, m.add k = .ok n) ↔ InCalendar (m.instant + k) := by
  constructor
  · rintro ⟨n, hn⟩
    obtain ⟨hzone, -, hinstant⟩ := add_eq_ok_of_utc hm hn
    rw [← hinstant, instant_of_utc hzone]
    exact n.wall.inCalendar
  · rw [instant_of_utc hm]
    rintro ⟨h1, h2⟩
    exact exists_add h1 h2

end Moment

/-- Whether a value has a day in universal time. -/
def TimeValue.InCalendar : TimeValue → Prop
  | .date _ => True
  | .time t => RecurringEvents.InCalendar t.moment.instant

/-! ## Arguments -/

/-- Whether an error says what is wrong with the cap or the range. -/
def ExpansionError.IsReported (err : ExpansionError) : Prop := err.message?.isSome = true

/-- A cap below one and a reversed range are reported. -/
theorem Query.exists_reported {q : Query} {limits : Limits} (hs : InCalendar q.start.instant)
    (hf : InCalendar q.finish.instant)
    (h : q.cap.getD limits.maxInstances < 1 ∨ q.finish.instant < q.start.instant) :
    ∃ err, q.check limits = .error err ∧ err.IsReported := by
  obtain ⟨start, hstart⟩ := Moment.exists_inUtc_iff.2 hs
  obtain ⟨finish, hfinish⟩ := Moment.exists_inUtc_iff.2 hf
  unfold check
  by_cases hcap : q.cap.getD limits.maxInstances < 1
  · exact ⟨.capBelowOne (q.cap.getD limits.maxInstances), by simp only [hcap, if_true]; rfl, rfl⟩
  · have hreversed : finish.before start = true := by
      rw [Moment.before_of_utc (Moment.zone_of_inZone hstart),
        Moment.instant_of_inZone Zone.isOrderly_utc hstart,
        Moment.instant_of_inZone Zone.isOrderly_utc hfinish]
      exact decide_eq_true (h.resolve_left hcap)
    refine ⟨.reversedRange start finish, ?_, rfl⟩
    simp only [hcap, hstart, hfinish, Event.lift, bind, Except.bind, hreversed, if_true, if_false]
    rfl

/-! ## Occurrences -/

namespace Event

variable {e : Event} {rule : Rule} {limits : Limits} {q : Query} {c : CheckedQuery}

/-- An event has a duration exactly if its start and its end lie in the calendar. -/
theorem exists_duration_iff :
    (∃ d, e.duration = .ok d) ↔ InCalendar e.start.instant ∧ InCalendar e.finish.instant := by
  constructor
  · rintro ⟨d, hd⟩
    obtain ⟨hf, hs, -⟩ := duration_eq_ok_iff.1 hd
    exact ⟨Moment.exists_inUtc_iff.1 hs, Moment.exists_inUtc_iff.1 hf⟩
  · rintro ⟨hs, hf⟩
    exact ⟨e.length, duration_eq_ok_iff.2
      ⟨Moment.exists_inUtc_iff.2 hf, Moment.exists_inUtc_iff.2 hs, rfl⟩⟩

theorem eq_length_of_duration {d : Int} (h : e.duration = .ok d) : d = e.length :=
  (duration_eq_ok_iff.1 h).2.2

/-- The end of an occurrence is as much later as the event lasts. -/
theorem instant_of_finish {start u v finish : Moment} {d : Int} (hu : start.inUtc = .ok u)
    (hd : e.duration = .ok d) (hv : u.add d = .ok v) (hf : v.inZone .universal = .ok finish) :
    finish.zone = .universal ∧ finish.instant = start.instant + e.length := by
  refine ⟨Moment.zone_of_inZone hf, ?_⟩
  have hadd := (Moment.add_eq_ok_of_utc (Moment.zone_of_inZone hu) hv).2.2
  rw [Moment.instant_of_inZone Zone.universal_isOrderly hf, hadd,
    Moment.instant_of_inZone Zone.isOrderly_utc hu, eq_length_of_duration hd]

/-- **No occurrence is refused** if the event takes time. -/
theorem noneRefused [ZoneDatabase] (hz : e.calendarZone = .universal) (hpos : 0 < e.length) :
    e.NoneRefused := by
  intro recurring start
  rw [hz]
  refine failsOnly_occurrenceAt fun u d v finish hu hd hv hf => ?_
  obtain ⟨hzone, hinstant⟩ := instant_of_finish hu hd hv hf
  rw [Moment.notAfter_of_universal hzone, hinstant]
  simp
  omega

/-- **An occurrence is made exactly if it starts and ends in the calendar.** -/
theorem exists_occurrenceAt_iff_inCalendar (hpos : 0 < e.length) (hd : ∃ d, e.duration = .ok d)
    {recurring : Bool} {start : Moment} :
    (∃ o, e.occurrenceAt .universal recurring start = .ok o) ↔
      InCalendar start.instant ∧ InCalendar (start.instant + e.length) := by
  obtain ⟨d, hd⟩ := hd
  have hlength := eq_length_of_duration hd
  constructor
  · rintro ⟨o, ho⟩
    obtain ⟨u, d', v, finish, hu, hd', hv, hf, -⟩ := occurrenceAt_eq_ok_iff.1 ho
    obtain ⟨hzone, hinstant⟩ := instant_of_finish hu hd' hv hf
    exact ⟨Moment.exists_inUtc_iff.1 ⟨u, hu⟩, hinstant ▸ Moment.inCalendar_of_universal hzone⟩
  · rintro ⟨hs, hend⟩
    obtain ⟨u, hu⟩ := Moment.exists_inUtc_iff.2 hs
    have huzone := Moment.zone_of_inZone hu
    have huinstant := Moment.instant_of_inZone Zone.isOrderly_utc hu
    obtain ⟨v, hv⟩ := (Moment.exists_add_iff_of_utc huzone (k := d)).2 (by
      rw [huinstant, hlength]
      exact hend)
    have hvinstant := (Moment.add_eq_ok_of_utc huzone hv).2.2
    obtain ⟨finish, hf⟩ := (Moment.exists_inUniversal_iff (m := v)).2 (by
      rw [hvinstant, huinstant, hlength]
      exact hend)
    obtain ⟨hzone, hinstant⟩ := instant_of_finish hu hd hv hf
    have hafter : finish.notAfter start = false := by
      rw [Moment.notAfter_of_universal hzone, hinstant]
      simp
      omega
    exact ⟨_, occurrenceAt_eq_ok_iff.2 ⟨u, d, v, finish, hu, hd, hv, hf, hafter, rfl⟩⟩

/-! ## What is found before occurrences are made -/

/-- A window is found if the event has a duration and its beginning lies in the calendar. -/
theorem exists_windowOf_iff (hc : q.check limits = .ok c) :
    (∃ w, e.windowOf c = .ok w) ↔
      (∃ d, e.duration = .ok d) ∧ InCalendar (q.start.instant - e.length) := by
  obtain ⟨hs, -, -, -⟩ := Query.check_eq_ok hc
  have hadd : ∀ d, (∃ n, c.start.add (-d) = .ok n) ↔ InCalendar (q.start.instant - d) := by
    intro d
    rw [Moment.exists_add_iff_of_utc (Moment.zone_of_inZone hs),
      Moment.instant_of_inZone Zone.isOrderly_utc hs, Int.sub_eq_add_neg]
  constructor
  · rintro ⟨w, hw⟩
    obtain ⟨d, hd, hstart, -⟩ := windowOf_eq_ok_iff.1 hw
    refine ⟨⟨d, hd⟩, ?_⟩
    rw [← eq_length_of_duration hd]
    exact (hadd d).1 ⟨w.start, hstart⟩
  · rintro ⟨⟨d, hd⟩, hbegin⟩
    rw [← eq_length_of_duration hd] at hbegin
    obtain ⟨start, hstart⟩ := (hadd d).2 hbegin
    exact ⟨⟨start, c.finish⟩, windowOf_eq_ok_iff.2 ⟨d, hd, hstart, rfl⟩⟩

/-- The days of values are found if they lie in the calendar. -/
theorem exists_daysIn_iff {vs : List TimeValue} :
    (∃ ds, daysIn .universal vs = .ok ds) ↔ ∀ v ∈ vs, v.InCalendar := by
  unfold daysIn
  rw [exists_mapM_eq_ok_iff]
  refine forall₂_congr fun v _ => ?_
  cases v with
  | date d => exact iff_of_true ⟨d, rfl⟩ trivial
  | time t =>
    show (∃ d, TimeValue.dayIn (.time t) .universal = .ok d) ↔ InCalendar t.moment.instant
    rw [← Moment.exists_inUniversal_iff]
    constructor
    · rintro ⟨d, hd⟩
      obtain ⟨m, hm, -⟩ := bind_eq_ok_iff.1 hd
      exact ⟨m, hm⟩
    · rintro ⟨m, hm⟩
      exact ⟨m.wall.date, bind_eq_ok_iff.2 ⟨m, hm, rfl⟩⟩

/-- So are the moments of added occurrences. -/
theorem exists_extraMoment_iff (anchor : Wall) {v : TimeValue} :
    (∃ m, extraMoment .universal anchor v = .ok m) ↔ v.InCalendar := by
  cases v with
  | date d => exact iff_of_true (Moment.exists_localize_universal _) trivial
  | time t => exact Moment.exists_inUniversal_iff

theorem zone_of_extraMoment {anchor : Wall} {v : TimeValue} {m : Moment}
    (h : extraMoment .universal anchor v = .ok m) : m.zone = .universal := by
  cases v with
  | date d => exact (Moment.of_localize Zone.universal_isOrderly h).1
  | time t => exact Moment.zone_of_inZone h

/-- What an expansion by a rule needs before it makes occurrences. -/
structure BeginsInCalendar (e : Event) (rule : Rule) (q : Query) : Prop where
  duration : ∃ d, e.duration = .ok d
  window : InCalendar (q.start.instant - e.length)
  excluded : ∀ v ∈ rule.excluded, v.InCalendar

/-- The walk begins exactly if all that it needs lies in the calendar. -/
theorem exists_walk_iff [ZoneDatabase] (hz : e.calendarZone = .universal)
    (hc : q.check limits = .ok c) :
    (∃ w, e.walk rule limits c = .ok w) ↔ e.BeginsInCalendar rule q := by
  constructor
  · rintro ⟨w, hw⟩
    obtain ⟨anchor, days, window, -, hdays, hwindow, -⟩ := walk_eq_ok_iff.1 hw
    obtain ⟨hd, hbegin⟩ := (exists_windowOf_iff hc).1 ⟨window, hwindow⟩
    exact ⟨hd, hbegin, exists_daysIn_iff.1 ⟨days, hz ▸ hdays⟩⟩
  · rintro ⟨hd, hbegin, hexcluded⟩
    obtain ⟨anchor, ha⟩ := Moment.exists_inUniversal_iff.2 (exists_duration_iff.1 hd).1
    obtain ⟨days, hdays⟩ := exists_daysIn_iff.2 hexcluded
    obtain ⟨window, hwindow⟩ := (exists_windowOf_iff hc).2 ⟨hd, hbegin⟩
    exact ⟨_, walk_eq_ok_iff.2 ⟨anchor, days, window, hz ▸ ha, hz ▸ hdays, hwindow, rfl⟩⟩

/-- The starts of the added occurrences are found exactly if they lie in the calendar, too. -/
theorem exists_extraStarts_iff [ZoneDatabase] (hz : e.calendarZone = .universal)
    (hc : q.check limits = .ok c) :
    (∃ ms, e.extraStarts rule c = .ok ms) ↔
      e.BeginsInCalendar rule q ∧ ∀ v ∈ rule.extras, v.InCalendar := by
  rw [← exists_walk_iff hz hc]
  constructor
  · rintro ⟨ms, hms⟩
    obtain ⟨window, days, anchor, moments, hwindow, hdays, ha, hmoments, -⟩ :=
      extraStarts_eq_ok_iff.1 hms
    rw [hz] at hmoments
    exact ⟨⟨_, walk_eq_ok_iff.2 ⟨anchor, days, window, ha, hdays, hwindow, rfl⟩⟩, fun v hv =>
      (exists_extraMoment_iff anchor.wall).1 (exists_mapM_eq_ok_iff.1 ⟨moments, hmoments⟩ v hv)⟩
  · rintro ⟨⟨w, hw⟩, hextras⟩
    obtain ⟨anchor, days, window, ha, hdays, hwindow, -⟩ := walk_eq_ok_iff.1 hw
    obtain ⟨moments, hmoments⟩ := exists_mapM_eq_ok_iff.2 fun v hv =>
      (exists_extraMoment_iff anchor.wall).2 (hextras v hv)
    exact ⟨_, extraStarts_eq_ok_iff.2 ⟨window, days, anchor, moments, hwindow, hdays, ha,
      hz ▸ hmoments, rfl⟩⟩

/-- An added occurrence starts in universal time, before the end of the range. -/
theorem of_mem_extraStarts [ZoneDatabase] (hz : e.calendarZone = .universal)
    (hc : q.check limits = .ok c) {ms : List Moment} (hms : e.extraStarts rule c = .ok ms)
    {m : Moment} (hm : m ∈ ms) :
    m.zone = .universal ∧ m.instant < q.finish.instant := by
  obtain ⟨window, days, anchor, moments, hwindow, -, -, hmoments, rfl⟩ :=
    extraStarts_eq_ok_iff.1 hms
  obtain ⟨d, -, -, hfzone, hf⟩ := windowOf_utc hc hwindow
  rcases mem_of_mem_foldl_insertByWall hm with hm | hm
  · obtain ⟨hmem, hshown⟩ := List.mem_filter.1 hm
    obtain ⟨v, -, hv⟩ := exists_of_mem_mapM hmoments hmem
    rw [hz] at hv
    have hbefore := (Bool.and_eq_true_iff.1 hshown).2
    rw [Moment.before_of_utc hfzone, hf] at hbefore
    exact ⟨zone_of_extraMoment hv, of_decide_eq_true hbefore⟩
  · cases hm

/-! ## The expansion -/

/-- Whether all that an expansion by a rule computes lies in the calendar. -/
structure SeriesStays [ZoneDatabase] (e : Event) (rule : Rule) (limits : Limits) (q : Query)
    (c : CheckedQuery) :
    Prop extends e.BeginsInCalendar rule q where
  extras : ∀ v ∈ rule.extras, v.InCalendar
  /-- The occurrences of the series that are asked for end in the calendar. -/
  series : ∀ w, e.walk rule limits c = .ok w → ∀ n cursor start, w.Visits n →
    w.AsksFor n cursor start → InCalendar (start.instant + e.length)
  /-- So do the added occurrences. -/
  added : ∀ ms, e.extraStarts rule c = .ok ms → ∀ m ∈ ms, InCalendar (m.instant + e.length)

/-- Whether all that an expansion computes lies in the calendar. Without a rule this is the event
itself, if it overlaps the range. -/
def StaysInCalendar [ZoneDatabase] (e : Event) (limits : Limits) (q : Query) (c : CheckedQuery) :
    Prop :=
  match e.rule with
  | none => e.start.instant < q.finish.instant → q.start.instant < e.finish.instant →
      InCalendar e.start.instant ∧ InCalendar e.finish.instant
  | some rule => e.SeriesStays rule limits q c

/-- A walk in universal time asks for occurrences that start there. -/
theorem zone_of_asksFor [ZoneDatabase] {w : Walk} (hz : e.calendarZone = .universal)
    (hw : e.walk rule limits c = .ok w) {n : Nat} {cursor : Wall} {start : Moment}
    (hask : w.AsksFor n cursor start) : start.zone = .universal := by
  have hlocal := hask.goes_on.localized
  rw [zone_of_walk hw, hz] at hlocal
  exact (Moment.of_localize Zone.universal_isOrderly hlocal).1

/-- The series is run to its end if its walk begins and the occurrences end in the calendar. -/
theorem exists_seriesRun_iff_inCalendar [ZoneDatabase] (hz : e.calendarZone = .universal)
    (hpos : 0 < e.length)
    (hc : q.check limits = .ok c) : (∃ cut, (e.seriesRun rule limits c).ending = .finished cut) ↔
      e.BeginsInCalendar rule q ∧ ∀ w, e.walk rule limits c = .ok w → ∀ n cursor start,
        w.Visits n → w.AsksFor n cursor start → InCalendar (start.instant + e.length) := by
  rw [← exists_walk_iff hz hc]
  unfold seriesRun
  cases hw : e.walk rule limits c with
  | error err => simp [Run.ofError]
  | ok w =>
    have hbegins := (exists_walk_iff hz hc).1 ⟨w, hw⟩
    show (∃ cut, w.run.ending = .finished cut) ↔ _
    rw [Walk.run_finished_iff, zone_of_walk hw, event_of_walk hw, hz]
    constructor
    · intro h
      refine ⟨⟨w, rfl⟩, fun w' hw' n cursor start hv hask => ?_⟩
      cases hw'
      have hmade := (h n cursor hv hask.goes_on.cursor).2 start hask
      exact ((exists_occurrenceAt_iff_inCalendar hpos hbegins.duration).1 hmade).2
    · rintro ⟨-, h⟩ n cursor hv hcursor
      refine ⟨Moment.exists_localize_universal cursor, fun start hask => ?_⟩
      have hzone := zone_of_asksFor hz hw hask
      exact (exists_occurrenceAt_iff_inCalendar hpos hbegins.duration).2
        ⟨Moment.inCalendar_of_universal hzone, h w rfl n cursor start hv hask⟩

/-- Occurrences are added if their starts are found and they end in the calendar. -/
theorem exists_extrasIn_iff_inCalendar [ZoneDatabase] (hz : e.calendarZone = .universal)
    (hpos : 0 < e.length)
    (hc : q.check limits = .ok c) : (∃ os, e.extrasIn rule c = .ok os) ↔
      (e.BeginsInCalendar rule q ∧ ∀ v ∈ rule.extras, v.InCalendar) ∧
        ∀ ms, e.extraStarts rule c = .ok ms → ∀ m ∈ ms, InCalendar (m.instant + e.length) := by
  rw [← exists_extraStarts_iff hz hc, extrasIn_eq, hz]
  cases hms : e.extraStarts rule c with
  | error err => simp [bind, Except.bind]
  | ok ms =>
    have hd := ((exists_extraStarts_iff hz hc).1 ⟨ms, hms⟩).1.duration
    show (∃ os, ms.mapM (e.occurrenceAt .universal true) = .ok os) ↔ _
    rw [exists_mapM_eq_ok_iff]
    constructor
    · intro h
      refine ⟨⟨ms, rfl⟩, fun ms' hms' m hm => ?_⟩
      cases hms'
      exact ((exists_occurrenceAt_iff_inCalendar hpos hd).1 (h m hm)).2
    · rintro ⟨-, h⟩ m hm
      have hzone := (of_mem_extraStarts hz hc hms hm).1
      exact (exists_occurrenceAt_iff_inCalendar hpos hd).2
        ⟨Moment.inCalendar_of_universal hzone, h ms rfl m hm⟩

/-- An event without a rule is listed if it lies in the calendar or does not overlap the range. -/
theorem exists_singleRun_iff_inCalendar [ZoneDatabase] (hz : e.calendarZone = .universal)
    (hpos : 0 < e.length)
    (hc : q.check limits = .ok c) : (∃ cut, (e.singleRun c).ending = .finished cut) ↔
      (e.start.instant < q.finish.instant → q.start.instant < e.finish.instant →
        InCalendar e.start.instant ∧ InCalendar e.finish.instant) := by
  obtain ⟨hs, hf, -, -⟩ := Query.check_eq_ok hc
  have hbefore : e.start.before c.finish = decide (e.start.instant < q.finish.instant) := by
    rw [Moment.before_of_utc (Moment.zone_of_inZone hf),
      Moment.instant_of_inZone Zone.isOrderly_utc hf]
  have hafter : c.start.before e.finish = decide (q.start.instant < e.finish.instant) := by
    rw [Moment.before_of_utc_left (Moment.zone_of_inZone hs),
      Moment.instant_of_inZone Zone.isOrderly_utc hs]
  have hmade : (∃ o, e.occurrenceAt .universal false e.start = .ok o) ↔
      InCalendar e.start.instant ∧ InCalendar e.finish.instant := by
    constructor
    · rintro ⟨o, ho⟩
      obtain ⟨u, d, v, finish, -, hd, -⟩ := occurrenceAt_eq_ok_iff.1 ho
      exact exists_duration_iff.1 ⟨d, hd⟩
    · rintro ⟨hstart, hfinish⟩
      have hend : e.start.instant + e.length = e.finish.instant := by
        unfold length
        omega
      exact (exists_occurrenceAt_iff_inCalendar hpos (exists_duration_iff.2 ⟨hstart, hfinish⟩)).2
        ⟨hstart, hend ▸ hfinish⟩
  unfold singleRun
  rw [hbefore, hafter, hz]
  split
  · next hover =>
    simp only [Bool.and_eq_true, decide_eq_true_eq] at hover
    simp only [hover, true_imp_iff, ← hmade]
    cases e.occurrenceAt .universal false e.start with
    | ok o => simp
    | error err => simp [Run.ofError]
  · next hover =>
    simp only [Bool.and_eq_true, decide_eq_true_eq] at hover
    exact ⟨fun _ h1 h2 => absurd ⟨h1, h2⟩ hover, fun _ => ⟨false, rfl⟩⟩

/-- **When an expansion succeeds.** A range and a cap that have passed their checks give a result
exactly if all that is computed lies in the calendar. -/
theorem exists_expand_iff_staysInCalendar [ZoneDatabase] (hz : e.calendarZone = .universal)
    (hpos : 0 < e.length) (hc : q.check limits = .ok c) :
    (∃ x, e.expand limits q = .ok x) ↔ e.StaysInCalendar limits q c := by
  rw [exists_expand_iff_finished hc]
  unfold occurrences StaysInCalendar
  cases e.rule with
  | none => exact exists_singleRun_iff_inCalendar hz hpos hc
  | some rule =>
    have hseries : (∃ cut, (e.seriesRun rule limits c).ending = .finished cut) ↔ _ :=
      exists_seriesRun_iff_inCalendar hz hpos hc
    have hadded : (∃ os, e.extrasIn rule c = .ok os) ↔ _ :=
      exists_extrasIn_iff_inCalendar hz hpos hc
    simp only
    split
    · next hnone =>
      rw [hseries]
      constructor
      · rintro ⟨hbegins, h⟩
        refine ⟨hbegins, by simp [hnone], h, fun ms hms m hm => ?_⟩
        obtain ⟨window, days, anchor, moments, -, -, -, hmoments, rfl⟩ :=
          extraStarts_eq_ok_iff.1 hms
        rw [hnone] at hmoments
        cases hmoments
        cases hm
      · intro h
        exact ⟨h.toBeginsInCalendar, h.series⟩
    · have hboth : e.SeriesStays rule limits q c ↔
          (∃ os, e.extrasIn rule c = .ok os) ∧
            ∃ cut, (e.seriesRun rule limits c).ending = .finished cut := by
        rw [hseries, hadded]
        constructor
        · intro h
          exact ⟨⟨⟨h.toBeginsInCalendar, h.extras⟩, h.added⟩, h.toBeginsInCalendar, h.series⟩
        · rintro ⟨⟨⟨hbegins, hextras⟩, hends⟩, -, h⟩
          exact ⟨hbegins, hextras, h, hends⟩
      rw [hboth]
      cases e.extrasIn rule c with
      | error err => simp [Run.ofError]
      | ok os => simp [Run.withExtras]

/-- Whether there is room for the event in the calendar wherever a range asks for it: the range
keeps as far from the first and the last instant as the event lasts, and all dates of the event lie
in the calendar. -/
structure HasRoom (e : Event) (q : Query) : Prop where
  start : InCalendar e.start.instant
  finish : InCalendar e.finish.instant
  dates : ∀ rule ∈ e.rule, ∀ v ∈ rule.excluded ++ rule.extras, v.InCalendar
  before : Wall.firstCount + e.length ≤ q.start.instant
  after : q.finish.instant + e.length ≤ Wall.endCount

/-- Where there is room, nothing leaves the calendar. -/
theorem staysInCalendar_of_hasRoom [ZoneDatabase] (hz : e.calendarZone = .universal)
    (hpos : 0 < e.length)
    (hc : q.check limits = .ok c) (h : e.HasRoom q) : e.StaysInCalendar limits q c := by
  have hafter := h.after
  have hend : ∀ {m : Moment}, m.zone = .universal → m.instant < q.finish.instant →
      InCalendar (m.instant + e.length) := by
    intro m hzone hlt
    have hlo := (Moment.inCalendar_of_universal hzone).1
    constructor
    · omega
    · omega
  unfold StaysInCalendar
  cases hrule : e.rule with
  | none => exact fun _ _ => ⟨h.start, h.finish⟩
  | some rule =>
    have hdates := h.dates rule hrule
    have hs := Moment.exists_inUtc_iff.1 ⟨c.start, (Query.check_eq_ok hc).1⟩
    have hwindow : InCalendar (q.start.instant - e.length) := by
      have hbefore := h.before
      constructor
      · omega
      · omega
    exact {
      duration := exists_duration_iff.2 ⟨h.start, h.finish⟩
      window := hwindow
      excluded := fun v hv => hdates v (List.mem_append_left _ hv)
      extras := fun v hv => hdates v (List.mem_append_right _ hv)
      series := fun w hw n cursor start _ hask =>
        hend (zone_of_asksFor hz hw hask) (within_of_asksFor hc hw hask).2
      added := by
        intro ms hms m hm
        obtain ⟨hzone, hlt⟩ := of_mem_extraStarts hz hc hms hm
        exact hend hzone hlt }

/--
**How an expansion in universal time ends.** For a range within the calendar and an event that takes
time, an error is reported exactly if the cap is below one or the range is reversed. Otherwise there
is a result exactly if all that is computed lies in the calendar, and else it fails because the
calendar ends. There is a result wherever the range keeps as far from the ends of the calendar as
the event lasts.
-/
theorem expand_universal [ZoneDatabase] (hz : ZoneName.resolve? e.timeZone = some .utc)
    (hpos : 0 < e.length) (hs : InCalendar q.start.instant) (hf : InCalendar q.finish.instant) :
    ((∃ err, e.expand limits q = .error err ∧ err.IsReported) ↔
      q.cap.getD limits.maxInstances < 1 ∨ q.finish.instant < q.start.instant) ∧
    ∀ c, q.check limits = .ok c →
      ((∃ x, e.expand limits q = .ok x) ↔ e.StaysInCalendar limits q c) ∧
      (¬e.StaysInCalendar limits q c → e.expand limits q = .error (.calendar .outOfRange)) ∧
      (e.HasRoom q → e.StaysInCalendar limits q c) := by
  have hzone : e.calendarZone = .universal := calendarZone_of_resolve? hz
  have honly : ∀ c, q.check limits = .ok c →
      FailsOnly (.calendar .outOfRange) (e.expand limits q) :=
    fun c hc => failsOnly_expand (noneRefused hzone hpos) hc
  refine ⟨?_, fun c hc => ⟨exists_expand_iff_staysInCalendar hzone hpos hc, fun hnot => ?_,
    staysInCalendar_of_hasRoom hzone hpos hc⟩⟩
  · constructor
    · rintro ⟨err, herr, hreported⟩
      refine Decidable.byContradiction fun hnot => ?_
      obtain ⟨start, hstart⟩ := Moment.exists_inUtc_iff.2 hs
      obtain ⟨finish, hfinish⟩ := Moment.exists_inUtc_iff.2 hf
      have hc : q.check limits = .ok _ := Query.check_of_le (by omega) hstart hfinish (by omega)
      rw [honly _ hc err herr] at hreported
      cases hreported
    · intro hmisuse
      obtain ⟨err, herr, hreported⟩ := Query.exists_reported hs hf hmisuse
      exact ⟨err, by rw [expand, herr]; rfl, hreported⟩
  · refine (honly c hc).eq_error ?_
    rwa [exists_expand_iff_staysInCalendar hzone hpos hc]

/-! ## Examples -/

/-- All years up to the end of January 2024. -/
def fromTheBeginning : Query where
  start := .ofUtc ⟨.near 1 1 1, .midnight, .first⟩
  finish := .ofUtc ⟨.near 2024 2 1, .midnight, .first⟩

/-- One morning is found in all these years if it has no rule. By a rule that gives this one morning
only, the search begins an hour before the first instant, and fails. -/
theorem newYearMorning_fails :
    ZoneName.resolve? (newYearMornings (.daily 1)).timeZone = some .utc ∧
    0 < (newYearMornings (.daily 1)).length ∧
    (∃ c, fromTheBeginning.check .standard = .ok c) ∧
    (∃ x, ((newYearMornings (.daily 1)).withRule none).expand .standard fromTheBeginning = .ok x ∧
      x.occurrences.length = 1) ∧
    (newYearMornings (.daily 1)).expand .standard fromTheBeginning
      = .error (.calendar .outOfRange) := by
  obtain ⟨c, hc, -⟩ : ∃ c, fromTheBeginning.check .standard = .ok c ∧
      c.start = fromTheBeginning.start :=
    exists_ok_of_any (by decide +kernel)
  exact ⟨by decide +kernel, by decide +kernel, ⟨c, hc⟩, exists_ok_of_any (by decide +kernel),
    eq_error_of_fault? (by decide +kernel)⟩

/-- All years but the first and the last hour. -/
def allButAnHour : Query where
  start := .ofUtc ⟨.near 1 1 1, .ofMinutes 60, .first⟩
  finish := .ofUtc ⟨.near 9999 12 31, .ofMinutes 1380, .first⟩

/-- Three mornings are found in all years but the first and the last hour. -/
theorem newYearMornings_found : ∃ x,
    (newYearMornings (.daily 3)).expand .standard allButAnHour = .ok x ∧
      x.occurrences.length = 3 ∧ (newYearMornings (.daily 3)).HasRoom allButAnHour := by
  have hroom : (newYearMornings (.daily 3)).HasRoom allButAnHour := by
    refine ⟨by decide +kernel, by decide +kernel, ?_, by decide +kernel, by decide +kernel⟩
    intro rule hrule v hv
    cases hrule
    cases hv
  obtain ⟨c, hc, -⟩ : ∃ c, allButAnHour.check .standard = .ok c ∧
      c.start = allButAnHour.start :=
    exists_ok_of_any (by decide +kernel)
  obtain ⟨-, hends⟩ := expand_universal (e := newYearMornings (.daily 3)) (by decide +kernel)
    (by decide +kernel) (q := allButAnHour) (by decide +kernel) (by decide +kernel)
  obtain ⟨hsome, -, hstays⟩ := hends c hc
  obtain ⟨x, hx⟩ := hsome.2 (hstays hroom)
  obtain ⟨y, hy, hlength⟩ : ∃ y,
      (newYearMornings (.daily 3)).expand .standard allButAnHour = .ok y ∧
      y.occurrences.length = 3 :=
    exists_ok_of_any (by decide +kernel)
  cases hx.symm.trans hy
  exact ⟨x, hx, hlength, hroom⟩

end Event

end RecurringEvents
