import RecurringEvents.Proofs.Expansion.Trace

/-!
# When an expansion succeeds

An expansion whose dates lie two years within the calendar, with a range that has passed its checks,
fails in two ways only. A cursor may have jumped to the very end of the calendar, where it has no
moment in UTC any more. And an occurrence may be refused: its end is compared with its start on the
wall of the zone, where it does not come later if the clock is set back in between by as much as the
occurrence lasts.

* `Event.exists_occurrenceAt_iff`: an occurrence is made if it lasts on the wall.
* `Walk.run_finished_iff`, `Event.exists_walk`: the walk.
* `Event.exists_localize`: the cursors that have a moment.
* `Event.exists_extrasIn_iff`: the added occurrences.
* `Event.exists_expand_iff`: the expansion.
-/

namespace RecurringEvents

/-! ## Central dates -/

/-- Whether a date lies at least two years within the calendar. -/
def Date.IsCentral (d : Date) : Prop := 3 ≤ d.year ∧ d.year ≤ 9997

instance (d : Date) : Decidable d.IsCentral := inferInstanceAs (Decidable (_ ∧ _))

/-- Whether an instant lies at least some days within the calendar. -/
def IsWithin (days t : Int) : Prop :=
  Wall.firstCount + days * dayMicros ≤ t ∧ t + days * dayMicros < Wall.endCount

instance (days t : Int) : Decidable (IsWithin days t) := inferInstanceAs (Decidable (_ ∧ _))

/-- What is near an instant is nearly as far within the calendar. -/
theorem IsWithin.near {days t u : Int} (h : IsWithin (days + 1) t)
    (hu : t - dayMicros < u ∧ u < t + dayMicros) : IsWithin days u := by
  obtain ⟨h1, h2⟩ := h
  constructor
  · rw [Int.add_mul] at h1
    omega
  · rw [Int.add_mul] at h2
    omega

/-- What lies within the calendar lies within it by fewer days, too. -/
theorem IsWithin.mono {a b t : Int} (h : IsWithin a t) (hab : b ≤ a) : IsWithin b t := by
  obtain ⟨h1, h2⟩ := h
  simp only [IsWithin, dayMicros] at *
  omega

theorem IsWithin.range {t : Int} (h : IsWithin 0 t) : Wall.firstCount ≤ t ∧ t < Wall.endCount := by
  obtain ⟨h1, h2⟩ := h
  omega

theorem Date.IsCentral.within {w : Wall} (h : w.date.IsCentral) : IsWithin 730 w.count := by
  obtain ⟨hlo, hhi⟩ := h
  have h1 := daysBeforeYear_mono hlo
  have h2 := daysBeforeYear_mono (show w.date.year + 1 ≤ 9998 by omega)
  have e1 : daysBeforeYear 3 = 730 := by decide
  have e2 : daysBeforeYear 9998 = lastDayNumber - 730 := by decide
  obtain ⟨hd1, hd2⟩ := w.date.dayNumber_year
  have ht1 := w.time.nonneg
  have ht2 := w.time.lt
  simp only [IsWithin, Wall.firstCount, Wall.endCount, Wall.count, epochDayNumber, dayMicros,
    lastDayNumber] at *
  omega

/-- A moment of an orderly zone on a central date. -/
structure Moment.IsCentral (m : Moment) : Prop where
  date : m.wall.date.IsCentral
  zone : m.zone.IsOrderly

instance (m : Moment) : Decidable m.IsCentral :=
  decidable_of_iff (m.wall.date.IsCentral ∧ m.zone.IsOrderly)
    ⟨fun h => ⟨h.1, h.2⟩, fun h => ⟨h.1, h.2⟩⟩

/-- A central date, or a central moment. -/
def TimeValue.IsCentral : TimeValue → Prop
  | .date d => d.IsCentral
  | .time r => r.moment.IsCentral

instance : (v : TimeValue) → Decidable v.IsCentral
  | .date d => inferInstanceAs (Decidable d.IsCentral)
  | .time r => inferInstanceAs (Decidable r.moment.IsCentral)

namespace Moment

variable {m : Moment} {z : Zone} {days : Int}

theorem IsCentral.within (h : m.IsCentral) : IsWithin 729 m.instant := by
  rw [instant_eq]
  exact h.date.within.near (h.zone.readAt_near _ _)

/-- An instant within the calendar has a moment in every orderly zone. -/
theorem exists_atInstant {t : Int} (hz : z.IsOrderly) (ht : IsWithin 1 t) :
    ∃ n, z.atInstant t = .ok n ∧ n.instant = t ∧ n.zone = z ∧ n.wall.count = z.shown t := by
  have hs : IsWithin 0 (z.shown t) := IsWithin.near ht (hz.shown_near t)
  obtain ⟨h1, h2⟩ := (ht.mono (by decide)).range
  obtain ⟨n, hn⟩ := z.exists_atInstant h1 h2 hs.range.1 hs.range.2
  exact ⟨n, hn, instant_of_atInstant hz hn, (Zone.atInstant_eq_ok_iff.1 hn).2.1,
    (Zone.atInstant_eq_ok_iff.1 hn).2.2.1⟩

/-- A moment within the calendar has one in every orderly zone. -/
theorem exists_inZone (hz : z.IsOrderly) (hm : IsWithin 1 m.instant) : ∃ n, m.inZone z = .ok n := by
  unfold inZone
  split
  · exact ⟨m, rfl⟩
  · obtain ⟨n, hn, -⟩ := exists_atInstant hz hm
    exact ⟨n, hn⟩

/-- A wall time that is read within the calendar is localized. -/
theorem exists_localize {w : Wall} (hz : z.IsOrderly) (hw : IsWithin 1 (z.readAt w.pass w.count)) :
    ∃ n, localize w z = .ok n ∧ n.instant = z.readAt w.pass w.count := by
  obtain ⟨u, hu⟩ := exists_inZone (m := ⟨w, z⟩) Zone.isOrderly_utc (by rwa [instant_eq])
  have huinstant : u.instant = z.readAt w.pass w.count := by
    rw [instant_of_inZone Zone.isOrderly_utc hu, instant_eq]
  obtain ⟨n, hn⟩ := exists_inZone (m := u) hz (by rwa [huinstant])
  exact ⟨n, bind_eq_ok_iff.2 ⟨u, hu, hn⟩, (instant_of_inZone hz hn).trans huinstant⟩

end Moment

/-- Days of a zone are found for central values. -/
theorem Event.exists_daysIn {z : Zone} (hz : z.IsOrderly) {vs : List TimeValue}
    (hv : ∀ v ∈ vs, v.IsCentral) : ∃ ds, daysIn z vs = .ok ds := by
  refine exists_mapM_eq_ok_iff.2 fun v hmem => ?_
  cases v with
  | date d => exact ⟨d, rfl⟩
  | time r =>
    have hc : r.moment.IsCentral := hv _ hmem
    obtain ⟨m, hm⟩ := Moment.exists_inZone hz (hc.within.mono (by decide))
    exact ⟨m.wall.date, bind_eq_ok_iff.2 ⟨m, hm, rfl⟩⟩

/-! ## Occurrences -/

namespace Event

/-- The microseconds that elapse from the start to the end of an event. -/
def length (e : Event) : Int := e.finish.instant - e.start.instant

/-- An event of central dates that ends after it starts, by a year at most. -/
structure IsCentral (e : Event) : Prop where
  start : e.start.IsCentral
  finish : e.finish.IsCentral
  length_pos : 0 < e.length
  length_le : e.length ≤ 366 * dayMicros
  excluded : ∀ rule ∈ e.rule, ∀ v ∈ rule.excluded, v.IsCentral
  extras : ∀ rule ∈ e.rule, ∀ v ∈ rule.extras, v.IsCentral

/-- Whether an occurrence ends after it starts on the wall of the zone, if it starts there at all:
the clock is not set back in between by as much as the occurrence lasts. -/
def Lasts (e : Event) (r : Region) (start : Moment) : Prop :=
  start.zone = .region r → start.wall.count < (Zone.region r).shown (start.instant + e.length)

variable {e : Event} {r : Region}

theorem IsCentral.duration (h : e.IsCentral) : e.duration = .ok e.length :=
  duration_eq_ok_iff.2
    ⟨Moment.exists_inZone Zone.isOrderly_utc (h.finish.within.mono (by decide)),
      Moment.exists_inZone Zone.isOrderly_utc (h.start.within.mono (by decide)), rfl⟩

/-- The end of an occurrence: as much later in UTC as the event lasts, and shown in the region. -/
theorem exists_finish (e : Event) (hr : r.IsOrderly) {start : Moment}
    (hs : IsWithin 1 start.instant) (hend : IsWithin 1 (start.instant + e.length)) :
    ∃ u v finish, start.inUtc = .ok u ∧ u.add e.length = .ok v ∧ v.inZone (.region r) = .ok finish ∧
      finish.zone = .region r ∧ finish.instant = start.instant + e.length ∧
      finish.wall.count = (Zone.region r).shown (start.instant + e.length) := by
  have hknown : (Zone.region r).IsOrderly := hr
  obtain ⟨u, hu⟩ := Moment.exists_inZone Zone.isOrderly_utc hs
  obtain ⟨huzone, hucount⟩ := Moment.count_of_inUtc hu
  obtain ⟨h1, h2⟩ := (hend.mono (by decide)).range
  obtain ⟨v, hv⟩ := Moment.exists_add (m := u) (k := e.length) (by omega) (by omega)
  obtain ⟨hvzone, -, hvinstant⟩ := Moment.add_eq_ok_of_utc huzone hv
  rw [Moment.instant_of_inZone Zone.isOrderly_utc hu] at hvinstant
  obtain ⟨finish, hf, hinstant, hzone, hcount⟩ :=
    Moment.exists_atInstant hknown (hvinstant ▸ hend)
  refine ⟨u, v, finish, hu, hv, ?_, hzone, hinstant.trans hvinstant, hvinstant ▸ hcount⟩
  -- the end in UTC is not in the region yet
  unfold Moment.inZone
  rw [if_neg (by rw [hvzone]; simp [Zone.utc])]
  exact hf

/-- An end is accepted if the occurrence lasts. -/
theorem notAfter_eq_false_iff_lasts (he : e.IsCentral) {start finish : Moment}
    (hzone : finish.zone = .region r) (hinstant : finish.instant = start.instant + e.length)
    (hcount : finish.wall.count = (Zone.region r).shown (start.instant + e.length)) :
    Moment.notAfter finish start = false ↔ e.Lasts r start := by
  have hpos := he.length_pos
  rw [Lasts]
  by_cases hs : start.zone = .region r
  · rw [Moment.notAfter, Moment.places, if_pos (hzone.trans hs.symm), hcount]
    simp [hs]
  · -- starts of other zones are compared by their instants
    rw [Moment.notAfter_of_ne (by rw [hzone]; exact Ne.symm hs), hinstant]
    simp only [decide_eq_false_iff_not, hs, false_imp_iff, iff_true]
    omega

/-- **An occurrence is made if it lasts.** -/
theorem exists_occurrenceAt_iff (he : e.IsCentral) (hr : r.IsOrderly) {recurring : Bool}
    {start : Moment} (hlo : Wall.firstCount + 360 * dayMicros ≤ start.instant)
    (hhi : start.instant + 720 * dayMicros < Wall.endCount) :
    (∃ o, e.occurrenceAt (.region r) recurring start = .ok o) ↔ e.Lasts r start := by
  have hpos := he.length_pos
  have hle := he.length_le
  have hs : IsWithin 1 start.instant := by
    simp only [IsWithin, dayMicros] at *
    omega
  have hend : IsWithin 1 (start.instant + e.length) := by
    simp only [IsWithin, dayMicros] at *
    omega
  obtain ⟨u, v, finish, hu, hv, hf, hzone, hinstant, hcount⟩ := exists_finish e hr hs hend
  rw [← notAfter_eq_false_iff_lasts he hzone hinstant hcount]
  constructor
  · rintro ⟨o, ho⟩
    obtain ⟨u', d, v', finish', hu', hd, hv', hf', hafter, -⟩ := occurrenceAt_eq_ok_iff.1 ho
    cases hu.symm.trans hu'
    cases he.duration.symm.trans hd
    cases hv.symm.trans hv'
    cases hf.symm.trans hf'
    exact hafter
  · intro hafter
    exact ⟨_, occurrenceAt_eq_ok_iff.2 ⟨u, _, v, finish, hu, he.duration, hv, hf, hafter, rfl⟩⟩

end Event

/-! ## The walk -/

/-- **A run does not fail if every cursor that it comes to can be localized, and every occurrence
that it is asked for can be made.** -/
theorem Walk.run_finished_iff {w : Walk} : (∃ cut, w.run.ending = .finished cut) ↔
    ∀ n c, w.Visits n → w.series.cursorAt n = some c →
      (∃ start, Moment.localize c w.zone = .ok start) ∧
        ∀ start, w.AsksFor n c start → ∃ o, w.event.occurrenceAt w.zone true start = .ok o := by
  constructor
  · rintro ⟨cut, hend⟩ n c hv hc
    obtain ⟨k, p, hp, rfl, -, hrun⟩ := run_visits hend hv
    have hcursor : p.cursor = some c := hp.cursor.trans hc
    rw [← hrun, runFrom] at hend
    cases hmove : w.move p with
    | next q =>
      obtain ⟨c', start, hm⟩ := moves_of_move hmove
      cases hcursor.symm.trans hm.cursor
      refine ⟨⟨start, hm.localized⟩, fun start' hask => ?_⟩
      cases hm.localized.symm.trans hask.goes_on.localized
      have hcollected := hm.collected
      rw [if_pos ⟨hask.passes, hask.shown⟩] at hcollected
      obtain ⟨o, ho, -⟩ := hcollected
      exact ⟨o, ho⟩
    | stop ending =>
      rw [hmove] at hend
      have hending : ending = .finished cut := hend
      rw [hending] at hmove
      rcases move_eq_stop hmove with ⟨hnone, -⟩ | ⟨c', hc', ⟨err, -, hfailed⟩ | ⟨start, hs, hstop⟩⟩
      · cases hcursor.symm.trans hnone
      · cases hfailed
      · cases hcursor.symm.trans hc'
        refine ⟨⟨start, hs⟩, fun start' hask => ?_⟩
        obtain ⟨-, err, -, hfailed⟩ := hp.stop_of_goesOn hask.goes_on hmove
        cases hfailed
  · intro h
    obtain ⟨q, hq, hmove, -⟩ := w.exists_reached_of_run
    rcases move_eq_stop hmove with ⟨-, hend⟩ | ⟨c, hc, hstop⟩
    · exact ⟨false, hend⟩
    · obtain ⟨⟨start, hs⟩, hmade⟩ := h q.steps c hq.visits (hq.cursor ▸ hc)
      rcases hstop with ⟨err, herr, -⟩ |
        ⟨start', hs', hstop | ⟨hnone, hpasses, hshown, err, herr, -⟩⟩
      · cases hs.symm.trans herr
      · exact exists_of_stops? hstop
      · have hgo := (hq.stops?_eq_none_iff hc hs').1 hnone
        obtain ⟨o, ho⟩ := hmade start' ⟨hgo, hpasses, hshown⟩
        cases ho.symm.trans herr

/-- A range of central dates. -/
structure Query.IsCentral (q : Query) : Prop where
  start : q.start.IsCentral
  finish : q.finish.IsCentral

namespace Event

variable {e : Event} {rule : Rule} {r : Region} {limits : Limits} {q : Query} {c : CheckedQuery}

theorem exists_windowOf (he : e.IsCentral) (hq : q.IsCentral) (hc : q.check limits = .ok c) :
    ∃ w, e.windowOf c = .ok w := by
  have hpos := he.length_pos
  have hle := he.length_le
  obtain ⟨hs, -, -, -⟩ := Query.check_eq_ok hc
  have hcount := (Moment.count_of_inUtc hs).2
  have hwithin : IsWithin 360 (c.start.wall.count + -e.length) := by
    have := hq.start.within
    simp only [IsWithin, dayMicros] at *
    omega
  obtain ⟨h1, h2⟩ := (hwithin.mono (by decide)).range
  obtain ⟨start, hstart⟩ := Moment.exists_add h1 h2
  exact ⟨⟨start, c.finish⟩, windowOf_eq_ok_iff.2 ⟨_, he.duration, hstart, rfl⟩⟩

/-- The walk of a central event begins. -/
theorem exists_walk_of_isOrderly [ZoneDatabase] (he : e.IsCentral) (hrule : e.rule = some rule)
    (hknown : e.calendarZone.IsOrderly) (hq : q.IsCentral) (hc : q.check limits = .ok c) :
    ∃ w, e.walk rule limits c = .ok w := by
  obtain ⟨anchor, ha⟩ := Moment.exists_inZone hknown (he.start.within.mono (by decide))
  obtain ⟨days, hdays⟩ := exists_daysIn hknown (he.excluded rule hrule)
  obtain ⟨window, hwindow⟩ := exists_windowOf he hq hc
  exact ⟨_, walk_eq_ok_iff.2 ⟨anchor, days, window, ha, hdays, hwindow, rfl⟩⟩

theorem exists_walk [ZoneDatabase] (he : e.IsCentral) (hrule : e.rule = some rule)
    (hz : ZoneName.resolve? e.timeZone = some r) (hq : q.IsCentral) (hc : q.check limits = .ok c) :
    ∃ w, e.walk rule limits c = .ok w :=
  exists_walk_of_isOrderly he hrule (isOrderly_of_resolve? hz) hq hc

/-- The starts that a walk asks for lie in the window. -/
theorem within_of_asksFor [ZoneDatabase] {w : Walk} (hc : q.check limits = .ok c)
    (hw : e.walk rule limits c = .ok w) {n : Nat} {cursor : Wall} {start : Moment}
    (hask : w.AsksFor n cursor start) :
    q.start.instant - e.length ≤ start.instant ∧ start.instant < q.finish.instant := by
  obtain ⟨anchor, days, window, -, -, hwindow, rfl⟩ := walk_eq_ok_iff.1 hw
  obtain ⟨d, hd, ⟨hszone, hs⟩, ⟨hfzone, hf⟩⟩ := windowOf_utc hc hwindow
  have hd' : d = e.length := (duration_eq_ok_iff.1 hd).2.2
  have hshown := (Bool.and_eq_true_iff.1 hask.shown).2
  rw [Moment.notAfter_of_utc hszone, hs, hd'] at hshown
  have hbefore := (Bool.or_eq_false_iff.1 hask.goes_on.not_past).2
  rw [Bool.not_eq_false', Moment.before_of_utc hfzone, hf] at hbefore
  exact ⟨of_decide_eq_true hshown, of_decide_eq_true hbefore⟩

/-- They lie well within the calendar. -/
theorem exists_occurrenceAt_of_asksFor [ZoneDatabase] {w : Walk} (he : e.IsCentral)
    (hz : ZoneName.resolve? e.timeZone = some r) (hq : q.IsCentral) (hc : q.check limits = .ok c)
    (hw : e.walk rule limits c = .ok w) {n : Nat} {cursor : Wall} {start : Moment}
    (hask : w.AsksFor n cursor start) :
    (∃ o, e.occurrenceAt (.region r) true start = .ok o) ↔ e.Lasts r start := by
  have hle := he.length_le
  obtain ⟨hlo, hhi⟩ := within_of_asksFor hc hw hask
  have hqs := hq.start.within
  have hqf := hq.finish.within
  refine exists_occurrenceAt_iff he (ZoneName.isOrderly_of_resolve? hz) ?_ ?_ <;>
    simp only [IsWithin, dayMicros] at * <;> omega

/-- A cursor has a moment unless it has come to the last two days of the calendar. -/
theorem exists_localize [ZoneDatabase] (he : e.IsCentral)
    (hz : ZoneName.resolve? e.timeZone = some r) {anchor : Moment}
    (ha : e.start.inZone (.region r) = .ok anchor) {n : Nat} {cursor : Wall}
    (hcursor : (seriesAt rule limits anchor).cursorAt n = some cursor)
    (hlate : cursor.date.dayNumber + 2 ≤ Date.lastDayNumber) :
    ∃ start, Moment.localize cursor (.region r) = .ok start := by
  have hknown : (Zone.region r).IsOrderly := ZoneName.isOrderly_of_resolve? hz
  have hanchor : Wall.firstCount + 728 * dayMicros ≤ anchor.wall.count := by
    have hinstant := Moment.instant_of_inZone hknown ha
    rw [Moment.instant_eq, Moment.zone_of_inZone ha] at hinstant
    have hnear := (hknown.readAt_near anchor.wall.pass anchor.wall.count).2
    have hwithin := he.start.within.1
    simp only [dayMicros] at *
    omega
  have hfrom : anchor.wall.count ≤ cursor.count := by
    have hdate := Series.anchor_le_of_cursorAt hcursor
    have htime := Series.time_of_cursorAt hcursor
    rw [seriesAt_anchor] at hdate htime
    simp only [Wall.count, htime, dayMicros]
    omega
  have hto : cursor.count + 2 * dayMicros < Wall.endCount := by
    have htime := cursor.time.lt
    simp only [Wall.count, Wall.endCount, dayMicros] at *
    omega
  have hread : IsWithin 1 ((Zone.region r).readAt cursor.pass cursor.count) := by
    obtain ⟨h1, h2⟩ := hknown.readAt_near cursor.pass cursor.count
    simp only [IsWithin, dayMicros] at *
    omega
  obtain ⟨start, hstart, -⟩ := Moment.exists_localize hknown hread
  exact ⟨start, hstart⟩

/-! ## Added occurrences -/

/-- The starts of the added occurrences in a range, in their order. -/
def extraStarts [ZoneDatabase] (e : Event) (rule : Rule) (c : CheckedQuery) :
    Except ExpansionError (List Moment) := do
  let window ← e.windowOf c
  let excluded ← lift (daysIn e.calendarZone rule.excluded)
  let anchor ← lift (e.start.inZone e.calendarZone)
  let moments ← lift (rule.extras.mapM (extraMoment e.calendarZone anchor.wall))
  pure ((moments.filter (isExtraShown window excluded)).foldl (fun ms m => insertByWall m ms) [])

theorem extraStarts_eq_ok_iff [ZoneDatabase] {ms : List Moment} : e.extraStarts rule c = .ok ms ↔
    ∃ window days anchor moments, e.windowOf c = .ok window ∧
      daysIn e.calendarZone rule.excluded = .ok days ∧
      e.start.inZone e.calendarZone = .ok anchor ∧
      rule.extras.mapM (extraMoment e.calendarZone anchor.wall) = .ok moments ∧
      ms = (moments.filter (isExtraShown window days)).foldl
        (fun ms m => insertByWall m ms) [] := by
  unfold extraStarts
  constructor
  · intro h
    obtain ⟨window, hw, h⟩ := bind_eq_ok_iff.1 h
    obtain ⟨days, hd, h⟩ := bind_eq_ok_iff.1 h
    obtain ⟨anchor, ha, h⟩ := bind_eq_ok_iff.1 h
    obtain ⟨moments, hm, h⟩ := bind_eq_ok_iff.1 h
    cases h
    exact ⟨window, days, anchor, moments, hw, lift_eq_ok_iff.1 hd, lift_eq_ok_iff.1 ha,
      lift_eq_ok_iff.1 hm, rfl⟩
  · rintro ⟨window, days, anchor, moments, hw, hd, ha, hm, rfl⟩
    exact bind_eq_ok_iff.2 ⟨window, hw, bind_eq_ok_iff.2 ⟨days, lift_eq_ok_iff.2 hd,
      bind_eq_ok_iff.2 ⟨anchor, lift_eq_ok_iff.2 ha,
        bind_eq_ok_iff.2 ⟨moments, lift_eq_ok_iff.2 hm, rfl⟩⟩⟩⟩

/-- The added occurrences are made of their starts. -/
theorem extrasIn_eq [ZoneDatabase] (e : Event) (rule : Rule) (c : CheckedQuery) : e.extrasIn rule c
    = e.extraStarts rule c >>= fun ms => ms.mapM (e.occurrenceAt e.calendarZone true) := by
  simp only [extrasIn, extraOccurrences, extraStarts, bind_assoc, pure_bind]

theorem mem_of_mem_insertByWall {m x : Moment} {ms : List Moment} (h : x ∈ insertByWall m ms) :
    x = m ∨ x ∈ ms := by
  induction ms with
  | nil => exact Or.inl (List.mem_singleton.1 h)
  | cons y ys ih =>
    unfold insertByWall at h
    split at h
    · exact List.mem_cons.1 h
    · split at h
      · exact Or.inr h
      · rcases List.mem_cons.1 h with rfl | h
        · exact Or.inr List.mem_cons_self
        · exact (ih h).imp_right (List.mem_cons_of_mem y)

theorem mem_of_mem_foldl_insertByWall {x : Moment} {ms acc : List Moment}
    (h : x ∈ ms.foldl (fun ms m => insertByWall m ms) acc) : x ∈ ms ∨ x ∈ acc := by
  induction ms generalizing acc with
  | nil => exact Or.inr h
  | cons m ms ih =>
    rcases ih h with hx | hx
    · exact Or.inl (List.mem_cons_of_mem m hx)
    · rcases mem_of_mem_insertByWall hx with rfl | hx
      · exact Or.inl List.mem_cons_self
      · exact Or.inr hx

/-- A central value has a moment well within the calendar. -/
theorem exists_extraMoment {z : Zone} (hz : z.IsOrderly) (anchor : Wall) {v : TimeValue}
    (hv : v.IsCentral) :
    ∃ m, extraMoment z anchor v = .ok m ∧ IsWithin 729 m.instant := by
  cases v with
  | date d =>
    have hcount : IsWithin 730 (Wall.count { anchor with date := d }) :=
      Date.IsCentral.within (w := { anchor with date := d }) hv
    have hread : IsWithin 729 (z.readAt anchor.pass (Wall.count { anchor with date := d })) :=
      hcount.near (hz.readAt_near _ _)
    obtain ⟨m, hm, hinstant⟩ := Moment.exists_localize hz (w := { anchor with date := d })
      (hread.mono (by decide))
    exact ⟨m, hm, hinstant ▸ hread⟩
  | time t =>
    have hc : t.moment.IsCentral := hv
    obtain ⟨m, hm⟩ := Moment.exists_inZone hz (hc.within.mono (by decide))
    exact ⟨m, hm, Moment.instant_of_inZone hz hm ▸ hc.within⟩

/-- The starts of the added occurrences of a central event are found, well within the calendar. -/
theorem exists_extraStarts_of_isOrderly [ZoneDatabase] (he : e.IsCentral)
    (hrule : e.rule = some rule) (hknown : e.calendarZone.IsOrderly) (hq : q.IsCentral)
    (hc : q.check limits = .ok c) :
    ∃ ms, e.extraStarts rule c = .ok ms ∧ ∀ m ∈ ms, IsWithin 729 m.instant := by
  obtain ⟨window, hwindow⟩ := exists_windowOf he hq hc
  obtain ⟨days, hdays⟩ := exists_daysIn hknown (he.excluded rule hrule)
  obtain ⟨anchor, ha⟩ := Moment.exists_inZone hknown (he.start.within.mono (by decide))
  have hextra : ∀ v ∈ rule.extras,
      ∃ m, extraMoment e.calendarZone anchor.wall v = .ok m ∧ IsWithin 729 m.instant :=
    fun v hv => exists_extraMoment hknown anchor.wall (he.extras rule hrule v hv)
  obtain ⟨moments, hmoments⟩ :=
    exists_mapM_eq_ok_iff.2 fun v hv => (hextra v hv).imp fun _ h => h.1
  refine ⟨_, extraStarts_eq_ok_iff.2 ⟨window, days, anchor, moments, hwindow, hdays, ha, hmoments,
    rfl⟩, fun m hm => ?_⟩
  rcases mem_of_mem_foldl_insertByWall hm with hm | hm
  · obtain ⟨v, hv, hvm⟩ := exists_of_mem_mapM hmoments (List.mem_filter.1 hm).1
    obtain ⟨m', hm', hwithin⟩ := hextra v hv
    cases hvm.symm.trans hm'
    exact hwithin
  · cases hm

theorem exists_extraStarts [ZoneDatabase] (he : e.IsCentral) (hrule : e.rule = some rule)
    (hz : ZoneName.resolve? e.timeZone = some r) (hq : q.IsCentral) (hc : q.check limits = .ok c) :
    ∃ ms, e.extraStarts rule c = .ok ms ∧ ∀ m ∈ ms, IsWithin 729 m.instant :=
  exists_extraStarts_of_isOrderly he hrule (isOrderly_of_resolve? hz) hq hc

/-- The added occurrences are made if they last. -/
theorem exists_extrasIn_iff [ZoneDatabase] (he : e.IsCentral) (hrule : e.rule = some rule)
    (hz : ZoneName.resolve? e.timeZone = some r) (hq : q.IsCentral) (hc : q.check limits = .ok c) :
    (∃ os, e.extrasIn rule c = .ok os) ↔
      ∃ ms, e.extraStarts rule c = .ok ms ∧ ∀ m ∈ ms, e.Lasts r m := by
  have hr := ZoneName.isOrderly_of_resolve? hz
  obtain ⟨ms, hms, hwithin⟩ := exists_extraStarts he hrule hz hq hc
  have hmade : ∀ m ∈ ms, (∃ o, e.occurrenceAt (.region r) true m = .ok o) ↔ e.Lasts r m := by
    intro m hm
    have := hwithin m hm
    refine exists_occurrenceAt_iff he hr ?_ ?_ <;> simp only [IsWithin, dayMicros] at * <;> omega
  rw [extrasIn_eq, calendarZone_of_resolve? hz, hms]
  change (∃ os, ms.mapM (e.occurrenceAt (.region r) true) = Except.ok os) ↔ _
  rw [exists_mapM_eq_ok_iff]
  constructor
  · intro h
    exact ⟨ms, rfl, fun m hm => (hmade m hm).1 (h m hm)⟩
  · rintro ⟨ms', hms', h⟩ m hm
    cases hms'
    exact (hmade m hm).2 (h m hm)

/-! ## The expansion -/

/-- Whether the series of an event comes to cursors that can be localized only, and asks only for
occurrences that last. -/
def SeriesLasts [ZoneDatabase] (e : Event) (r : Region) (rule : Rule) (limits : Limits)
    (c : CheckedQuery) : Prop :=
  ∃ w, e.walk rule limits c = .ok w ∧
    ∀ n cursor, w.Visits n → w.series.cursorAt n = some cursor →
      (∃ start, Moment.localize cursor (.region r) = .ok start) ∧
        ∀ start, w.AsksFor n cursor start → e.Lasts r start

/-- Whether all occurrences last that an expansion asks for. -/
def AllLast [ZoneDatabase] (e : Event) (r : Region) (limits : Limits) (c : CheckedQuery) : Prop :=
  match e.rule with
  | none => e.start.before c.finish = true → c.start.before e.finish = true → e.Lasts r e.start
  | some rule => e.SeriesLasts r rule limits c ∧
      ∃ ms, e.extraStarts rule c = .ok ms ∧ ∀ m ∈ ms, e.Lasts r m

/-- The series of a central event does not fail if its occurrences last. -/
theorem exists_seriesRun_iff [ZoneDatabase] (he : e.IsCentral) (hrule : e.rule = some rule)
    (hz : ZoneName.resolve? e.timeZone = some r) (hq : q.IsCentral) (hc : q.check limits = .ok c) :
    (∃ cut, (e.seriesRun rule limits c).ending = .finished cut)
      ↔ e.SeriesLasts r rule limits c := by
  obtain ⟨w, hw⟩ := exists_walk he hrule hz hq hc
  simp only [seriesRun, hw]
  rw [Walk.run_finished_iff, zone_of_walk hw, event_of_walk hw, calendarZone_of_resolve? hz]
  constructor
  · intro h
    refine ⟨w, hw, fun n cursor hv hcursor => ⟨(h n cursor hv hcursor).1, fun start hask => ?_⟩⟩
    exact (exists_occurrenceAt_of_asksFor he hz hq hc hw hask).1
      ((h n cursor hv hcursor).2 start hask)
  · rintro ⟨w', hw', h⟩ n cursor hv hcursor
    cases hw.symm.trans hw'
    refine ⟨(h n cursor hv hcursor).1, fun start hask => ?_⟩
    exact (exists_occurrenceAt_of_asksFor he hz hq hc hw hask).2
      ((h n cursor hv hcursor).2 start hask)

/-- An event without a rule does not fail if it lasts where it overlaps the range. -/
theorem exists_singleRun_iff [ZoneDatabase] (he : e.IsCentral)
    (hz : ZoneName.resolve? e.timeZone = some r) :
    (∃ cut, (e.singleRun c).ending = .finished cut) ↔
      (e.start.before c.finish = true → c.start.before e.finish = true → e.Lasts r e.start) := by
  have hwithin := he.start.within
  have hmade : (∃ o, e.occurrenceAt (.region r) false e.start = .ok o) ↔ e.Lasts r e.start := by
    refine exists_occurrenceAt_iff he (ZoneName.isOrderly_of_resolve? hz) ?_ ?_ <;>
      simp only [IsWithin, dayMicros] at * <;> omega
  unfold singleRun
  rw [calendarZone_of_resolve? hz]
  split
  · next hover =>
    obtain ⟨h1, h2⟩ := Bool.and_eq_true_iff.1 hover
    simp only [h1, h2, true_imp_iff, ← hmade]
    cases e.occurrenceAt (.region r) false e.start with
    | ok o => simp
    | error err => simp [Run.ofError]
  · next hover =>
    refine ⟨fun _ h1 h2 => ?_, fun _ => ⟨false, rfl⟩⟩
    rw [h1, h2] at hover
    exact absurd rfl hover

/--
**When an expansion succeeds.** For an event and a range of central dates it gives a result exactly
if every cursor that the walk comes to has a moment within the calendar, and every occurrence that
is asked for ends after it starts on the wall of the zone.
-/
theorem exists_expand_iff [ZoneDatabase] (hz : ZoneName.resolve? e.timeZone = some r)
    (he : e.IsCentral) (hq : q.IsCentral) (hc : q.check limits = .ok c) :
    (∃ x, e.expand limits q = .ok x) ↔ e.AllLast r limits c := by
  have hexpand : (∃ x, e.expand limits q = .ok x) ↔
      ∃ cut, (e.occurrences limits c).ending = .finished cut := by
    constructor
    · rintro ⟨x, hx⟩
      obtain ⟨c', hc', hrun⟩ := expand_eq_ok_iff.1 hx
      cases hc.symm.trans hc'
      exact ⟨x.cutShort, by rw [hrun]⟩
    · rintro ⟨cut, hcut⟩
      exact ⟨⟨(e.occurrences limits c).occurrences, cut⟩,
        expand_eq_ok_iff.2 ⟨c, hc, by rw [← hcut]⟩⟩
  rw [hexpand]
  unfold occurrences AllLast
  cases hrule : e.rule with
  | none => exact exists_singleRun_iff he hz
  | some rule =>
    have hseries := exists_seriesRun_iff he hrule hz hq hc
    have hextras := exists_extrasIn_iff he hrule hz hq hc
    simp only
    split
    · next hnone =>
      -- without added occurrences there are none to be made
      rw [hseries]
      obtain ⟨ms, hms, -⟩ := exists_extraStarts he hrule hz hq hc
      obtain ⟨window, days, anchor, moments, -, -, -, hmoments, rfl⟩ := extraStarts_eq_ok_iff.1 hms
      rw [hnone] at hmoments
      cases hmoments
      exact ⟨fun h => ⟨h, _, hms, fun m hm => by cases hm⟩, fun h => h.1⟩
    · rw [← hseries, ← hextras]
      cases e.extrasIn rule c with
      | error err => simp [Run.ofError]
      | ok os => simp [Run.withExtras]

/-! ## An example -/

/-- A quarter to two in London on three nights, for half an hour. On the second one the clock is set
back in between. -/
def lateNights : Event where
  id := "nights"
  start := .london (.near 2024 10 26) 105
  finish := .london (.near 2024 10 26) 135
  timeZone := "Europe/London"
  rule := some (.daily 3)
  finish_after_start := by decide +kernel

/-- The days around these nights. -/
def fourNights : Query where
  start := .ofUtc ⟨.near 2024 10 26, .midnight, .first⟩
  finish := .ofUtc ⟨.near 2024 10 30, .midnight, .first⟩

/-- These nights are asked for as they should be. -/
theorem lateNights_central : ZoneName.resolve? lateNights.timeZone = some .london ∧
    lateNights.IsCentral ∧ fourNights.IsCentral ∧
    ∃ c, fourNights.check .standard = .ok c := by
  obtain ⟨c, hc, -⟩ : ∃ c, fourNights.check .standard = .ok c ∧
      c.start = fourNights.start :=
    exists_ok_of_any (by decide +kernel)
  refine ⟨by decide +kernel, ?_, ⟨by decide +kernel, by decide +kernel⟩, c, hc⟩
  refine ⟨by decide +kernel, by decide +kernel, by decide +kernel, by decide +kernel, ?_, ?_⟩
  all_goals
    intro rule hrule v hv
    cases hrule
    cases hv

/-- Half an hour from 01:45 ends at 01:15 on the second night, so the expansion fails. -/
theorem lateNights_refused : ZoneName.resolve? lateNights.timeZone = some .london ∧
    lateNights.IsCentral ∧ fourNights.IsCentral ∧
    (∃ c, fourNights.check .standard = .ok c) ∧
    lateNights.expand .standard fourNights = .error (.refused [endIssue]) := by
  obtain ⟨hz, he, hq, hc⟩ := lateNights_central
  exact ⟨hz, he, hq, hc, eq_error_of_fault? (by decide +kernel)⟩

/-- The first of these nights alone. -/
def firstNight : Query where
  start := .ofUtc ⟨.near 2024 10 26, .midnight, .first⟩
  finish := .ofUtc ⟨.near 2024 10 27, .midnight, .first⟩

/-- The condition is met on the first night and fails where the second one is asked for. -/
theorem lateNights_allLast : lateNights.IsCentral ∧
    (∃ c, firstNight.check .standard = .ok c ∧
      (∃ x, lateNights.expand .standard firstNight = .ok x) ∧
      lateNights.AllLast .london .standard c) ∧
    ∃ c, fourNights.check .standard = .ok c ∧
      (¬ ∃ x, lateNights.expand .standard fourNights = .ok x) ∧
      ¬ lateNights.AllLast .london .standard c := by
  obtain ⟨hz, he, hq, ⟨c, hc⟩⟩ := lateNights_central
  have hfails : ¬ ∃ x, lateNights.expand .standard fourNights = .ok x := by
    rintro ⟨x, hx⟩
    have herror : lateNights.expand .standard fourNights = .error (.refused [endIssue]) :=
      eq_error_of_fault? (by decide +kernel)
    cases hx.symm.trans herror
  have hfirst : firstNight.IsCentral := ⟨by decide +kernel, by decide +kernel⟩
  obtain ⟨d, hd, -⟩ : ∃ d, firstNight.check .standard = .ok d ∧ d.start = firstNight.start :=
    exists_ok_of_any (by decide +kernel)
  obtain ⟨x, hx, -⟩ : ∃ x, lateNights.expand .standard firstNight = .ok x ∧
      x.occurrences.length = 1 :=
    exists_ok_of_any (by decide +kernel)
  exact ⟨he, ⟨d, hd, ⟨x, hx⟩, (exists_expand_iff hz he hfirst hd).1 ⟨x, hx⟩⟩,
    c, hc, hfails, fun hall => hfails ((exists_expand_iff hz he hq hc).2 hall)⟩

end Event

end RecurringEvents
