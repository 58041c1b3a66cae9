import RecurringEvents.Proofs.Expansion.Identity
import RecurringEvents.Proofs.Expansion.SameSeries
import RecurringEvents.Proofs.Expansion.Totality

/-!
# Events that occur once

An event without a rule and the event with a rule for a single day take different ways through an
expansion. Without a rule its own times are compared with the range; with the rule a walk localizes
its start again and shows it in a window that begins earlier by its length. Both give the event
itself, in the same ranges but for one: a range that begins when the event ends has it only by the
rule.

* `Event.once`: the event with the rule.
* `Event.single_iff_overlaps`: without the rule.
* `Event.once_iff_reaches`: with the rule, of which the walk shows its first cursor or none.
* `Event.once_agrees`: both.
-/

namespace RecurringEvents

variable {e : Event} {r : Region} {limits : Limits} {q : Query} {w : Walk} {o : Occurrence}
  {start : Moment} {c : Wall} {n : Nat} {cut : Bool}

namespace Event

/-- The event with a rule by which it occurs on one day. -/
def once (e : Event) : Event := e.withRule (some (.daily 1))

/-- Whether an event starts before the end of a range and ends after its start. -/
def Overlaps (e : Event) (q : Query) : Prop :=
  e.start.instant < q.finish.instant ∧ q.start.instant < e.finish.instant

/-- Whether an event starts before the end of a range and ends no earlier than it begins. -/
def Reaches (e : Event) (q : Query) : Prop :=
  e.start.instant < q.finish.instant ∧ q.start.instant ≤ e.finish.instant

/-- Whether there is just one occurrence, which starts and ends when the event does. -/
def IsAllOf (e : Event) (os : List Occurrence) : Prop :=
  ∃ o, os = [o] ∧ o.start.instant = e.start.instant ∧ o.finish.instant = e.finish.instant

/-- An occurrence ends as much later than it starts as the event lasts. -/
theorem finish_of_occurrenceAt {z : Zone} (hz : z.IsOrderly) {recurring : Bool}
    (h : e.occurrenceAt z recurring start = .ok o) :
    o.finish.instant = start.instant + e.length := by
  obtain ⟨u, d, v, finish, hu, hd, hv, hf, -, rfl⟩ := occurrenceAt_eq_ok_iff.1 h
  obtain ⟨hzone, hcount⟩ := Moment.count_of_inUtc hu
  obtain ⟨-, -, hinstant⟩ := Moment.add_eq_ok_of_utc hzone hv
  rw [Moment.instant_of_inZone hz hf, hinstant, Moment.instant_of_inZone Zone.isOrderly_utc hu,
    (duration_eq_ok_iff.1 hd).2.2, length]

/-- An occurrence that starts when the event does ends when it does. -/
theorem isAllOf_singleton {z : Zone} (hz : z.IsOrderly) {recurring : Bool}
    (h : e.occurrenceAt z recurring start = .ok o) (hs : start.instant = e.start.instant) :
    e.IsAllOf [o] := by
  refine ⟨o, rfl, ?_, ?_⟩
  · rw [start_of_occurrenceAt h, hs]
  · rw [finish_of_occurrenceAt hz h, hs, length]
    omega

/-! ## Without a rule -/

/-- The ends of a range are moments of UTC, so an event is compared with them by the instants. -/
theorem before_iff_overlaps {k : CheckedQuery} (hk : q.check limits = .ok k) :
    (e.start.before k.finish && k.start.before e.finish) = true ↔ e.Overlaps q := by
  obtain ⟨hs, hf, -, -⟩ := Query.check_eq_ok hk
  rw [Bool.and_eq_true_iff, Moment.before_of_utc (Moment.zone_of_inZone hf),
    Moment.before_of_utc_left (Moment.zone_of_inZone hs), decide_eq_true_eq, decide_eq_true_eq,
    Moment.instant_of_inZone Zone.isOrderly_utc hf, Moment.instant_of_inZone Zone.isOrderly_utc hs,
    Overlaps]

/-- **An event without a rule is in the ranges that it overlaps.** -/
theorem single_iff_overlaps [ZoneDatabase] {x : Expansion} (hz : e.calendarZone.IsOrderly)
    (hrule : e.rule = none) (h : e.expand limits q = .ok x) :
    (x.occurrences ≠ [] ↔ e.Overlaps q) ∧ (x.occurrences ≠ [] → e.IsAllOf x.occurrences) := by
  obtain ⟨c, hc, hrun⟩ := expand_eq_ok_iff.1 h
  have hover : _ ↔ e.Overlaps q := before_iff_overlaps hc
  have hsingle : e.singleRun c = ⟨x.occurrences, .finished x.cutShort⟩ := by
    rwa [occurrences, hrule] at hrun
  unfold singleRun at hsingle
  split at hsingle
  · next hyes =>
    split at hsingle
    · next o ho =>
      have hx : [o] = x.occurrences := congrArg Run.occurrences hsingle
      rw [← hx]
      exact ⟨iff_of_true (List.cons_ne_nil o []) (hover.1 hyes),
        fun _ => isAllOf_singleton hz ho rfl⟩
    · cases congrArg Run.ending hsingle
  · next hno =>
    have hx : [] = x.occurrences := congrArg Run.occurrences hsingle
    rw [← hx]
    exact ⟨iff_of_false (fun hne => hne rfl) fun hyes => hno (hover.2 hyes),
      fun hne => absurd rfl hne⟩

/-! ## With the rule -/

end Event

/-- Every cursor passes the filters of a rule for some days in a row. -/
theorem Rule.passes_daily (n : Nat) (c : Wall) : (Rule.daily n).passes c = true := rfl

/-- The series of the rule begins at its anchor. -/
theorem Event.cursorAt_zero_once (anchor : Moment) :
    (seriesAt (.daily 1) limits anchor).cursorAt 0 = some anchor.wall := rfl

namespace Walk

/-- A cursor whose occurrence is asked for gives the one that is made. -/
theorem AsksFor.gives (h : w.AsksFor n c start)
    (ho : w.event.occurrenceAt w.zone true start = .ok o) : w.Gives n c o := by
  have hstart := Event.start_of_occurrenceAt ho
  exact ⟨h.goes_on.cursor, hstart ▸ h.goes_on.localized, h.passes, hstart ▸ h.shown, hstart ▸ ho⟩

/-- A cursor that is not shown gives nothing. -/
theorem madeAt?_of_not_shown (hs : Moment.localize c w.zone = .ok start)
    (hc : w.series.cursorAt n = some c) (hshown : w.isShown c start = false) :
    w.madeAt? n = none := by
  refine Option.eq_none_iff_forall_ne_some.2 fun o ho => ?_
  obtain ⟨c', hgives⟩ := madeAt?_eq_some_iff.1 ho
  cases hc.symm.trans hgives.cursor
  cases hs.symm.trans hgives.localized
  rw [hgives.shown] at hshown
  cases hshown

theorem passedBefore_zero (s : Series) : s.passedBefore 0 = 0 := rfl

/-- The first cursor uses up the count of the rule. -/
theorem passedBefore_one_of_once (hrule : w.rule = .daily 1) (hc : w.series.cursorAt 0 = some c) :
    w.series.passedBefore 1 = 1 := by
  rw [Series.passedBefore_succ hc, show w.series.rule = .daily 1 from hrule, Rule.passes_daily]
  rfl

/-- A walk by the rule comes to its second cursor at most. -/
theorem Visits.le_one_of_once (hrule : w.rule = .daily 1) (h : w.Visits n) : n ≤ 1 := by
  refine Nat.not_lt.1 fun hlt => ?_
  obtain ⟨c, first, hfirst⟩ := h 0 (by omega)
  obtain ⟨d, second, hsecond⟩ := h 1 hlt
  have hcount := hsecond.under_count 1 (by rw [hrule]; rfl)
  rw [passedBefore_one_of_once hrule hfirst.cursor] at hcount
  omega

/-- So it goes on from no later cursor than the first. -/
theorem GoesOn.eq_zero_of_once (hrule : w.rule = .daily 1) (h : w.GoesOn n c start)
    (hv : w.Visits n) : n = 0 := by
  have hnext : w.Visits (n + 1) := by
    intro m hm
    rcases Nat.lt_succ_iff_lt_or_eq.1 hm with hm | rfl
    · exact hv m hm
    · exact ⟨c, start, h⟩
  have := hnext.le_one_of_once hrule
  omega

/-- A walk goes on from its first cursor if this is not past the range. -/
theorem goesOn_zero (hcap : 1 ≤ w.cap) (hsteps : 1 ≤ w.maxIterations)
    (hc : w.series.cursorAt 0 = some c) (hs : Moment.localize c w.zone = .ok start)
    (hpast : w.isPast start = false) :
    w.GoesOn 0 c start where
  cursor := hc
  localized := hs
  not_past := hpast
  under_count k hk := by
    have hpos := w.rule.count_pos k hk
    rw [passedBefore_zero]
    omega
  under_cap := by
    rw [passedBefore_zero]
    omega
  under_steps := by omega

/-- **A walk by the rule gives what its first cursor gives**, if this is not past the range. -/
theorem EndsAt.madeBefore_of_once (hrule : w.rule = .daily 1) (hcap : 1 ≤ w.cap)
    (hsteps : 1 ≤ w.maxIterations) (h : w.EndsAt n cut) (hc : w.series.cursorAt 0 = some c)
    (hs : Moment.localize c w.zone = .ok start) :
    w.madeBefore n = if w.isPast start then [] else (w.madeAt? 0).toList := by
  have hle := h.visits.le_one_of_once hrule
  have hend : n = 0 ∨ n = 1 := by omega
  cases hpast : w.isPast start with
  | true =>
    rcases hend with rfl | rfl
    · rfl
    · obtain ⟨c', start', hgo⟩ := h.visits 0 Nat.one_pos
      cases hc.symm.trans hgo.cursor
      cases hs.symm.trans hgo.localized
      rw [hgo.not_past] at hpast
      cases hpast
  | false =>
    have hgo := goesOn_zero hcap hsteps hc hs hpast
    rcases hend with rfl | rfl
    · -- it neither is over there nor has it used up a limit
      obtain ⟨hnot, hfree⟩ := hgo.not_over
      cases cut with
      | false => exact absurd (h.over_iff.2 rfl) hnot
      | true => exact absurd (h.spent rfl) hfree
    · rfl

end Walk

namespace Event

/-- **The walk by the rule begins where the event does.** -/
theorem start_of_once [ZoneDatabase] {k : CheckedQuery} (hz : e.calendarZone.IsOrderly)
    (hw : e.once.walk (.daily 1) limits k = .ok w) (hc : w.series.cursorAt 0 = some c)
    (hs : Moment.localize c w.zone = .ok start) :
    start.zone = e.calendarZone ∧ start.instant = e.start.instant ∧ start.IsReal := by
  obtain ⟨anchor, days, window, ha, -, -, rfl⟩ := walk_eq_ok_iff.1 hw
  have hanchor : anchor.instant = e.start.instant := Moment.instant_of_inZone hz ha
  obtain ⟨hzone, hread, hreal⟩ := Moment.of_localize hz hs
  cases (cursorAt_zero_once anchor).symm.trans hc
  refine ⟨hzone, ?_, hreal⟩
  rw [hread, ← hanchor, Moment.instant_eq, Moment.zone_of_inZone ha]
  rfl

/-- The walk by the rule compares instants. -/
theorem window_of_once [ZoneDatabase] {k : CheckedQuery} (hk : q.check limits = .ok k)
    (hw : e.once.walk (.daily 1) limits k = .ok w) (c : Wall) (start : Moment) :
    w.isPast start = !decide (start.instant < q.finish.instant) ∧
      w.isShown c start = decide (q.start.instant - e.length ≤ start.instant) := by
  obtain ⟨anchor, days, window, -, hdays, hwindow, rfl⟩ := walk_eq_ok_iff.1 hw
  obtain ⟨d, hd, ⟨hszone, hs⟩, ⟨hfzone, hf⟩⟩ := windowOf_utc hk hwindow
  have hlength : d = e.length := (duration_eq_ok_iff.1 hd).2.2
  have hnone : days = [] := (Except.ok.inj hdays).symm
  constructor
  · rw [← hf, ← Moment.before_of_utc hfzone]
    rfl
  · rw [← hlength, ← hs, ← Moment.notAfter_of_utc hszone, hnone]
    rfl

/-- An expansion by the rule gives what the first cursor of its walk gives, and this gives an
occurrence if it is in the range. -/
theorem exists_first_of_once [ZoneDatabase] {y : Expansion} (hsteps : 1 ≤ limits.maxIterations)
    (h : e.once.expand limits q = .ok y) :
    ∃ k w first start, q.check limits = .ok k ∧ e.once.walk (.daily 1) limits k = .ok w ∧
      w.series.cursorAt 0 = some first ∧ Moment.localize first w.zone = .ok start ∧
      (y.occurrences = if w.isPast start then [] else (w.madeAt? 0).toList) ∧
      (w.isPast start = false → w.isShown first start = true →
        ∃ o, e.once.occurrenceAt e.calendarZone true start = .ok o ∧ w.madeAt? 0 = some o) := by
  obtain ⟨k, w, hk, hw, hrun⟩ := exists_walk_of_expand rfl rfl h
  obtain ⟨-, -, -, hcap⟩ := Query.check_eq_ok hk
  have hending := congrArg Run.ending hrun
  obtain ⟨n, hends, hmade⟩ := Walk.exists_endsAt_of_run hending
  obtain ⟨anchor, days, window, -, -, -, rfl⟩ := walk_eq_ok_iff.1 hw
  have hfirst : (seriesAt (.daily 1) limits anchor).cursorAt 0 = some anchor.wall :=
    cursorAt_zero_once anchor
  obtain ⟨⟨start, hs⟩, hmakes⟩ := Walk.run_finished_iff.1 ⟨y.cutShort, hending⟩ 0 anchor.wall
    (fun m hm => absurd hm (Nat.not_lt_zero m)) hfirst
  refine ⟨k, _, anchor.wall, start, hk, hw, hfirst, hs, ?_, fun hpast hshown => ?_⟩
  · rw [← hends.madeBefore_of_once rfl hcap hsteps hfirst hs, ← hmade, hrun]
  · have hasks := Walk.AsksFor.mk (Walk.goesOn_zero hcap hsteps hfirst hs hpast)
      (Rule.passes_daily 1 _) hshown
    obtain ⟨o, ho⟩ := hmakes start hasks
    exact ⟨o, ho, Walk.madeAt?_eq_some_iff.2 ⟨_, hasks.gives ho⟩⟩

/-- **By the rule an event is in the ranges that it reaches.** -/
theorem once_iff_reaches [ZoneDatabase] {y : Expansion} (hz : e.calendarZone.IsOrderly)
    (hsteps : 1 ≤ limits.maxIterations) (h : e.once.expand limits q = .ok y) :
    (y.occurrences ≠ [] ↔ e.Reaches q) ∧ (y.occurrences ≠ [] → e.IsAllOf y.occurrences) := by
  obtain ⟨k, w, first, start, hk, hw, hc, hs, hy, hmakes⟩ := exists_first_of_once hsteps h
  obtain ⟨-, hinstant, -⟩ := start_of_once hz hw hc hs
  obtain ⟨hpast, hshown⟩ := window_of_once hk hw first start
  have hreaches : e.Reaches q ↔
      start.instant < q.finish.instant ∧ q.start.instant - e.length ≤ start.instant := by
    rw [Reaches, length, hinstant]
    omega
  by_cases hasked : e.Reaches q
  · obtain ⟨hbefore, hafter⟩ := hreaches.1 hasked
    rw [decide_eq_true hbefore] at hpast
    rw [decide_eq_true hafter] at hshown
    obtain ⟨o, ho, hmade⟩ := hmakes hpast hshown
    rw [hpast, hmade] at hy
    have hone : y.occurrences = [o] := hy
    rw [hone]
    exact ⟨iff_of_true (List.cons_ne_nil o []) hasked,
      fun _ => isAllOf_singleton (e := e.once) hz ho hinstant⟩
  · have hnone : y.occurrences = [] := by
      rw [hy]
      split
      · rfl
      · next hnot =>
        have hbefore : start.instant < q.finish.instant := by simpa [hpast] using hnot
        rw [decide_eq_false fun hafter => hasked (hreaches.2 ⟨hbefore, hafter⟩)] at hshown
        rw [Walk.madeAt?_of_not_shown hs hc hshown]
        rfl
    rw [hnone]
    exact ⟨iff_of_false (fun hne => hne rfl) hasked, fun hne => absurd rfl hne⟩

/-! ## Both -/

/-- What an occurrence at the event's own start needs, as it is given and as it is localized: it
ends after it starts on the wall of the zone. -/
structure LastsOnce (e : Event) (r : Region) : Prop where
  given : e.Lasts r e.start
  localized : (Zone.region r).shown e.start.instant
    < (Zone.region r).shown (e.start.instant + e.length)

/-- Without a rule the expansion succeeds. -/
theorem exists_single_of_lasts [ZoneDatabase] {k : CheckedQuery}
    (hz : ZoneName.resolve? e.timeZone = some r)
    (hrule : e.rule = none) (he : e.IsCentral) (hk : q.check limits = .ok k)
    (hlasts : e.LastsOnce r) : ∃ x, e.expand limits q = .ok x := by
  obtain ⟨cut, hcut⟩ := (exists_singleRun_iff (c := k) he hz).2 fun _ _ => hlasts.given
  refine ⟨⟨(e.singleRun k).occurrences, cut⟩, expand_eq_ok_iff.2 ⟨k, hk, ?_⟩⟩
  rw [occurrences, hrule]
  simp only [← hcut]

/-- A central event without a rule is central with the rule for one day. -/
theorem IsCentral.once (he : e.IsCentral) : e.once.IsCentral where
  start := he.start
  finish := he.finish
  length_pos := he.length_pos
  length_le := he.length_le
  excluded rule hrule v hv := by
    cases hrule
    cases hv
  extras rule hrule v hv := by
    cases hrule
    cases hv

/-- The anchor of a central event lies well within the calendar. -/
theorem IsCentral.anchor_within {anchor : Moment} (he : e.IsCentral) (hr : r.IsOrderly)
    (ha : e.start.inZone (.region r) = .ok anchor) : IsWithin 728 anchor.wall.count := by
  have hknown : (Zone.region r).IsOrderly := hr
  have hinstant := Moment.instant_of_inZone hknown ha
  rw [Moment.instant_eq, Moment.zone_of_inZone ha] at hinstant
  have hnear := hknown.readAt_near anchor.wall.pass anchor.wall.count
  refine he.start.within.near ?_
  omega

/-- The walk by the rule comes to the anchor and perhaps to the day after it. -/
theorem dayNumber_le_of_once {anchor : Moment} (hn : n ≤ 1)
    (hc : (seriesAt (.daily 1) limits anchor).cursorAt n = some c) :
    c.date.dayNumber ≤ anchor.wall.date.dayNumber + 1 := by
  have hcase : n = 0 ∨ n = 1 := by omega
  rcases hcase with rfl | rfl
  · cases (cursorAt_zero_once anchor).symm.trans hc
    omega
  · have hnext : anchor.wall.addDays? 1 = some c := hc
    have := (Wall.addDays?_eq_some hnext).1
    omega

/-- The walk by the rule comes to moments only, and makes what it asks for. -/
theorem seriesLasts_once [ZoneDatabase] {k : CheckedQuery}
    (hz : ZoneName.resolve? e.timeZone = some r) (he : e.IsCentral) (hq : q.IsCentral)
    (hk : q.check limits = .ok k) (hlasts : e.LastsOnce r) :
    e.once.SeriesLasts r (.daily 1) limits k := by
  have hzone := calendarZone_of_resolve? hz
  have hr := ZoneName.isOrderly_of_resolve? hz
  have hknown := isOrderly_of_resolve? hz
  obtain ⟨w, hw⟩ := exists_walk he.once rfl hz hq hk
  refine ⟨w, hw, fun n cursor hv hcursor => ⟨?_, fun start hask => ?_⟩⟩
  · obtain ⟨anchor, days, window, ha, -, -, rfl⟩ := walk_eq_ok_iff.1 hw
    have ha : e.start.inZone (.region r) = .ok anchor := hzone ▸ ha
    have hlate : cursor.date.dayNumber + 2 ≤ Date.lastDayNumber := by
      have hnext := dayNumber_le_of_once (hv.le_one_of_once rfl) hcursor
      have hwithin := (he.anchor_within hr ha).2
      have htime := anchor.wall.time.nonneg
      simp only [Wall.count, Wall.endCount, dayMicros] at *
      omega
    exact exists_localize he.once hz ha hcursor hlate
  · obtain rfl := hask.goes_on.eq_zero_of_once (rule_of_walk hw) hv
    obtain ⟨-, hinstant, hreal⟩ := start_of_once hknown hw hcursor hask.goes_on.localized
    intro hstart
    rw [← hreal, hstart, hinstant]
    exact hlasts.localized

/-- By the rule the expansion succeeds. -/
theorem exists_once_of_lasts [ZoneDatabase] {k : CheckedQuery}
    (hz : ZoneName.resolve? e.timeZone = some r)
    (he : e.IsCentral) (hq : q.IsCentral) (hk : q.check limits = .ok k)
    (hlasts : e.LastsOnce r) : ∃ y, e.once.expand limits q = .ok y := by
  obtain ⟨cut, hcut⟩ := (exists_seriesRun_iff he.once rfl hz hq hk).2
    (seriesLasts_once hz he hq hk hlasts)
  refine ⟨⟨(e.once.seriesRun (.daily 1) limits k).occurrences, cut⟩,
    expand_eq_ok_iff.2 ⟨k, hk, ?_⟩⟩
  rw [← hcut]
  rfl

/--
**An event occurs in the same ranges with a rule for one day and without a rule, and at the same
time**, unless it ends when the range begins: then it is there only by the rule. Neither way fails
for central dates if the occurrence lasts.
-/
theorem once_agrees [ZoneDatabase] (hz : ZoneName.resolve? e.timeZone = some r)
    (hrule : e.rule = none) (hsteps : 1 ≤ limits.maxIterations) :
    (∀ x y, e.expand limits q = .ok x → e.once.expand limits q = .ok y →
      (e.finish.instant ≠ q.start.instant → (x.occurrences ≠ [] ↔ y.occurrences ≠ [])) ∧
      (x.occurrences ≠ [] ↔ e.Overlaps q) ∧ (y.occurrences ≠ [] ↔ e.Reaches q) ∧
      (x.occurrences ≠ [] → e.IsAllOf x.occurrences) ∧
      (y.occurrences ≠ [] → e.IsAllOf y.occurrences)) ∧
    (e.IsCentral → q.IsCentral → (∃ k, q.check limits = .ok k) → e.LastsOnce r →
      (∃ x, e.expand limits q = .ok x) ∧ ∃ y, e.once.expand limits q = .ok y) := by
  have hknown := isOrderly_of_resolve? hz
  constructor
  · intro x y hx hy
    obtain ⟨hsingle, hallx⟩ := single_iff_overlaps hknown hrule hx
    obtain ⟨honce, hally⟩ := once_iff_reaches hknown hsteps hy
    refine ⟨fun hend => ?_, hsingle, honce, hallx, hally⟩
    rw [hsingle, honce, Overlaps, Reaches]
    omega
  · rintro he hq ⟨k, hk⟩ hlasts
    exact ⟨exists_single_of_lasts hz hrule he hk hlasts, exists_once_of_lasts hz he hq hk hlasts⟩

/-! ## An example -/

/-- An hour of one morning in London. -/
def oneMorning : Event where
  id := "morning"
  start := .london (october 26) 540
  finish := .london (october 26) 600
  timeZone := "Europe/London"
  finish_after_start := by decide +kernel

/-- The rest of the day. -/
def fromTen : Query := ⟨.london (october 26) 600, .london (october 27) 0, none⟩

/-- A range that begins at ten has the hour before it only by the rule. -/
theorem oneMorning_from_ten : ZoneName.resolve? oneMorning.timeZone = some .london ∧
    oneMorning.rule = none ∧
    ∃ x y, oneMorning.expand .standard fromTen = .ok x ∧
      oneMorning.once.expand .standard fromTen = .ok y ∧
      ¬(x.occurrences ≠ [] ↔ y.occurrences ≠ []) := by
  obtain ⟨x, hx, hnone⟩ : ∃ x, oneMorning.expand .standard fromTen = .ok x ∧
      x.occurrences = [] := exists_ok_of_any (by decide +kernel)
  obtain ⟨y, hy, hone⟩ : ∃ y, oneMorning.once.expand .standard fromTen = .ok y ∧
      y.occurrences ≠ [] := exists_ok_of_any (by decide +kernel)
  exact ⟨by decide +kernel, rfl, x, y, hx, hy, fun h => h.2 hone hnone⟩

/-- The days around it have it either way. -/
theorem oneMorning_agrees : ∃ x y, oneMorning.expand .standard lateOctober = .ok x ∧
    oneMorning.once.expand .standard lateOctober = .ok y ∧
    oneMorning.IsAllOf x.occurrences ∧ oneMorning.IsAllOf y.occurrences := by
  obtain ⟨x, hx, hone⟩ : ∃ x, oneMorning.expand .standard lateOctober = .ok x ∧
      x.occurrences ≠ [] := exists_ok_of_any (by decide +kernel)
  obtain ⟨y, hy, -⟩ : ∃ y, oneMorning.once.expand .standard lateOctober = .ok y ∧
      y.occurrences ≠ [] := exists_ok_of_any (by decide +kernel)
  obtain ⟨hagree, -, -, hallx, hally⟩ :=
    (once_agrees (r := .london) (by decide +kernel) rfl (by decide)).1 x y hx hy
  exact ⟨x, y, hx, hy, hallx hone, hally ((hagree (by decide +kernel)).1 hone)⟩

end Event

end RecurringEvents
