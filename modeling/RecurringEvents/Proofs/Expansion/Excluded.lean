import RecurringEvents.Proofs.Expansion.Added
import RecurringEvents.Proofs.Expansion.LastMoment
import RecurringEvents.Proofs.Expansion.WallClock

/-!
# Excluded days

Excluding days is a filter on the cursors of a series: a cursor on an excluded day counts like any
other one and only gives no occurrence, so the walk ends where it would end without excluded days.
The day is that of the cursor. A cursor that is moved over midnight, because the zone skips its wall
time, starts on another day than it is excluded by; everywhere else excluding days is a filter on
the days on which occurrences start.

* `Walk.placedBefore_withExcluded`: what the cursors give.
* `Walk.EndsAt.withExcluded`: where the walk ends.
* `Event.IsCursorOf.date_eq`: when a cursor starts on its own day.
* `Event.filtered_of_expand`: the expansions.
-/

namespace RecurringEvents

/-- The rule without its excluded days. -/
def Rule.withoutExcluded (r : Rule) : Rule := { r with exdates := none }

/-- It has the same series. -/
theorem Rule.bare_withoutExcluded (r : Rule) : r.withoutExcluded.bare = r.bare := rfl

namespace Walk

variable {w : Walk} {days : List Date} {n k : Nat} {o : Occurrence} {cut cut' : Bool}

/-- The walk with other excluded days. -/
def withExcluded (w : Walk) (days : List Date) : Walk := { w with excluded := days }

/-! ## What the cursors give -/

/-- What the `n`-th cursor gives, with the cursor. -/
def placedAt? (w : Walk) (n : Nat) : Option (Wall × Occurrence) :=
  (w.series.cursorAt n).bind fun c => (w.madeAt? n).map fun o => (c, o)

/-- What the cursors before the `n`-th one give, with the cursors. -/
def placedBefore (w : Walk) (n : Nat) : List (Wall × Occurrence) :=
  (List.range n).filterMap w.placedAt?

theorem map_snd_placedAt? (w : Walk) (n : Nat) : (w.placedAt? n).map Prod.snd = w.madeAt? n := by
  unfold placedAt? madeAt?
  cases w.series.cursorAt n with
  | none => rfl
  | some c => simp [Option.map_map, Function.comp_def]

/-- Without their cursors they are the occurrences. -/
theorem map_snd_placedBefore (w : Walk) (n : Nat) :
    (w.placedBefore n).map Prod.snd = w.madeBefore n := by
  rw [placedBefore, List.map_filterMap, funext w.map_snd_placedAt?]
  rfl

theorem placedAt?_eq_some_iff {c : Wall} : w.placedAt? n = some (c, o) ↔ w.Gives n c o := by
  unfold placedAt?
  simp only [Option.bind_eq_some_iff, Option.map_eq_some_iff, madeAt?_eq_some_iff, Prod.mk.injEq]
  constructor
  · rintro ⟨c, hc, o', ⟨c', hgives⟩, rfl, rfl⟩
    cases hc.symm.trans hgives.cursor
    exact hgives
  · intro hgives
    exact ⟨c, hgives.cursor, o, ⟨c, hgives⟩, rfl, rfl⟩

/-- A cursor on an excluded day gives nothing, and any other one what it gives anyway. -/
theorem gives_withExcluded_iff {c : Wall} : (w.withExcluded days).Gives n c o ↔
    (w.withExcluded []).Gives n c o ∧ c.date ∉ days := by
  have hshown : (w.withExcluded days).isShown c o.start = true ↔
      (w.withExcluded []).isShown c o.start = true ∧ c.date ∉ days := by
    simp only [isShown, withExcluded, Bool.and_eq_true, Bool.not_eq_true', List.contains_eq_mem,
      decide_eq_false_iff_not, List.not_mem_nil, not_false_eq_true, true_and]
    exact and_comm
  constructor
  · rintro ⟨hc, hs, hpasses, hshows, hmade⟩
    obtain ⟨hshows, hday⟩ := hshown.1 hshows
    exact ⟨⟨hc, hs, hpasses, hshows, hmade⟩, hday⟩
  · rintro ⟨⟨hc, hs, hpasses, hshows, hmade⟩, hday⟩
    exact ⟨hc, hs, hpasses, hshown.2 ⟨hshows, hday⟩, hmade⟩

theorem placedAt?_withExcluded (w : Walk) (days : List Date) (n : Nat) :
    (w.withExcluded days).placedAt? n
      = ((w.withExcluded []).placedAt? n).filter fun p => decide (p.1.date ∉ days) := by
  refine Option.ext fun ⟨c, o⟩ => ?_
  rw [placedAt?_eq_some_iff, Option.filter_eq_some_iff, placedAt?_eq_some_iff, decide_eq_true_eq,
    gives_withExcluded_iff]

/-- **Excluding days is a filter on the cursors.** -/
theorem placedBefore_withExcluded (w : Walk) (days : List Date) (n : Nat) :
    (w.withExcluded days).placedBefore n
      = ((w.withExcluded []).placedBefore n).filter fun p => decide (p.1.date ∉ days) := by
  rw [placedBefore, placedBefore, List.filter_filterMap]
  exact congrArg (List.filterMap · (List.range n)) (funext (w.placedAt?_withExcluded days))

/-! ## Where the walk ends -/

/-- **Walks with different excluded days end at the same cursor, in the same way.** -/
theorem EndsAt.withExcluded (h : w.EndsAt n cut) (h' : (w.withExcluded days).EndsAt k cut') :
    n = k ∧ cut = cut' := by
  have hover : ∀ m, (w.withExcluded days).IsOver m ↔ w.IsOver m := fun _ => Iff.rfl
  have hspent : ∀ m, (w.withExcluded days).IsSpent m ↔ w.IsSpent m := fun _ => Iff.rfl
  obtain rfl : n = k := Nat.le_antisymm
    (h.le (fun m => (hover m).1) (fun m => (hspent m).1) h')
    (h'.le (fun m => (hover m).2) (fun m => (hspent m).2) h)
  refine ⟨rfl, ?_⟩
  have hends := h.over_iff.symm.trans ((hover n).symm.trans h'.over_iff)
  cases cut <;> cases cut' <;> simp_all

end Walk

namespace Event

variable {e : Event} {rule : Rule} {limits : Limits} {q : Query} {x y : Expansion} {m : Moment}
  {r : Region} {c : Wall} {days : List Date}

/-! ## The day of an occurrence -/

/-- Whether a cursor of the series is localized to a moment. -/
def IsCursorOf [ZoneDatabase] (e : Event) (rule : Rule) (limits : Limits) (c : Wall) (m : Moment) :
    Prop :=
  ∃ anchor n, e.start.inZone e.calendarZone = .ok anchor ∧
    (seriesAt rule limits anchor).cursorAt n = some c ∧ Moment.localize c e.calendarZone = .ok m

/-- Whether occurrences of a series start on the days of their cursors. -/
def KeepsDays [ZoneDatabase] (e : Event) (rule : Rule) (limits : Limits) (os : List Occurrence) :
    Prop :=
  ∀ o ∈ os, ∀ c, e.IsCursorOf rule limits c o.start → c.date = o.start.wall.date

/-- **They do where the zone shows the wall times of the cursors**, and does not read them early. -/
theorem IsCursorOf.date_eq [ZoneDatabase] (hz : ZoneName.resolve? e.timeZone = some r)
    (h : e.IsCursorOf rule limits c m) (hs : (Zone.region r).Shows c.count)
    (hearly : ¬r.ReadsEarly c.pass c.count) : c.date = m.wall.date := by
  obtain ⟨anchor, n, -, -, hlocal⟩ := h
  rw [calendarZone_of_resolve? hz] at hlocal
  have hstart := (Moment.startsAsShown_iff (ZoneName.isOrderly_of_resolve? hz) hlocal).1.2 hearly
  exact (hstart.shown hs).1.symm

/-- They also do where the start has the time of day of the cursor, which the zone shows on the days
before and after it. -/
theorem IsCursorOf.date_eq_of_time [ZoneDatabase] (hz : ZoneName.resolve? e.timeZone = some r)
    (h : e.IsCursorOf rule limits c m) (htime : c.time = m.wall.time)
    (hbefore : (Zone.region r).Shows (m.wall.count - dayMicros))
    (hafter : (Zone.region r).Shows (m.wall.count + dayMicros)) : c.date = m.wall.date := by
  obtain ⟨anchor, n, -, -, hlocal⟩ := h
  have hr : r.IsOrderly := ZoneName.isOrderly_of_resolve? hz
  rw [calendarZone_of_resolve? hz] at hlocal
  have hcount := Moment.count_of_localize hlocal
  have hdays : c.count = m.wall.count + (c.date.dayNumber - m.wall.date.dayNumber) * dayMicros := by
    simp only [Wall.count, htime, dayMicros]
    omega
  have hshows : (Zone.region r).Shows c.count := by
    have hnear := Zone.IsOrderly.shown_readAt_near hr
      (Zone.IsOrderly.gapWithin_day (z := .region r) hr c.count) (by decide) c.pass
    rw [← hcount] at hnear
    have hplace : c.count = m.wall.count - dayMicros ∨ c.count = m.wall.count ∨
        c.count = m.wall.count + dayMicros := by
      simp only [dayMicros] at hnear hdays ⊢
      omega
    rcases hplace with h | h | h
    · rwa [h]
    · rw [h]
      exact ⟨_, hcount.symm⟩
    · rwa [h]
  -- what is shown moves by less than a day
  have hmoved := Zone.IsOrderly.shown_readAt_of_shows hr c.pass hshows
  rw [← hcount] at hmoved
  refine (Wall.eq_of_count_eq ?_).1
  simp only [dayMicros, secondMicros] at hdays hmoved
  omega

/-- A real moment is on the day of every excluded time at its instant. -/
theorem mem_days_of_instant [ZoneDatabase] {t : Reading} (hz : e.calendarZone.IsOrderly)
    (hdays : daysIn e.calendarZone rule.excluded = .ok days) (ht : .time t ∈ rule.excluded)
    (hreal : t.moment.zone = e.calendarZone → t.moment.IsReal) (hm : m.zone = e.calendarZone)
    (hmreal : m.IsReal) (hinstant : m.instant = t.moment.instant) : m.wall.date ∈ days := by
  obtain ⟨day, hday⟩ := exists_mapM_eq_ok_iff.1 ⟨days, hdays⟩ _ ht
  have hmem : day ∈ days := mem_of_mapM hdays ht hday
  obtain ⟨u, hu, hdate⟩ := bind_eq_ok_iff.1 hday
  cases hdate
  have hcount : m.wall.count = u.wall.count :=
    hmreal.count_eq (Moment.isReal_of_inZone hz hu hreal) (hm.trans (Moment.zone_of_inZone hu).symm)
      (hinstant.trans (Moment.instant_of_inZone hz hu).symm)
  rwa [(Wall.eq_of_count_eq hcount).1]

/-! ## The expansions -/

/-- The walk without excluded days. -/
theorem walk_withoutExcluded [ZoneDatabase] {c : CheckedQuery} {w v : Walk}
    (hw : e.walk rule limits c = .ok w)
    (hv : (e.withRule (some rule.withoutExcluded)).walk rule.withoutExcluded limits c = .ok v) :
    v = (w.withExcluded []).withRule rule.withoutExcluded := by
  obtain ⟨anchor, days, window, ha, -, hwindow, rfl⟩ := walk_eq_ok_iff.1 hw
  obtain ⟨anchor', days', window', ha', hdays', hwindow', rfl⟩ := walk_eq_ok_iff.1 hv
  cases ha.symm.trans ha'
  cases hwindow.symm.trans hwindow'
  have hnone : days' = [] := (Except.ok.inj hdays').symm
  rw [hnone]
  rfl

/-- The expansions with and without excluded days come to the same end. -/
theorem exists_endsAt_withoutExcluded [ZoneDatabase] (hrule : e.rule = some rule)
    (hx : rule.extras = []) (h : e.expand limits q = .ok x)
    (h' : (e.withRule (some rule.withoutExcluded)).expand limits q = .ok y) :
    ∃ c w n, e.walk rule limits c = .ok w ∧ x.occurrences = w.madeBefore n ∧
      y.occurrences = ((w.withExcluded []).madeBefore n).map
        (·.withRule (some rule.withoutExcluded)) ∧
      x.cutShort = y.cutShort := by
  obtain ⟨c, w, n, hc, hw, hends, hmade⟩ := exists_endsAt_of_expand hrule hx h
  obtain ⟨c', v, hc', hv, hrun⟩ :=
    exists_walk_of_expand (e := e.withRule (some rule.withoutExcluded)) rfl hx h'
  cases hc.symm.trans hc'
  obtain rfl := rule_of_walk hw
  rw [walk_withoutExcluded hw hv, Walk.run_withRule (w := w.withExcluded [])
    (Rule.sameSeries_of_bare w.rule.bare_withoutExcluded) (Walk.stopsAlike_of_eq rfl)] at hrun
  obtain ⟨k, hends', hmade'⟩ := Walk.exists_endsAt_of_run (w := w.withExcluded [])
    (congrArg Run.ending hrun)
  obtain ⟨rfl, hcut⟩ := hends.withExcluded hends'
  refine ⟨c, w, n, hw, hmade, ?_, hcut⟩
  rw [← hmade']
  exact (congrArg Run.occurrences hrun).symm

/-- **With excluded days an expansion gives what it gives without them at the cursors on other
days**, and is cut short alike. -/
theorem exists_placed_of_expand [ZoneDatabase] (hrule : e.rule = some rule) (hx : rule.extras = [])
    (h : e.expand limits q = .ok x)
    (h' : (e.withRule (some rule.withoutExcluded)).expand limits q = .ok y) :
    ∃ (days : List Date) (placed : List (Wall × Occurrence)),
      daysIn e.calendarZone rule.excluded = .ok days ∧ y.occurrences = placed.map Prod.snd ∧
      (∀ p ∈ placed, e.IsCursorOf rule limits p.1 p.2.start) ∧
      x.occurrences.map Occurrence.slot
        = (placed.filter fun p => decide (p.1.date ∉ days)).map (fun p => p.2.slot) ∧
      x.cutShort = y.cutShort := by
  obtain ⟨c, w, n, hw, hx, hy, hcut⟩ := exists_endsAt_withoutExcluded hrule hx h h'
  obtain ⟨anchor, days, window, ha, hdays, -, hwalk⟩ := walk_eq_ok_iff.1 hw
  have hexcluded : w = w.withExcluded days := by
    rw [hwalk]
    rfl
  rw [← Walk.map_snd_placedBefore] at hx hy
  refine ⟨days, ((w.withExcluded []).placedBefore n).map
    fun p => (p.1, p.2.withRule (some rule.withoutExcluded)), hdays, ?_, ?_, ?_, hcut⟩
  · rw [hy, List.map_map, List.map_map]
    rfl
  · intro p hp
    obtain ⟨⟨cursor, o⟩, hmem, rfl⟩ := List.mem_map.1 hp
    obtain ⟨m, -, hplaced⟩ := List.mem_filterMap.1 hmem
    have hgives := Walk.placedAt?_eq_some_iff.1 hplaced
    subst hwalk
    exact ⟨anchor, m, ha, hgives.cursor, hgives.localized⟩
  · rw [hx, hexcluded, Walk.placedBefore_withExcluded, List.filter_map, List.map_map, List.map_map]
    rfl

/--
**Excluding days is a filter.** An expansion with excluded days gives what it gives without them at
the cursors on other days, and is cut short alike. A cursor whose wall time is shown, and not read
early, is on the day on which its occurrence starts. If all are, the expansion is the one without
excluded days less the occurrences that start on an excluded day, and none is left that starts at an
excluded time.
-/
theorem filtered_of_expand [ZoneDatabase] (hz : ZoneName.resolve? e.timeZone = some r)
    (hrule : e.rule = some rule) (hx : rule.extras = []) (h : e.expand limits q = .ok x)
    (h' : (e.withRule (some rule.withoutExcluded)).expand limits q = .ok y) :
    ∃ (days : List Date) (placed : List (Wall × Occurrence)),
      daysIn (.region r) rule.excluded = .ok days ∧ y.occurrences = placed.map Prod.snd ∧
      (∀ p ∈ placed, e.IsCursorOf rule limits p.1 p.2.start ∧
        ((Zone.region r).Shows p.1.count → ¬r.ReadsEarly p.1.pass p.1.count →
          p.1.date = p.2.start.wall.date)) ∧
      x.occurrences.map Occurrence.slot
        = (placed.filter fun p => decide (p.1.date ∉ days)).map (fun p => p.2.slot) ∧
      x.cutShort = y.cutShort ∧
      (e.KeepsDays rule limits y.occurrences →
        x.occurrences.map Occurrence.slot
          = (y.occurrences.filter fun o => decide (o.start.wall.date ∉ days)).map Occurrence.slot ∧
        ∀ t, .time t ∈ rule.excluded → (t.moment.zone = .region r → t.moment.IsReal) →
          ∀ o ∈ x.occurrences, o.start.instant ≠ t.moment.instant) := by
  have hzone : e.calendarZone = .region r := calendarZone_of_resolve? hz
  have hknown := isOrderly_of_resolve? hz
  obtain ⟨days, placed, hdays, hy, hcursors, hslots, hcut⟩ := exists_placed_of_expand hrule hx h h'
  refine ⟨days, placed, hzone ▸ hdays, hy, fun p hp => ⟨hcursors p hp, (hcursors p hp).date_eq hz⟩,
    hslots, hcut, fun hkeeps => ?_⟩
  have hkept : ∀ p ∈ placed, p.1.date = p.2.start.wall.date := fun p hp =>
    hkeeps p.2 (hy ▸ List.mem_map_of_mem hp) p.1 (hcursors p hp)
  have hfiltered : x.occurrences.map Occurrence.slot
      = (y.occurrences.filter fun o => decide (o.start.wall.date ∉ days)).map Occurrence.slot := by
    rw [hslots, hy, List.filter_map, List.map_map]
    refine congrArg (List.map _) (List.filter_congr fun p hp => ?_)
    rw [hkept p hp]
    rfl
  refine ⟨hfiltered, fun t ht hreal o ho hinstant => ?_⟩
  -- the occurrence is one of the other expansion, which starts on no excluded day
  have hmem : o.slot ∈ x.occurrences.map Occurrence.slot := List.mem_map_of_mem ho
  rw [hfiltered] at hmem
  obtain ⟨o', ho', hslot⟩ := List.mem_map.1 hmem
  obtain ⟨ho', hday⟩ := List.mem_filter.1 ho'
  obtain ⟨hzone', hreal'⟩ :=
    isReal_of_expand (e := e.withRule (some rule.withoutExcluded)) hknown rfl hx h' o' ho'
  have hstart : o'.start = o.start := congrArg (fun s => s.2.1) hslot
  rw [← hstart] at hinstant
  exact of_decide_eq_true hday (mem_days_of_instant hknown hdays ht
    (fun hsame => hreal (hsame.trans hzone)) hzone' hreal' hinstant)

/-! ## Examples -/

/-- What the clock at Nuuk shows on a day of March 2025, some minutes after midnight. -/
def nuuk (day : Int) (minutes : Nat) : Moment :=
  ⟨⟨.near 2025 3 day, .ofMinutes minutes, .first⟩, .region .nuuk⟩

/-- Half past midnight there on the 30th, in UTC. -/
def halfPastMidnight : Reading := ⟨⟨.near 2025 3 30, .ofMinutes 90, .first⟩, some .utc⟩

/-- Four days in a row, less the day that this is on. -/
def fourButTheThirtieth : Rule := { Rule.daily 4 with exdates := some [.time halfPastMidnight] }

/-- Half an hour before midnight at Nuuk, from the 28th on. On the 29th the last hour of the day is
skipped. -/
def lateEvenings : Event where
  id := "evenings"
  start := nuuk 28 1410
  finish := nuuk 29 0
  timeZone := "America/Nuuk"
  rule := some fourButTheThirtieth
  finish_after_start := by decide +kernel

/-- The week that begins with them. -/
def endOfMarch : Query where
  start := .ofUtc ⟨.near 2025 3 28, .midnight, .first⟩
  finish := .ofUtc ⟨.near 2025 4 4, .midnight, .first⟩

/-- The evening of the 29th moves to the 30th and starts at the very time that is excluded, but it
is the evening of the 30th that is left out. -/
theorem lateEvenings_not_filtered : ZoneName.resolve? lateEvenings.timeZone = some .nuuk ∧
    fourButTheThirtieth.extras = [] ∧ ∃ x y days,
      lateEvenings.expand .standard endOfMarch = .ok x ∧
      (lateEvenings.withRule (some fourButTheThirtieth.withoutExcluded)).expand .standard endOfMarch
        = .ok y ∧
      daysIn (.region .nuuk) fourButTheThirtieth.excluded = .ok days ∧
      x.occurrences.map Occurrence.slot
        ≠ (y.occurrences.filter fun o => decide (o.start.wall.date ∉ days)).map Occurrence.slot ∧
      (∃ o ∈ x.occurrences, o.start.instant = halfPastMidnight.moment.instant) := by
  obtain ⟨x, hx, hstarts⟩ : ∃ x, lateEvenings.expand .standard endOfMarch = .ok x ∧
      x.occurrences.map (·.start) = [nuuk 28 1410, nuuk 30 30, nuuk 31 1410] :=
    exists_ok_of_any (by decide +kernel)
  obtain ⟨y, hy, hstarts'⟩ : ∃ y, (lateEvenings.withRule
      (some fourButTheThirtieth.withoutExcluded)).expand .standard endOfMarch = .ok y ∧
        y.occurrences.map (·.start)
          = [nuuk 28 1410, nuuk 30 30, nuuk 30 1410, nuuk 31 1410] :=
    exists_ok_of_any (by decide +kernel)
  obtain ⟨days, hdays, hthirtieth⟩ : ∃ days,
      daysIn (.region .nuuk) fourButTheThirtieth.excluded = .ok days ∧ days = [.near 2025 3 30] :=
    exists_ok_of_any (by decide +kernel)
  subst hthirtieth
  refine ⟨by decide +kernel, rfl, x, y, _, hx, hy, hdays, fun hslots => ?_, ?_⟩
  · have heq : x.occurrences.map (·.start)
        = (y.occurrences.map (·.start)).filter
          fun m => decide (m.wall.date ∉ [.near 2025 3 30]) := by
      have hboth := congrArg (List.map fun slot => slot.2.1) hslots
      rw [List.map_map, List.map_map] at hboth
      rw [List.filter_map]
      exact hboth
    rw [hstarts, hstarts'] at heq
    exact absurd heq (by decide)
  · have hmem : nuuk 30 30 ∈ x.occurrences.map (·.start) := by
      rw [hstarts]
      decide
    obtain ⟨o, ho, hstart⟩ := List.mem_map.1 hmem
    refine ⟨o, ho, ?_⟩
    rw [hstart]
    decide +kernel

/-- Nine in the morning of the 27th, in UTC, which is the same time in London. -/
def nineOClock : Reading := ⟨⟨october 27, .ofMinutes 540, .first⟩, some .utc⟩

/-- Four mornings less two: the one on the 26th, and the one at nine on the 27th. -/
def fourDaysLessTwo : Rule :=
  { Rule.daily 4 with exdates := some [.date (october 26), .time nineOClock] }

/-- London shows nine in the morning on all of these days, so the mornings are on the days of their
cursors. -/
theorem fourMornings_keepsDays {os : List Occurrence}
    (h : os.map (·.start) = [26, 27, 28].map fun d => .london (october d) 540) :
    (fourMornings.withRule (some fourDaysLessTwo)).KeepsDays fourDaysLessTwo .standard os := by
  have hdays : ∀ d ∈ [26, 27, 28],
      ((Moment.london (october (d - 1)) 540).IsReal ∧
        (Moment.london (october (d - 1)) 540).wall.count
          = (Moment.london (october d) 540).wall.count - dayMicros) ∧
      (Moment.london (october (d + 1)) 540).IsReal ∧
        (Moment.london (october (d + 1)) 540).wall.count
          = (Moment.london (october d) 540).wall.count + dayMicros := by
    decide +kernel
  intro o ho c hc
  obtain ⟨d, hd, hstart⟩ := List.mem_map.1 (h ▸ List.mem_map_of_mem ho)
  obtain ⟨⟨hbefore, hcount⟩, hafter, hcount'⟩ := hdays d hd
  have htime : c.time = o.start.wall.time := by
    obtain ⟨anchor, n, ha, hcursor, -⟩ := hc
    have hzone : (fourMornings.withRule (some fourDaysLessTwo)).calendarZone = .region .london := by
      decide +kernel
    rw [hzone] at ha
    cases (Moment.inZone_self rfl).symm.trans ha
    rw [Series.time_of_cursorAt hcursor, ← hstart]
    rfl
  refine hc.date_eq_of_time (r := .london) (by decide +kernel) htime ?_ ?_
  · rw [← hstart, ← hcount]
    exact ⟨_, hbefore⟩
  · rw [← hstart, ← hcount']
    exact ⟨_, hafter⟩

/-- Excluding them leaves one of the three mornings in the range. -/
theorem fourMornings_filtered : ∃ x y,
    (fourMornings.withRule (some fourDaysLessTwo)).expand .standard lateOctober = .ok x ∧
    (fourMornings.withRule (some fourDaysLessTwo.withoutExcluded)).expand .standard lateOctober
      = .ok y ∧
    x.occurrences.map (·.start) = [.london (october 28) 540] ∧
    y.occurrences.map (·.start) = [.london (october 26) 540, .london (october 27) 540,
      .london (october 28) 540] ∧
    x.cutShort = y.cutShort ∧
    x.occurrences.map Occurrence.slot = (y.occurrences.filter fun o =>
      decide (o.start.wall.date ∉ [october 26, october 27])).map Occurrence.slot ∧
    ∀ o ∈ x.occurrences, o.start.instant ≠ (Moment.london (october 27) 540).instant := by
  obtain ⟨x, hx, hstarts⟩ : ∃ x,
      (fourMornings.withRule (some fourDaysLessTwo)).expand .standard lateOctober = .ok x ∧
        x.occurrences.map (·.start) = [.london (october 28) 540] :=
    exists_ok_of_any (by decide +kernel)
  obtain ⟨y, hy, hstarts'⟩ : ∃ y, (fourMornings.withRule
      (some fourDaysLessTwo.withoutExcluded)).expand .standard lateOctober = .ok y ∧
        y.occurrences.map (·.start) = [.london (october 26) 540, .london (october 27) 540,
          .london (october 28) 540] :=
    exists_ok_of_any (by decide +kernel)
  obtain ⟨excluded, hexcluded, htwo⟩ : ∃ days,
      daysIn (.region .london) fourDaysLessTwo.excluded = .ok days ∧
        days = [october 26, october 27] := exists_ok_of_any (by decide +kernel)
  obtain ⟨days, placed, hdays, -, -, -, hcut, hfiltered⟩ :=
    filtered_of_expand (r := .london) (e := fourMornings.withRule (some fourDaysLessTwo))
      (by decide +kernel) rfl rfl hx hy
  cases hexcluded.symm.trans hdays
  subst htwo
  obtain ⟨hslots, htimes⟩ := hfiltered (fourMornings_keepsDays hstarts')
  refine ⟨x, y, hx, hy, hstarts, hstarts', hcut, hslots, ?_⟩
  have htime : TimeValue.time nineOClock ∈ fourDaysLessTwo.excluded := .tail _ (.head _)
  have hinstant : nineOClock.moment.instant = (Moment.london (october 27) 540).instant := by
    decide +kernel
  rw [← hinstant]
  exact htimes nineOClock htime fun _ => Moment.isReal_of_fixed rfl

end Event

end RecurringEvents
