import RecurringEvents.Proofs.Expansion.Move

/-!
# What an expansion selects

The walk through a series counts, filters and stops while it goes along. What it has collected when
it is not cut short can be said without it: of all cursors of the series, those that pass the
filters, as far as the count of the rule goes; and of these the ones that are shown in the range.

That nothing is lost after the stop needs that later cursors are localized to no earlier instants,
across all changes of the clock.

* `Rule.counted`, `Event.selected?`: what is asked for.
* `Walk.runFrom_finished`: the run, from any move on.
* `Event.starts_of_expand`: the expansion.
-/

namespace RecurringEvents

/-- The cursors that pass the filters, as far as the count of the rule goes when `used` of it are
used up. -/
def Rule.counted (r : Rule) (used : Nat) (cs : List Wall) : List Wall :=
  match r.count with
  | none => cs.filter r.passes
  | some n => (cs.filter r.passes).take (n - used).toNat

/-- The start of the occurrence that a cursor stands for, if it is asked for: not after the last
moment of the rule, in the range or less than the length of the event before it, and not on an
excluded day. -/
def Event.selected? (rule : Rule) (zone : Zone) (duration : Int) (days : List Date) (q : Query)
    (c : Wall) : Option Moment :=
  match Moment.localize c zone with
  | .ok start =>
    if (∀ m ∈ rule.lastMoment, start.instant ≤ m.instant) ∧
        (q.start.instant - duration ≤ start.instant ∧ start.instant < q.finish.instant) ∧
        c.date ∉ days
    then some start else none
  | .error _ => none

namespace Rule

variable {r : Rule} {used : Nat} {c : Wall} {cs : List Wall}

@[simp] theorem counted_nil (r : Rule) (used : Nat) : r.counted used [] = [] := by
  unfold counted
  cases r.count <;> simp

theorem counted_cons_of_not_passes (h : r.passes c = false) :
    r.counted used (c :: cs) = r.counted used cs := by
  unfold counted
  cases r.count <;> simp [h]

theorem counted_cons_of_passes (h : r.passes c = true)
    (hc : r.count.any (fun n => n ≤ (used : Int)) = false) :
    r.counted used (c :: cs) = c :: r.counted (used + 1) cs := by
  unfold counted
  cases hn : r.count with
  | none => simp [h]
  | some n =>
    have hlt : (used : Int) < n := by simpa [hn] using hc
    simp only [List.filter_cons_of_pos h]
    rw [show (n - (used : Int)).toNat = (n - ((used + 1 : Nat) : Int)).toNat + 1 by omega,
      List.take_succ_cons]

/-- When the count is used up, nothing is counted. -/
theorem counted_of_used (hc : r.count.any (fun n => n ≤ (used : Int)) = true) :
    r.counted used cs = [] := by
  unfold counted
  cases hn : r.count with
  | none => simp [hn] at hc
  | some n =>
    have hle : n ≤ (used : Int) := by simpa [hn] using hc
    show (cs.filter r.passes).take (n - (used : Int)).toNat = []
    rw [show (n - (used : Int)).toNat = 0 by omega, List.take_zero]

theorem mem_of_mem_counted (h : c ∈ r.counted used cs) : c ∈ cs := by
  unfold counted at h
  split at h
  · exact (List.mem_filter.1 h).1
  · exact (List.mem_filter.1 (List.mem_of_mem_take h)).1

end Rule

namespace Walk

/-- A walk through the calendar of an orderly region, with everything else it looks at in UTC. -/
structure InRegion (w : Walk) (r : Region) : Prop where
  orderly : r.IsOrderly
  zone : w.zone = .region r
  start : w.window.start.zone = .utc
  finish : w.window.finish.zone = .utc
  last : ∀ m ∈ w.rule.lastMoment, m.zone = .utc

/-- The start that a cursor is shown with, if a walk asks for it. -/
def startOf? (w : Walk) (c : Wall) : Option Moment :=
  match Moment.localize c w.zone with
  | .ok start => if !w.isPast start && w.isShown c start then some start else none
  | .error _ => none

variable {w : Walk} {r : Region} {p q : Progress} {c d : Wall} {ds : List Wall} {m n : Moment}

/-- A walk is past a moment if this is after the last moment or not before the end of the
window. -/
theorem InRegion.isPast_eq_false_iff (h : w.InRegion r) (hm : m.zone = .region r) :
    w.isPast m = false ↔
      (∀ l ∈ w.rule.lastMoment, m.instant ≤ l.instant) ∧ m.instant < w.window.finish.instant := by
  have hne : m.zone ≠ Zone.utc := hm ▸ Moment.region_ne_utc
  have hfinish : m.before w.window.finish = decide (m.instant < w.window.finish.instant) :=
    Moment.before_of_ne (by rw [h.finish]; exact hne)
  unfold isPast
  rw [hfinish, Bool.or_eq_false_iff]
  refine and_congr ?_ (by simp)
  cases hl : w.rule.lastMoment with
  | none => simp
  | some l =>
    have hbefore : l.before m = decide (l.instant < m.instant) :=
      Moment.before_of_ne (by rw [h.last l hl]; exact hne.symm)
    simp [hbefore]

/-- What a walk is past stays past. -/
theorem InRegion.isPast_of_le (h : w.InRegion r) (hm : m.zone = .region r)
    (hn : n.zone = .region r) (hle : m.instant ≤ n.instant) (hpast : w.isPast m = true) :
    w.isPast n = true := by
  refine Bool.not_eq_false _ ▸ fun hfalse => ?_
  obtain ⟨hlast, hfinish⟩ := (h.isPast_eq_false_iff hn).1 hfalse
  have hm' : w.isPast m = false := (h.isPast_eq_false_iff hm).2
    ⟨fun l hl => Int.le_trans hle (hlast l hl), Int.lt_of_le_of_lt hle hfinish⟩
  rw [hm'] at hpast
  cases hpast

/-- From a cursor on that a walk is past, nothing is asked for. -/
theorem startOf?_of_past (h : w.InRegion r) (ht : c.time = w.series.anchor.time)
    (hl : w.series.Lists (w.series.step c) ds) (hm : Moment.localize c w.zone = .ok m)
    (hpast : w.isPast m = true) : ∀ d ∈ c :: ds, w.startOf? d = none := by
  intro d hd
  unfold startOf?
  cases hn : Moment.localize d w.zone with
  | error e => rfl
  | ok n =>
    have hn' : w.isPast n = true := by
      rw [h.zone] at hm hn
      rcases List.mem_cons.1 hd with rfl | hd
      · rw [hm] at hn
        cases hn
        exact hpast
      · obtain ⟨htime, hlt⟩ := Series.later_of_lists ht hl d hd
        have hknown : (Zone.region r).IsOrderly := h.orderly
        exact h.isPast_of_le (Moment.of_localize hknown hm).1 (Moment.of_localize hknown hn).1
          (Moment.instant_le_of_localize hknown (ht.trans htime.symm) hlt hm hn) hpast
    simp [hn']

/-- When a walk finishes, nothing of the rest is asked for. -/
theorem filterMap_of_finished (h : w.InRegion r) (hl : w.series.Lists p.cursor ds)
    (ht : ∀ c ∈ p.cursor, c.time = w.series.anchor.time)
    (hstop : w.move p = .stop (.finished false)) :
    (w.rule.counted p.budget ds).filterMap w.startOf? = [] := by
  rcases move_eq_stop hstop with ⟨hnone, -⟩ | ⟨c, hc, hstop⟩
  · cases ds with
    | nil => rw [Rule.counted_nil]; rfl
    | cons d ds =>
      have := hl.1
      rw [hnone] at this
      cases this
  · rcases hstop with ⟨err, -, hend⟩ | ⟨start, hs, hstop | ⟨-, -, -, err, -, hend⟩⟩
    · cases hend
    · rcases of_stops?_eq_finished hstop with hpast | hcounted
      · cases ds with
        | nil => rw [Rule.counted_nil]; rfl
        | cons d ds =>
          obtain ⟨hd, hds⟩ := hl
          rw [hc] at hd
          cases hd
          exact List.filterMap_eq_nil_iff.2 fun d hd =>
            startOf?_of_past h (ht c hc) hds hs hpast d (Rule.mem_of_mem_counted hd)
      · rw [Rule.counted_of_used hcounted]
        rfl
    · cases hend

/-- What one move leaves to be asked for. -/
theorem Moves.filterMap {start : Moment} (hmove : w.Moves p q c start) :
    (w.rule.counted p.budget (c :: ds)).filterMap w.startOf?
      = (if w.rule.passes c ∧ w.isShown c start then [start] else [])
        ++ (w.rule.counted q.budget ds).filterMap w.startOf? := by
  obtain ⟨hpast, hcounted, -, -⟩ := stops?_eq_none_iff.1 hmove.goes_on
  have hbudget := hmove.budget
  by_cases hp : w.rule.passes c = true
  · rw [if_pos hp] at hbudget
    rw [Rule.counted_cons_of_passes hp hcounted, hbudget, List.filterMap_cons]
    have hstart : w.startOf? c = if w.isShown c start then some start else none := by
      simp only [startOf?, hmove.localized, hpast, Bool.not_false, Bool.true_and]
    rw [hstart]
    by_cases hn : w.isShown c start = true
    · simp [hp, hn]
    · simp [hn]
  · rw [if_neg hp, Nat.add_zero] at hbudget
    rw [Rule.counted_cons_of_not_passes (by simpa using hp), hbudget, if_neg (by simp [hp])]
    rfl

/-- What one move collects. -/
theorem Moves.starts {start : Moment} (hmove : w.Moves p q c start) :
    q.collected.reverse.map (·.start) = p.collected.reverse.map (·.start)
      ++ if w.rule.passes c ∧ w.isShown c start then [start] else [] := by
  have hcollected := hmove.collected
  split at hcollected
  · next hshown =>
    obtain ⟨o, ho, hq⟩ := hcollected
    rw [hq, if_pos hshown, List.reverse_cons, List.map_append, List.map_singleton,
      Event.start_of_occurrenceAt ho]
  · next hshown => rw [hcollected, if_neg hshown, List.append_nil]

/-- **A run that is not cut short collects all that is asked for.** -/
theorem runFrom_finished (h : w.InRegion r) {n : Nat} (hl : w.series.Lists p.cursor ds)
    (ht : ∀ c ∈ p.cursor, c.time = w.series.anchor.time)
    (hend : (w.runFrom n p).ending = .finished false) :
    (w.runFrom n p).occurrences.map (·.start)
      = p.collected.reverse.map (·.start) ++ (w.rule.counted p.budget ds).filterMap w.startOf? := by
  induction n generalizing p ds with
  | zero => cases hend
  | succ n ih =>
    unfold runFrom at hend ⊢
    cases hmove : w.move p with
    | stop ending =>
      rw [hmove] at hend
      have hending : ending = .finished false := hend
      rw [hending] at hmove
      rw [filterMap_of_finished h hl ht hmove, List.append_nil]
    | next q =>
      rw [hmove] at hend
      obtain ⟨c, start, hmoves⟩ := moves_of_move hmove
      -- the cursor is the head of the list
      cases ds with
      | nil =>
        have := hmoves.cursor
        rw [show p.cursor = none from hl] at this
        cases this
      | cons d ds =>
        obtain ⟨hd, hds⟩ := hl
        obtain rfl : d = c := by
          rw [hmoves.cursor] at hd
          exact (Option.some.inj hd).symm
        have htime : ∀ b ∈ q.cursor, b.time = w.series.anchor.time := by
          intro b hb
          rw [hmoves.next] at hb
          exact (Series.later_of_step (ht d hd) hb).1
        have hrest := ih (p := q) (hmoves.next ▸ hds) htime hend
        show (w.runFrom n q).occurrences.map (·.start) = _
        rw [hrest, hmoves.filterMap, hmoves.starts, List.append_assoc]

/-- The whole run. -/
theorem run_finished (h : w.InRegion r) (hend : w.run.ending = .finished false) :
    w.run.occurrences.map (·.start) = (w.rule.counted 0 w.series.cursors).filterMap w.startOf? :=
  runFrom_finished h w.series.lists_cursors
    (fun _ hc => Series.time_of_cursorAt (n := 0) hc) hend

end Walk

namespace Event

variable {e : Event} {rule : Rule} {r : Region} {limits : Limits}

/-- The walk of an event whose zone names a region. -/
theorem walk_inRegion [ZoneDatabase] {q : Query} {c : CheckedQuery} {w : Walk}
    (hz : ZoneName.resolve? e.timeZone = some r) (hu : ∀ m ∈ rule.lastMoment, m.zone = .utc)
    (hc : q.check limits = .ok c) (hw : e.walk rule limits c = .ok w) : w.InRegion r := by
  obtain ⟨anchor, days, window, -, -, hwindow, rfl⟩ := walk_eq_ok_iff.1 hw
  obtain ⟨d, -, ⟨hs, -⟩, ⟨hf, -⟩⟩ := windowOf_utc hc hwindow
  exact ⟨ZoneName.isOrderly_of_resolve? hz, calendarZone_of_resolve? hz, hs, hf, hu⟩

/-- What a walk asks for is what the event is asked for. -/
theorem startOf?_eq_selected? [ZoneDatabase] {q : Query} {c : CheckedQuery} {w : Walk}
    (hz : ZoneName.resolve? e.timeZone = some r) (hu : ∀ m ∈ rule.lastMoment, m.zone = .utc)
    (hc : q.check limits = .ok c) (hw : e.walk rule limits c = .ok w) :
    ∃ anchor d days, e.start.inZone (.region r) = .ok anchor ∧ e.duration = .ok d ∧
      daysIn (.region r) rule.excluded = .ok days ∧ w.rule = rule ∧
      w.series = seriesAt rule limits anchor ∧
      w.startOf? = selected? rule (.region r) d days q := by
  have hin := walk_inRegion hz hu hc hw
  obtain ⟨anchor, days, window, ha, hdays, hwindow, rfl⟩ := walk_eq_ok_iff.1 hw
  obtain ⟨d, hd, ⟨hszone, hs⟩, ⟨-, hf⟩⟩ := windowOf_utc hc hwindow
  rw [calendarZone_of_resolve? hz] at ha hdays
  refine ⟨anchor, d, days, ha, hd, hdays, rfl, rfl, funext fun cursor => ?_⟩
  unfold Walk.startOf? selected?
  simp only [calendarZone_of_resolve? hz] at hin ⊢
  cases hm : Moment.localize cursor (.region r) with
  | error err => rfl
  | ok start =>
    have hzone := (Moment.of_localize (z := .region r) hin.orderly hm).1
    have hpast := hin.isPast_eq_false_iff hzone
    have hstart : window.start.notAfter start = decide (q.start.instant - d ≤ start.instant) := by
      rw [← hs]
      exact Moment.notAfter_of_ne (by rw [hszone, hzone]; exact Moment.region_ne_utc.symm)
    refine ite_congr (propext ?_) (fun _ => rfl) fun _ => rfl
    rw [Bool.and_eq_true, Bool.not_eq_true', hpast, Walk.isShown, hstart]
    simp only [hf, Bool.and_eq_true, Bool.not_eq_true', decide_eq_true_eq, List.contains_eq_mem,
      decide_eq_false_iff_not]
    exact ⟨fun ⟨⟨h1, h2⟩, h3, h4⟩ => ⟨h1, ⟨h4, h2⟩, h3⟩, fun ⟨h1, ⟨h2, h3⟩, h4⟩ =>
      ⟨⟨h1, h3⟩, h4, h2⟩⟩

/-- The run of an expansion without added occurrences is the run of its walk. -/
theorem exists_walk_of_expand [ZoneDatabase] {q : Query} {x : Expansion}
    (hrule : e.rule = some rule) (hx : rule.extras = []) (h : e.expand limits q = .ok x) :
    ∃ c w, q.check limits = .ok c ∧ e.walk rule limits c = .ok w ∧
      w.run = ⟨x.occurrences, .finished x.cutShort⟩ := by
  obtain ⟨c, hc, hrun⟩ := expand_eq_ok_iff.1 h
  rw [occurrences, hrule] at hrun
  simp only [hx, if_true, seriesRun] at hrun
  split at hrun
  · next w hw => exact ⟨c, w, hc, hw, hrun⟩
  · have hfailed := congrArg Run.ending hrun
    cases hfailed

/--
**An expansion that is not cut short gives one occurrence for each cursor that is asked for, in the
order of the cursors.**

They are the cursors of the whole series that pass the filters, as far as the count of the rule
goes, and of these the ones that are shown in the range, up to the last moment of the rule and not
on an excluded day. Those before the range and on excluded days have used up the count as well.
-/
theorem starts_of_expand [ZoneDatabase] {q : Query} {x : Expansion}
    (hz : ZoneName.resolve? e.timeZone = some r) (hrule : e.rule = some rule)
    (hx : rule.extras = []) (hu : ∀ m ∈ rule.lastMoment, m.zone = .utc)
    (h : e.expand limits q = .ok x) (hcut : x.cutShort = false) :
    ∃ anchor duration days, e.start.inZone (.region r) = .ok anchor ∧
      e.duration = .ok duration ∧ daysIn (.region r) rule.excluded = .ok days ∧
      x.occurrences.map (·.start)
        = (rule.counted 0 (seriesAt rule limits anchor).cursors).filterMap
            (selected? rule (.region r) duration days q) := by
  obtain ⟨c, w, hc, hw, hrun⟩ := exists_walk_of_expand hrule hx h
  obtain ⟨anchor, d, days, ha, hd, hdays, hwrule, hseries, hstart⟩ :=
    startOf?_eq_selected? hz hu hc hw
  have hend : w.run.ending = .finished false := by rw [hrun, ← hcut]
  refine ⟨anchor, d, days, ha, hd, hdays, ?_⟩
  have hstarts := Walk.run_finished (walk_inRegion hz hu hc hw) hend
  rwa [hrun, hwrule, hseries, hstart] at hstarts

/-! ## An example -/

/-- A day in October 2024. -/
def october (day : Int) : Date := .near 2024 10 day

/-- Four days in a row, the second of them excluded. -/
def fourDays : Rule := { Rule.daily 4 with exdates := some [.date (october 26)] }

/-- Four mornings in London. The clock is set back before the third. -/
def fourMornings : Event where
  id := "mornings"
  start := .london (october 25) 540
  finish := .london (october 25) 600
  timeZone := "Europe/London"
  rule := some fourDays
  finish_after_start := by decide +kernel

/-- A range that begins after the first morning. -/
def lateOctober : Query := ⟨.london (october 26) 0, .london (october 31) 0, none⟩

/-- The first morning is before the range, the second one excluded: two are left. -/
theorem starts_of_fourMornings : ∃ x, fourMornings.expand .standard lateOctober = .ok x ∧
    x.cutShort = false ∧ x.occurrences.length = 2 ∧
    ∃ anchor duration days, fourMornings.start.inZone (.region .london) = .ok anchor ∧
      fourMornings.duration = .ok duration ∧
      daysIn (.region .london) fourDays.excluded = .ok days ∧
      x.occurrences.map (·.start)
        = (fourDays.counted 0 (seriesAt fourDays .standard anchor).cursors).filterMap
            (selected? fourDays (.region .london) duration days lateOctober) := by
  obtain ⟨x, hx, hcut, hlength⟩ : ∃ x, fourMornings.expand .standard lateOctober = .ok x ∧
      x.cutShort = false ∧ x.occurrences.length = 2 :=
    exists_ok_of_any (by decide +kernel)
  exact ⟨x, hx, hcut, hlength,
    starts_of_expand (by decide +kernel) rfl rfl (by decide) hx hcut⟩

end Event

end RecurringEvents
