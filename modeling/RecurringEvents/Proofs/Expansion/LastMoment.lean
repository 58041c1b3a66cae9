import RecurringEvents.Proofs.Expansion.Identity
import RecurringEvents.Proofs.Expansion.SameSeries
import RecurringEvents.Proofs.Moment.Settled

/-!
# The last moment of a rule

A rule with a last moment gives the occurrences of the rule without it that do not start after that
moment. The series stops at the first cursor that starts after it, and since localized cursors are
in order on the wall and in time, nothing that comes later is in time again.

The last moment is compared like any moment: in the zone of the event by the wall, which does not
tell the passes of a repeated hour apart, and in another zone by the instant.

* `Rule.endless`: the rule without its last moment.
* `Walk.after_of_gives`: what is late stays late.
* `Walk.madeBefore_endless`: what the cursors give in time.
* `Event.in_time_of_expand`: the two expansions.
-/

namespace RecurringEvents

/-- The rule without its last moment. -/
def Rule.endless (r : Rule) : Rule :=
  { r with lastMoment := none, lastMoment_whole := noLastMoment_whole }

/-- It has the same series. -/
theorem Rule.bare_endless (r : Rule) : r.endless.bare = r.bare := rfl

namespace Walk

variable {w : Walk} {last : Moment} {c : Wall} {o : Occurrence} {m n k : Nat} {cut : Bool}

/-- A walk is past a start that is after the last moment, or that it is past without it. -/
theorem isPast_endless (hlast : w.rule.lastMoment = some last) (start : Moment) :
    w.isPast start = (last.before start || (w.withRule w.rule.endless).isPast start) := by
  unfold isPast
  rw [hlast]
  rfl

/-- A series that is over without its last moment is over. -/
theorem isOver_of_endless (hlast : w.rule.lastMoment = some last)
    (h : (w.withRule w.rule.endless).IsOver n) : w.IsOver n := by
  intro c start hc hs
  rw [← Series.cursorAt_of_bare (series_withRule (w := w) w.rule.bare_endless)] at hc
  refine (h c start hc hs).imp (fun hpast => ?_) fun hcount => ?_
  · rw [isPast_endless hlast, hpast, Bool.or_true]
  · rwa [Series.passedBefore_of_bare (series_withRule (w := w) w.rule.bare_endless)]
      at hcount

/-- Limits are used up alike. -/
theorem isSpent_of_endless (h : (w.withRule w.rule.endless).IsSpent n) : w.IsSpent n := by
  unfold IsSpent at h ⊢
  rwa [Series.passedBefore_of_bare (series_withRule (w := w) w.rule.bare_endless)] at h

/-- What is given before the walk ends does not start after the last moment. -/
theorem notAfter_of_gives (hlast : w.rule.lastMoment = some last) (hv : w.Visits n) (hlt : m < n)
    (hgives : w.Gives m c o) : o.start.notAfter last = true := by
  obtain ⟨d, start, hgo⟩ := hv m hlt
  cases hgives.cursor.symm.trans hgo.cursor
  cases hgives.localized.symm.trans hgo.localized
  have hpast := hgo.not_past
  rw [isPast_endless hlast, Bool.or_eq_false_iff, Moment.before_eq_not_notAfter,
    Bool.not_eq_false'] at hpast
  exact hpast.1

/-- What is given after a series is over, where it goes on without its last moment, starts after
that. -/
theorem after_of_gives (hz : w.zone.IsOrderly) (hlast : w.rule.lastMoment = some last)
    (hover : w.IsOver n) (hv : (w.withRule w.rule.endless).Visits k) (hle : n ≤ m) (hlt : m < k)
    (hgives : w.Gives m c o) : o.start.notAfter last = false := by
  have hseries := series_withRule (w := w) w.rule.bare_endless
  obtain ⟨d, start, hgo⟩ := hv n (Nat.lt_of_le_of_lt hle hlt)
  have hd : w.series.cursorAt n = some d := Series.cursorAt_of_bare hseries n ▸ hgo.cursor
  have hs : Moment.localize d w.zone = .ok start := hgo.localized
  -- the only reason for the series to be over there is the last moment
  have hlate : last.before start = true := by
    rcases hover d start hd hs with hpast | ⟨j, hj, hcount⟩
    · rwa [isPast_endless hlast, hgo.not_past, Bool.or_false] at hpast
    · have := hgo.under_count j hj
      rw [Series.passedBefore_of_bare hseries] at this
      omega
  rw [← Bool.not_eq_true', ← Moment.before_eq_not_notAfter]
  -- what is late stays late
  exact (Series.noLater_of_cursorAt hz hle hd hgives.cursor hs hgives.localized).before hlate

/-- **What a walk gives is what it gives without its last moment and not after that.** -/
theorem madeBefore_endless (hz : w.zone.IsOrderly) (hlast : w.rule.lastMoment = some last)
    (hends : w.EndsAt n false) (hends' : (w.withRule w.rule.endless).EndsAt k cut) :
    w.madeBefore n = (w.madeBefore k).filter fun o => o.start.notAfter last := by
  have hle : n ≤ k :=
    hends.le (fun _ => isOver_of_endless hlast) (fun _ => isSpent_of_endless) hends'
  obtain ⟨j, rfl⟩ := Nat.exists_eq_add_of_le hle
  have hearly : (w.madeBefore n).filter (fun o => o.start.notAfter last) = w.madeBefore n := by
    refine List.filter_eq_self.2 fun o ho => ?_
    obtain ⟨m, hm, c, hgives⟩ := exists_gives_of_mem ho
    exact notAfter_of_gives hlast hends.visits hm hgives
  have hlate : ((List.range j).filterMap fun i => w.madeAt? (n + i)).filter
      (fun o => o.start.notAfter last) = [] := by
    refine List.filter_eq_nil_iff.2 fun o ho => ?_
    obtain ⟨i, hi, hmade⟩ := List.mem_filterMap.1 ho
    obtain ⟨c, hgives⟩ := madeAt?_eq_some_iff.1 hmade
    rw [after_of_gives hz hlast (hends.over_iff.2 rfl) hends'.visits (Nat.le_add_right n i)
      (Nat.add_lt_add_left (List.mem_range.1 hi) n) hgives]
    exact Bool.false_ne_true
  rw [madeBefore_add, List.filter_append, hearly, hlate, List.append_nil]

end Walk

namespace Event

variable {e : Event} {rule : Rule} {limits : Limits} {q : Query} {x y : Expansion} {last : Moment}

/-- What is shown of the occurrences of a rule in time. -/
theorem slots_of_last [ZoneDatabase] (hz : e.calendarZone.IsOrderly) (hrule : e.rule = some rule)
    (hx : rule.extras = []) (hlast : rule.lastMoment = some last) (h : e.expand limits q = .ok x)
    (hcut : x.cutShort = false) (h' : (e.withRule (some rule.endless)).expand limits q = .ok y) :
    x.occurrences.map Occurrence.slot
      = (y.occurrences.filter fun o => o.start.notAfter last).map Occurrence.slot := by
  obtain ⟨c, w, n, hc, hw, hends, hmade⟩ := exists_endsAt_of_expand hrule hx h
  have hrule' : (e.withRule (some rule.endless)).rule = some rule.endless := rfl
  obtain ⟨c', v, k, hc', hv, hends', hmade'⟩ := exists_endsAt_of_expand hrule' hx h'
  cases hc.symm.trans hc'
  obtain rfl := rule_of_walk hw
  obtain rfl := walk_of_withRule (show w.rule.endless.excluded = w.rule.excluded from rfl) hw hv
  rw [hmade, hmade', Walk.madeBefore_withRule w.rule.bare_endless, List.filter_map, List.map_map,
    Walk.madeBefore_endless (zone_of_walk hw ▸ hz) hlast (hcut ▸ hends) hends']
  rfl

/-- All occurrences of a rule without added ones are shown on the wall of its calendar. -/
theorem isReal_of_expand [ZoneDatabase] (hz : e.calendarZone.IsOrderly) (hrule : e.rule = some rule)
    (hx : rule.extras = []) (h : e.expand limits q = .ok x) :
    ∀ o ∈ x.occurrences, o.start.zone = e.calendarZone ∧ o.start.IsReal := by
  intro o ho
  have hshown : e.AddsShown := by
    intro rule' hrule' t ht
    cases hrule.symm.trans hrule'
    rw [hx] at ht
    cases ht
  obtain ⟨hstart, -⟩ := isStart_of_expand hrule h ho
  exact ⟨hstart.zone hz, hstart.isReal hz hrule hshown⟩

/--
**An expansion with a last moment gives the occurrences of the one without it that do not start
after that moment**, as moments are compared. If the last moment is of another zone than the
calendar, or at a wall time that both passes read alike, these are the ones whose start is no later
instant. The expansion without it may be cut short, if only the one with it is not.
-/
theorem in_time_of_expand [ZoneDatabase] (hz : e.calendarZone.IsOrderly)
    (hrule : e.rule = some rule) (hx : rule.extras = []) (hlast : rule.lastMoment = some last)
    (h : e.expand limits q = .ok x) (hcut : x.cutShort = false)
    (h' : (e.withRule (some rule.endless)).expand limits q = .ok y) :
    x.occurrences.map Occurrence.slot
      = (y.occurrences.filter fun o => o.start.notAfter last).map Occurrence.slot ∧
    ((last.zone = e.calendarZone → last.dependsOnPass = false) →
      x.occurrences.map Occurrence.slot
        = (y.occurrences.filter fun o => decide (o.start.instant ≤ last.instant)).map
          Occurrence.slot) := by
  have hslots := slots_of_last hz hrule hx hlast h hcut h'
  refine ⟨hslots, fun hsettled => hslots.trans (congrArg _ (List.filter_congr fun o ho => ?_))⟩
  obtain ⟨hzone, hreal⟩ := isReal_of_expand (e := e.withRule (some rule.endless)) hz rfl hx h' o ho
  exact Moment.notAfter_of_settled (hzone ▸ hz) (fun hsame => hsettled (hsame.trans hzone)) hreal

/-! ## Examples -/

/-- Every night up to a last moment in October 2024, as the clock in London shows it. -/
def nightly (day : Int) (minutes : Nat) (pass : Pass) : Rule :=
  { Rule.every .daily with
    lastMoment := some (.london (october day) minutes pass)
    lastMoment_whole := forall_mem_some (by
      simp only [Moment.london, TimeOfDay.micro, TimeOfDay.ofMinutes, secondMicros]
      omega) }

/-- A quarter to two in London, for two hours, every night from the 26th of October on. On the 27th
the hour from one to two comes twice. -/
def nights (rule : Rule) : Event where
  id := "nights"
  start := .london (october 26) 105
  finish := .london (october 26) 225
  timeZone := "Europe/London"
  rule := some rule
  finish_after_start := by decide +kernel

/-- The last moment is in the second pass of the night of the 27th. The start, in the first pass, is
earlier, but later on the wall. So the night is not there, although it would be in time. -/
theorem nights_secondPass : ∃ x y,
    (nights (nightly 27 90 .second)).expand .standard fourNights = .ok x ∧ x.cutShort = false ∧
    (nights (nightly 27 90 .second).endless).expand .standard fourNights = .ok y ∧
    y.cutShort = false ∧
    x.occurrences.map Occurrence.slot ≠ (y.occurrences.filter fun o =>
      decide (o.start.instant ≤ (Moment.london (october 27) 90 .second).instant)).map
        Occurrence.slot := by
  obtain ⟨x, hx, hcut, hlength⟩ :
      ∃ x, (nights (nightly 27 90 .second)).expand .standard fourNights = .ok x ∧
        x.cutShort = false ∧ x.occurrences.length = 1 := exists_ok_of_any (by decide +kernel)
  obtain ⟨y, hy, hcut', hlength'⟩ :
      ∃ y, (nights (nightly 27 90 .second).endless).expand .standard fourNights = .ok y ∧
        y.cutShort = false ∧ (y.occurrences.filter fun o =>
          decide (o.start.instant ≤ (Moment.london (october 27) 90 .second).instant)).length = 2 :=
    exists_ok_of_any (by decide +kernel)
  refine ⟨x, y, hx, hcut, hy, hcut', Occurrence.slots_ne ?_⟩
  rw [hlength, hlength']
  decide

/-- Up to the start of the night of the 28th there are three nights of four. -/
theorem nights_inTime : ∃ x y,
    (nights (nightly 28 105 .first)).expand .standard fourNights = .ok x ∧
    (nights (nightly 28 105 .first).endless).expand .standard fourNights = .ok y ∧
    x.occurrences.length = 3 ∧ y.occurrences.length = 4 ∧
    x.occurrences.map Occurrence.slot = (y.occurrences.filter fun o =>
      decide (o.start.instant ≤ (Moment.london (october 28) 105).instant)).map
        Occurrence.slot := by
  obtain ⟨x, hx, hcut, hlength⟩ :
      ∃ x, (nights (nightly 28 105 .first)).expand .standard fourNights = .ok x ∧
        x.cutShort = false ∧ x.occurrences.length = 3 := exists_ok_of_any (by decide +kernel)
  obtain ⟨y, hy, hlength'⟩ :
      ∃ y, (nights (nightly 28 105 .first).endless).expand .standard fourNights = .ok y ∧
        y.occurrences.length = 4 := exists_ok_of_any (by decide +kernel)
  exact ⟨x, y, hx, hy, hlength, hlength',
    (in_time_of_expand (by decide +kernel) rfl rfl rfl hx hcut hy).2 fun _ => by decide +kernel⟩

end Event

end RecurringEvents
