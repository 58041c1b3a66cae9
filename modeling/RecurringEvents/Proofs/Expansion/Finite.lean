import RecurringEvents.Proofs.Expansion.Limits
import RecurringEvents.Proofs.Expansion.WallClock

/-!
# Walks end by themselves

Every step leads to a later date, so a walk comes to the end of its range without a limit on its
steps. Here the steps are not counted at all. What is collected depends on the cursors, which are at
the anchor's time of day, and not on where an earlier one was shown.

* `Series.days_of_step`: one step, in days.
* `Walk.moveFreely`, `Walk.ComesFreely`: the walk without a limit on its steps.
* `Walk.ComesFreely.reached`: what such a walk has come through.
* `Walk.ComesFreely.steps_le`, `Walk.ComesFreely.steps_le_of_range`: how long it can be.
* `Walk.EndsFreely.run_withLimits`: a limit that it does not need changes nothing.
* `Walk.ends_without_limit`: all of it.
-/

namespace RecurringEvents

namespace Series

variable {s : Series} {n : Nat} {c d : Wall}

/-- **A step from a cursor is some days long and keeps the time of day.** -/
theorem days_of_step (hc : s.cursorAt n = some c) (hd : s.step c = some d) :
    ∃ days : Nat, 0 < days ∧ d.date.dayNumber = c.date.dayNumber + days ∧ d.time = c.time := by
  have htime := time_of_cursorAt hc
  obtain ⟨htime', hlater⟩ := later_of_step htime hd
  obtain ⟨days, hdays⟩ := Int.eq_ofNat_of_zero_le
    (show 0 ≤ d.date.dayNumber - c.date.dayNumber by omega)
  exact ⟨days, by omega, by omega, htime'.trans htime.symm⟩

/-- So the `n`-th cursor is at least `n` days after the anchor. -/
theorem anchor_add_le_of_cursorAt (h : s.cursorAt n = some c) :
    s.anchor.date.dayNumber + n ≤ c.date.dayNumber := by
  induction n generalizing c with
  | zero =>
    have := anchor_le_of_cursorAt h
    omega
  | succ n ih =>
    obtain ⟨b, hb, hstep⟩ := Option.bind_eq_some_iff.1 h
    obtain ⟨days, hpos, hdays, -⟩ := days_of_step hb hstep
    have := ih hb
    omega

end Series

namespace Walk

variable {w : Walk} {p q : Progress} {ending : Ending} {g : Int} {n : Nat}

/-! ## Without a limit on the steps -/

/-- A move that no limit on the steps stops: the limit is one more than have been made. -/
def moveFreely (w : Walk) (p : Progress) : Move := (w.withLimits w.cap (p.steps + 1)).move p

/-- The progress of a walk whose steps are not limited. -/
inductive ComesFreely (w : Walk) : Progress → Prop
  | start : ComesFreely w { cursor := w.series.firstCursor }
  | move {p q : Progress} (h : ComesFreely w p) (hmove : w.moveFreely p = .next q) :
      ComesFreely w q

/-- A walk whose steps are not limited ends at `p`. -/
structure EndsFreely (w : Walk) (p : Progress) (ending : Ending) : Prop where
  comes : w.ComesFreely p
  stops : w.moveFreely p = .stop ending

/-- A limit that is not used up does not change a move. -/
theorem move_withLimits (h : (p.steps : Int) < g) :
    (w.withLimits w.cap g).move p = w.moveFreely p := by
  have hstops : ∀ start, (w.withLimits w.cap g).stops? p start
      = (w.withLimits w.cap (p.steps + 1)).stops? p start := by
    intro start
    have hroom : ¬(p.steps : Int) + 1 ≤ p.steps := by omega
    simp only [stops?, withLimits, rule, Int.not_le.2 h, hroom, if_false]
  -- nothing else in a move asks for the limit
  unfold moveFreely move
  simp only [hstops]
  rfl

/-- A move goes on only with a limit that is not used up. -/
theorem steps_lt_of_move (h : (w.withLimits w.cap g).move p = .next q) : (p.steps : Int) < g := by
  obtain ⟨c, start, hm⟩ := moves_of_move h
  obtain ⟨-, -, -, hsteps⟩ := stops?_eq_none_iff.1 hm.goes_on
  exact hsteps

theorem steps_of_moveFreely (h : w.moveFreely p = .next q) : q.steps = p.steps + 1 := by
  obtain ⟨c, start, hm⟩ := moves_of_move h
  exact hm.steps

/-- A walk that goes on from a start has not come to the end of a window of UTC. -/
theorem instant_lt_of_not_past {start : Moment} (hf : w.window.finish.zone = .utc)
    (h : w.isPast start = false) : start.instant < w.window.finish.wall.count := by
  obtain ⟨-, hfinish⟩ := Bool.or_eq_false_iff.1 h
  rw [Moment.before_of_utc hf, Moment.instant_of_utc hf] at hfinish
  simpa using hfinish

namespace ComesFreely

/-- **What a walk comes to freely it comes to with every limit of so many steps.** -/
theorem reached (h : w.ComesFreely p) (hg : (p.steps : Int) ≤ g) :
    (w.withLimits w.cap g).Reached p := by
  induction h with
  | start => exact (w.withLimits w.cap g).reached_start
  | move h hmove ih =>
    rw [steps_of_moveFreely hmove] at hg
    refine (ih (by omega)).move ?_
    rw [move_withLimits (by omega), hmove]

/-- It has collected what the cursors so far give. -/
theorem madeBefore (h : w.ComesFreely p) : p.collected.reverse = w.madeBefore p.steps := by
  induction h with
  | start => rfl
  | @move p q h hmove ih =>
    exact (h.reached (g := p.steps + 1) (by omega)).madeBefore_of_move hmove ih

/-- After as many steps a walk has come to the same. -/
theorem eq_of_steps (hp : w.ComesFreely p) (hq : w.ComesFreely q) (hsteps : p.steps = q.steps) :
    p = q := by
  induction hp generalizing q with
  | start =>
    cases hq with
    | start => rfl
    | move hq hmove =>
      rw [steps_of_moveFreely hmove] at hsteps
      cases hsteps
  | move hp hmove ih =>
    cases hq with
    | start =>
      rw [steps_of_moveFreely hmove] at hsteps
      cases hsteps
    | move hq hmove' =>
      rw [steps_of_moveFreely hmove, steps_of_moveFreely hmove'] at hsteps
      obtain rfl := ih hq (Nat.succ.inj hsteps)
      exact Move.next.inj (hmove.symm.trans hmove')

/-! ## How long a walk can be -/

/-- The cursor that a walk has left last. -/
theorem exists_goesOn (h : w.ComesFreely p) (hsteps : p.steps = n + 1) :
    ∃ c start, (w.withLimits w.cap p.steps).GoesOn n c start :=
  (h.reached (Int.le_refl _)).visits n (by omega)

/-- **A walk has no more steps than there are days up to the end of the calendar.** -/
theorem steps_le (h : w.ComesFreely p) :
    (p.steps : Int) ≤ Date.lastDayNumber - w.series.anchor.date.dayNumber + 1 := by
  cases hsteps : p.steps with
  | zero =>
    have := w.series.anchor.date.dayNumber_le
    omega
  | succ n =>
    obtain ⟨c, start, hgo⟩ := h.exists_goesOn hsteps
    have hfar : w.series.anchor.date.dayNumber + n ≤ c.date.dayNumber :=
      Series.anchor_add_le_of_cursorAt hgo.cursor
    have hlast := c.date.dayNumber_le
    omega

/-- **Nor has it more steps than there are days up to the end of the range**, and two more, as the
zone may be a day ahead. -/
theorem steps_le_of_range (hz : w.zone.IsOrderly) (hf : w.window.finish.zone = .utc)
    (h : w.ComesFreely p) : (p.steps : Int) ≤
      max 0 (w.window.finish.wall.date.dayNumber - w.series.anchor.date.dayNumber + 2) := by
  cases hsteps : p.steps with
  | zero => exact Int.le_max_left _ _
  | succ n =>
    obtain ⟨c, start, hgo⟩ := h.exists_goesOn hsteps
    have hfar : w.series.anchor.date.dayNumber + n ≤ c.date.dayNumber :=
      Series.anchor_add_le_of_cursorAt hgo.cursor
    have hnear := (hz.readAt_near c.pass c.count).1
    have hlt := instant_lt_of_not_past hf hgo.not_past
    rw [(Moment.of_localize hz hgo.localized).2.1] at hlt
    have hday : c.date.dayNumber ≤ w.window.finish.wall.date.dayNumber + 1 := by
      have htime := c.time.nonneg
      have htime' := w.window.finish.wall.time.lt
      simp only [Wall.count, dayMicros] at *
      omega
    omega

end ComesFreely

/-! ## Where it ends -/

/-- A walk does not come further than where it ends. -/
theorem EndsFreely.steps_le (h : w.EndsFreely p ending) (hq : w.ComesFreely q) :
    q.steps ≤ p.steps := by
  induction hq with
  | start => exact Nat.zero_le _
  | @move q r hq hmove ih =>
    rw [steps_of_moveFreely hmove]
    rcases Nat.lt_or_eq_of_le ih with hlt | heq
    · exact hlt
    · -- the walk does not go on from its end
      obtain rfl := hq.eq_of_steps h.comes heq
      rw [h.stops] at hmove
      cases hmove

/-- A run with a limit comes to nothing that a walk without limit would not come to. -/
theorem exists_comesFreely_of_run (w : Walk) (g : Int) : ∃ p, w.ComesFreely p ∧
    (w.withLimits w.cap g).move p = .stop (w.withLimits w.cap g).run.ending ∧
      (w.withLimits w.cap g).run.occurrences = p.collected.reverse := by
  obtain ⟨p, -, hp, hstop, hmade⟩ := exists_kept_of_runFrom w.ComesFreely
    (fun p q _ hp hmove => hp.move ((move_withLimits (steps_lt_of_move hmove)).symm.trans hmove))
    (w.withLimits w.cap g).reached_start ComesFreely.start (Nat.add_zero _)
  exact ⟨p, hp, hstop, hmade⟩

/-- **Every walk ends without a limit on its steps.** -/
theorem exists_endsFreely (w : Walk) : ∃ p ending, w.EndsFreely p ending := by
  -- the calendar has no room for so many steps
  obtain ⟨p, hp, hstop, -⟩ := w.exists_comesFreely_of_run (Date.lastDayNumber + 1)
  have hle := hp.steps_le
  have hpos := w.series.anchor.date.dayNumber_pos
  rw [move_withLimits (by omega)] at hstop
  exact ⟨p, _, hp, hstop⟩

/-- **A limit that is not used up at the end changes nothing.** -/
theorem EndsFreely.run_withLimits (h : w.EndsFreely p ending) (hg : (p.steps : Int) < g) :
    (w.withLimits w.cap g).run = ⟨p.collected.reverse, ending⟩ := by
  obtain ⟨q, hq, hstop, hmade⟩ := w.exists_comesFreely_of_run g
  have hle := h.steps_le hq
  rw [move_withLimits (by omega)] at hstop
  have hend : w.EndsFreely q (w.withLimits w.cap g).run.ending := ⟨hq, hstop⟩
  obtain rfl := hq.eq_of_steps h.comes (Nat.le_antisymm hle (hend.steps_le h.comes))
  rw [h.stops] at hstop
  rw [Move.stop.inj hstop, ← hmade]

/-- What a walk has collected comes from its cursors, at the anchor's time of day. -/
theorem ComesFreely.exists_gives {o : Occurrence} (h : w.ComesFreely p) (ho : o ∈ p.collected) :
    ∃ n < p.steps, ∃ c, w.Gives n c o ∧ c.time = w.series.anchor.time := by
  rw [← List.mem_reverse, h.madeBefore] at ho
  obtain ⟨n, hn, c, hgives⟩ := exists_gives_of_mem ho
  exact ⟨n, hn, c, hgives, Series.time_of_cursorAt hgives.cursor⟩

/--
**Every walk ends by itself.** A step from a cursor is a positive number of days long and keeps the
time of day. So without a limit on its steps the walk comes to an end, after no more steps than
there are days up to the end of the calendar, and up to the end of the range and two more if the
zone is orderly. With a limit that is larger than that the run is the same. Wherever the walk has
come to, its cursor is that of the series, which does not depend on the zone, and it has collected
what each cursor gives by itself: an occurrence that starts where a cursor at the anchor's time of
day is localized, so where it should unless the zone reads this cursor early, whatever was skipped
before.
-/
theorem ends_without_limit (w : Walk) :
    (∀ n c d, w.series.cursorAt n = some c → w.series.step c = some d →
      ∃ days : Nat, 0 < days ∧ d.date.dayNumber = c.date.dayNumber + days ∧ d.time = c.time) ∧
    (∃ p ending, w.EndsFreely p ending ∧ (∀ q, w.ComesFreely q → q.steps ≤ p.steps) ∧
      (p.steps : Int) ≤ Date.lastDayNumber - w.series.anchor.date.dayNumber + 1 ∧
      (w.zone.IsOrderly → w.window.finish.zone = .utc → (p.steps : Int) ≤
        max 0 (w.window.finish.wall.date.dayNumber - w.series.anchor.date.dayNumber + 2)) ∧
      ∀ g : Int, p.steps < g → (w.withLimits w.cap g).run = ⟨p.collected.reverse, ending⟩) ∧
    ∀ p, w.ComesFreely p →
      p.cursor = w.series.cursorAt p.steps ∧ p.collected.reverse = w.madeBefore p.steps ∧
      ∀ o ∈ p.collected, ∃ n < p.steps, ∃ c, w.Gives n c o ∧ c.time = w.series.anchor.time ∧
        ∀ r : Region, r.IsOrderly → w.zone = .region r → ¬r.ReadsEarly c.pass c.count →
          StartsAsShown w.zone c o.start := by
  refine ⟨fun n c d hc hd => Series.days_of_step hc hd, ?_, fun p hp => ⟨?_, hp.madeBefore, ?_⟩⟩
  · obtain ⟨p, ending, hend⟩ := w.exists_endsFreely
    exact ⟨p, ending, hend, fun q hq => hend.steps_le hq, hend.comes.steps_le,
      fun hz hf => hend.comes.steps_le_of_range hz hf, fun g hg => hend.run_withLimits hg⟩
  · exact (hp.reached (Int.le_refl _)).cursor
  · intro o ho
    obtain ⟨n, hn, c, hgives, htime⟩ := hp.exists_gives ho
    refine ⟨n, hn, c, hgives, htime, fun r hr hz hearly => ?_⟩
    have hlocal := hgives.localized
    rw [hz] at hlocal ⊢
    exact (Moment.startsAsShown_iff hr hlocal).1.2 hearly

end Walk

/-! ## An example -/

namespace Event

/-- Every night at half past one in London, from the night before the one that skips this time. -/
def lateMarchNights : Event where
  id := "nights"
  start := .london (.near 2025 3 29) 90
  finish := .london (.near 2025 3 29) 105
  timeZone := "Europe/London"
  rule := some (.every .daily)
  finish_after_start := by decide +kernel

/-- Up to April its walk makes three steps. The second night starts an hour later, the third one
does not. -/
theorem lateMarchNights_ends : ∃ w p ending,
    lateMarchNights.walk (.every .daily) .standard nextMarch = .ok w ∧
    w.EndsFreely p ending ∧ p.steps ≤ 5 ∧ (w.withLimits w.cap 6).run = w.run ∧
    w.run.occurrences.map (fun o => o.start) = [.london (.near 2025 3 29) 90,
      .london (.near 2025 3 30) 150, .london (.near 2025 3 31) 90] := by
  obtain ⟨w, hw, hz, hf, hdays, hlimit, hstarts⟩ : ∃ w,
      lateMarchNights.walk (.every .daily) .standard nextMarch = .ok w ∧ w.zone.IsOrderly ∧
      w.window.finish.zone = .utc ∧
      w.window.finish.wall.date.dayNumber - w.series.anchor.date.dayNumber = 3 ∧
      5 < w.maxIterations ∧
      w.run.occurrences.map (fun o => o.start) = [.london (.near 2025 3 29) 90,
        .london (.near 2025 3 30) 150, .london (.near 2025 3 31) 90] :=
    exists_ok_of_any (by decide +kernel)
  obtain ⟨-, ⟨p, ending, hend, -, -, hrange, hrun⟩, -⟩ := w.ends_without_limit
  have hle := hrange hz hf
  rw [hdays] at hle
  have hsteps : p.steps ≤ 5 := by omega
  refine ⟨w, p, ending, hw, hend, hsteps, ?_, hstarts⟩
  rw [hrun 6 (by omega)]
  exact (hrun w.maxIterations (by omega)).symm

end Event

end RecurringEvents
