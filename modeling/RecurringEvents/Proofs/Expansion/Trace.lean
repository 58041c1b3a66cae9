import RecurringEvents.Proofs.Expansion.Move

/-!
# What a walk has come through

The progress of a walk says everything about its past: how many steps it has made determines the
cursor, how many cursors it has counted, and that it went on from each of them.

* `Walk.GoesOn`: when a walk goes on from a cursor, said without the walk.
* `Walk.Reached.move`: what one move keeps.
* `Walk.exists_reached_of_run`: what a whole run has come through.
* `Walk.run_visits`: a run that does not fail visits every cursor up to which it should go on.
-/

namespace RecurringEvents

/-- How many of the first `n` cursors pass the filters. -/
def Series.passedBefore (s : Series) (n : Nat) : Nat := (s.cursors.take n).countP s.rule.passes

theorem Series.passedBefore_succ {s : Series} {n : Nat} {c : Wall} (h : s.cursorAt n = some c) :
    s.passedBefore (n + 1) = s.passedBefore n + if s.rule.passes c then 1 else 0 := by
  rw [passedBefore, List.take_add_one, s.getElem?_cursors, h, Option.toList_some,
    List.countP_append, List.countP_singleton]
  rfl

namespace Walk

/-- A walk goes on from the `n`-th cursor: it has a start that is not past what is asked for, and
the cursors before it have not used up the count of the rule, the cap or the steps. -/
structure GoesOn (w : Walk) (n : Nat) (c : Wall) (start : Moment) : Prop where
  cursor : w.series.cursorAt n = some c
  localized : Moment.localize c w.zone = .ok start
  not_past : w.isPast start = false
  under_count : ∀ k ∈ w.rule.count, (w.series.passedBefore n : Int) < k
  under_cap : (w.series.passedBefore n : Int) < w.cap
  under_steps : (n : Int) < w.maxIterations

/-- Whether a walk comes to the `n`-th cursor. -/
def Visits (w : Walk) (n : Nat) : Prop := ∀ m < n, ∃ c start, w.GoesOn m c start

/-- The occurrence of the `n`-th cursor is asked for. -/
structure AsksFor (w : Walk) (n : Nat) (c : Wall) (start : Moment) : Prop where
  goes_on : w.GoesOn n c start
  passes : w.rule.passes c = true
  shown : w.isShown c start = true

/-- The `n`-th cursor gives an occurrence. -/
structure Makes (w : Walk) (n : Nat) (c : Wall) (o : Occurrence) : Prop where
  asked : w.AsksFor n c o.start
  made : w.event.occurrenceAt w.zone true o.start = .ok o

/-- What is true of the progress of a walk. -/
structure Reached (w : Walk) (p : Progress) : Prop where
  cursor : p.cursor = w.series.cursorAt p.steps
  budget : p.budget = w.series.passedBefore p.steps
  visits : w.Visits p.steps
  collected : ∀ o ∈ p.collected, ∃ n c, w.Makes n c o

variable {w : Walk} {p q : Progress} {c : Wall} {start : Moment} {n : Nat}

/-- A walk begins at the first cursor. -/
theorem reached_start (w : Walk) : w.Reached { cursor := w.series.firstCursor } :=
  ⟨rfl, rfl, fun m hm => absurd hm (Nat.not_lt_zero m), fun o ho => by cases ho⟩

/-- Whether a walk stops at a cursor is known from its number. -/
theorem Reached.stops?_eq_none_iff (h : w.Reached p) (hc : p.cursor = some c)
    (hs : Moment.localize c w.zone = .ok start) :
    w.stops? p start = none ↔ w.GoesOn p.steps c start := by
  have hcounted : w.isCounted p = false ↔
      ∀ k ∈ w.rule.count, (w.series.passedBefore p.steps : Int) < k := by
    unfold isCounted
    rw [h.budget]
    cases w.rule.count <;> simp
  rw [Walk.stops?_eq_none_iff, hcounted, h.budget]
  constructor
  · rintro ⟨h1, h2, h3, h4⟩
    exact ⟨h.cursor ▸ hc, hs, h1, h2, h3, h4⟩
  · rintro ⟨-, -, h1, h2, h3, h4⟩
    exact ⟨h1, h2, h3, h4⟩

/-- **What one move keeps.** -/
theorem Reached.move (h : w.Reached p) (hmove : w.move p = .next q) : w.Reached q := by
  obtain ⟨c, start, hm⟩ := moves_of_move hmove
  have hgo := (h.stops?_eq_none_iff hm.cursor hm.localized).1 hm.goes_on
  have hcursor : w.series.cursorAt p.steps = some c := hgo.cursor
  refine ⟨?_, ?_, ?_, ?_⟩
  · rw [hm.next, hm.steps, Series.cursorAt, hcursor, Option.bind_some]
  · rw [hm.budget, hm.steps, Series.passedBefore_succ hcursor, h.budget]
    rfl
  · intro m hlt
    rw [hm.steps] at hlt
    -- the walk has gone on from the cursor that it leaves
    rcases Nat.lt_succ_iff_lt_or_eq.1 hlt with hlt | rfl
    · exact h.visits m hlt
    · exact ⟨c, start, hgo⟩
  · intro o ho
    have hcollected := hm.collected
    split at hcollected
    · next hshown =>
      obtain ⟨o', ho', hq⟩ := hcollected
      rw [hq] at ho
      rcases List.mem_cons.1 ho with rfl | ho
      · have hstart := Event.start_of_occurrenceAt ho'
        -- the occurrence of this move
        exact ⟨p.steps, c, ⟨hstart ▸ hgo, hshown.1, hstart ▸ hshown.2⟩, hstart ▸ ho'⟩
      · exact h.collected o ho
    · rw [hcollected] at ho
      exact h.collected o ho

/-- A walk that has come so far has not made more steps than it may. -/
theorem Reached.steps_le (h : w.Reached p) : p.steps ≤ w.maxIterations.toNat := by
  cases hs : p.steps with
  | zero => exact Nat.zero_le _
  | succ m =>
    obtain ⟨c, start, hgo⟩ := h.visits m (by omega)
    have := hgo.under_steps
    omega

/-- A run ends where a move stops, and whatever every move keeps still holds there. -/
theorem exists_kept_of_runFrom (kept : Progress → Prop)
    (hkept : ∀ p q, w.Reached p → kept p → w.move p = .next q → kept q) (h : w.Reached p)
    (hp : kept p) (hn : n + p.steps = w.maxIterations.toNat + 1) :
    ∃ q, w.Reached q ∧ kept q ∧ w.move q = .stop (w.runFrom n p).ending ∧
      (w.runFrom n p).occurrences = q.collected.reverse := by
  induction n generalizing p with
  -- the fuel outlasts the steps that a walk may make
  | zero =>
    have := h.steps_le
    omega
  | succ n ih =>
    unfold runFrom
    cases hmove : w.move p with
    | stop ending => exact ⟨p, h, hp, hmove, rfl⟩
    | next q =>
      obtain ⟨c, start, hm⟩ := moves_of_move hmove
      exact ih (h.move hmove) (hkept p q h hp hmove) (by rw [hm.steps]; omega)

/-- **A whole run ends where a move stops, and it has come through what its progress says.** -/
theorem exists_reached_of_run (w : Walk) : ∃ q, w.Reached q ∧ w.move q = .stop w.run.ending ∧
    w.run.occurrences = q.collected.reverse := by
  obtain ⟨q, hq, -, hrun⟩ := exists_kept_of_runFrom (fun _ => True)
    (fun _ _ _ _ _ => trivial) w.reached_start trivial (Nat.add_zero _)
  exact ⟨q, hq, hrun⟩

/-- Every occurrence of a run comes from a cursor. -/
theorem exists_makes_of_mem_run {o : Occurrence} (h : o ∈ w.run.occurrences) :
    ∃ n c, w.Makes n c o := by
  obtain ⟨q, hq, -, hrun⟩ := w.exists_reached_of_run
  rw [hrun] at h
  exact hq.collected o (List.mem_reverse.1 h)

/-- Where a walk should go on, it stops only if the occurrence of the cursor cannot be made. -/
theorem Reached.stop_of_goesOn {ending : Ending} (h : w.Reached p)
    (hgo : w.GoesOn p.steps c start) (hmove : w.move p = .stop ending) :
    w.AsksFor p.steps c start ∧
      ∃ err, w.event.occurrenceAt w.zone true start = .error err ∧ ending = .failed err := by
  have hcursor : p.cursor = some c := by rw [h.cursor, hgo.cursor]
  have hnone := (h.stops?_eq_none_iff hcursor hgo.localized).2 hgo
  rcases move_eq_stop hmove with ⟨hc, -⟩ | ⟨c', hc, hstop⟩
  · rw [hcursor] at hc
    cases hc
  · rw [hcursor] at hc
    cases hc
    rw [hgo.localized] at hstop
    rcases hstop with ⟨err, herr, -⟩ | ⟨start', hs, hstop⟩
    · cases herr
    · cases hs
      rcases hstop with hstop | ⟨-, hpasses, hshown, err, herr, hfailed⟩
      · rw [hnone] at hstop
        cases hstop
      · exact ⟨⟨hgo, hpasses, hshown⟩, err, herr, hfailed⟩

/-- **A run that does not fail comes to every cursor that it should come to.** -/
theorem run_visits {cut : Bool} (hend : w.run.ending = .finished cut) (hv : w.Visits n) :
    ∃ k p, w.Reached p ∧ p.steps = n ∧ k + n = w.maxIterations.toNat ∧
      w.runFrom (k + 1) p = w.run := by
  induction n with
  | zero => exact ⟨_, _, w.reached_start, rfl, rfl, rfl⟩
  | succ n ih =>
    obtain ⟨k, p, hp, hsteps, hk, hrun⟩ := ih fun m hm => hv m (by omega)
    obtain ⟨c, start, hgo⟩ := hv n (Nat.lt_succ_self n)
    rw [← hrun] at hend
    unfold runFrom at hend hrun
    -- a stop here would be a failure
    cases hmove : w.move p with
    | stop ending =>
      obtain ⟨-, err, -, hfailed⟩ := hp.stop_of_goesOn (hsteps ▸ hgo) hmove
      rw [hmove] at hend
      rw [show ending = .finished cut from hend] at hfailed
      cases hfailed
    | next q =>
      rw [hmove] at hrun
      obtain ⟨c', start', hm⟩ := moves_of_move hmove
      have hq := hp.move hmove
      have hle := hq.steps_le
      have hqsteps := hm.steps
      obtain ⟨j, rfl⟩ : ∃ j, k = j + 1 := ⟨k - 1, by omega⟩
      exact ⟨j, q, hq, by omega, by omega, hrun⟩

end Walk

end RecurringEvents
