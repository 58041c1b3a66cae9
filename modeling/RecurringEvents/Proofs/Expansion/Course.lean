import RecurringEvents.Proofs.Expansion.Trace

/-!
# The course of a walk

A walk that does not fail is told by one number, that of the cursor at which it ends. It has gone on
from every cursor before that, and it has collected what they give. What a cursor gives depends on
neither the cap nor the steps nor the end of the window, so walks that differ in nothing else are
compared by where they end.

* `Walk.Gives`, `Walk.madeBefore`: what the cursors give.
* `Walk.IsOver`, `Walk.IsSpent`: the two reasons to end at a cursor.
* `Walk.exists_endsAt_of_run`: a run that does not fail ends at a cursor, with what those before it
  give.
* `Walk.EndsAt.le`, `Walk.EndsAt.eq`: where two walks end.
-/

namespace RecurringEvents

namespace Walk

variable {w w' : Walk} {p q : Progress} {c : Wall} {start : Moment} {o : Occurrence} {n n' : Nat}
  {cut cut' : Bool}

/-! ## What is collected -/

/-- The `n`-th cursor gives an occurrence if a walk comes to it. -/
structure Gives (w : Walk) (n : Nat) (c : Wall) (o : Occurrence) : Prop where
  cursor : w.series.cursorAt n = some c
  localized : Moment.localize c w.zone = .ok o.start
  passes : w.rule.passes c = true
  shown : w.isShown c o.start = true
  made : w.event.occurrenceAt w.zone true o.start = .ok o

/-- What the `n`-th cursor gives. -/
def madeAt? (w : Walk) (n : Nat) : Option Occurrence :=
  (w.series.cursorAt n).bind fun c =>
    match Moment.localize c w.zone with
    | .ok start =>
      if w.rule.passes c && w.isShown c start then
        (w.event.occurrenceAt w.zone true start).toOption
      else none
    | .error _ => none

/-- What the cursors before the `n`-th one give. -/
def madeBefore (w : Walk) (n : Nat) : List Occurrence := (List.range n).filterMap w.madeAt?

theorem madeAt?_eq_some_iff : w.madeAt? n = some o ↔ ∃ c, w.Gives n c o := by
  unfold madeAt?
  rw [Option.bind_eq_some_iff]
  refine exists_congr fun c => ?_
  constructor
  · rintro ⟨hc, h⟩
    split at h
    · next start hs =>
      split at h
      · next hasked =>
        obtain ⟨hpasses, hshown⟩ := Bool.and_eq_true_iff.1 hasked
        cases ho : w.event.occurrenceAt w.zone true start with
        | error err =>
          rw [ho] at h
          cases h
        | ok o' =>
          rw [ho] at h
          cases h
          have hstart := Event.start_of_occurrenceAt ho
          exact ⟨hc, hstart ▸ hs, hpasses, hstart ▸ hshown, hstart ▸ ho⟩
      · cases h
    · cases h
  · rintro ⟨hc, hs, hpasses, hshown, ho⟩
    refine ⟨hc, ?_⟩
    rw [hs]
    simp only [hpasses, hshown, Bool.and_self, if_true, ho]
    rfl

theorem madeBefore_succ (w : Walk) (n : Nat) :
    w.madeBefore (n + 1) = w.madeBefore n ++ (w.madeAt? n).toList := by
  rw [madeBefore, List.range_succ, List.filterMap_append]
  rfl

theorem madeBefore_add (w : Walk) (n k : Nat) :
    w.madeBefore (n + k)
      = w.madeBefore n ++ (List.range k).filterMap fun i => w.madeAt? (n + i) := by
  rw [madeBefore, List.range_add, List.filterMap_append, List.filterMap_map]
  rfl

/-- What more cursors give begins with what fewer give. -/
theorem madeBefore_prefix (w : Walk) (h : n ≤ n') : w.madeBefore n <+: w.madeBefore n' := by
  obtain ⟨k, rfl⟩ := Nat.exists_eq_add_of_le h
  rw [madeBefore_add]
  exact List.prefix_append _ _

theorem exists_gives_of_mem (h : o ∈ w.madeBefore n) : ∃ m < n, ∃ c, w.Gives m c o := by
  obtain ⟨m, hm, ho⟩ := List.mem_filterMap.1 h
  exact ⟨m, List.mem_range.1 hm, madeAt?_eq_some_iff.1 ho⟩

/-- **What one move adds to what the cursors before it gave.** -/
theorem Reached.madeBefore_of_move (h : w.Reached p) (hmove : w.move p = .next q)
    (hp : p.collected.reverse = w.madeBefore p.steps) :
    q.collected.reverse = w.madeBefore q.steps := by
  obtain ⟨c, start, hm⟩ := moves_of_move hmove
  have hcursor : w.series.cursorAt p.steps = some c := h.cursor ▸ hm.cursor
  rw [hm.steps, madeBefore_succ, ← hp]
  have hcollected := hm.collected
  split at hcollected
  · next hshown =>
    obtain ⟨o, ho, hq⟩ := hcollected
    have hstart := Event.start_of_occurrenceAt ho
    have hgives : w.Gives p.steps c o :=
      ⟨hcursor, hstart ▸ hm.localized, hshown.1, hstart ▸ hshown.2, hstart ▸ ho⟩
    rw [hq, List.reverse_cons, madeAt?_eq_some_iff.2 ⟨c, hgives⟩]
    rfl
  · next hshown =>
    have hnone : w.madeAt? p.steps = none := by
      refine Option.eq_none_iff_forall_not_mem.2 fun o ho => hshown ?_
      obtain ⟨c', hgives⟩ := madeAt?_eq_some_iff.1 ho
      cases hcursor.symm.trans hgives.cursor
      cases hm.localized.symm.trans hgives.localized
      exact ⟨hgives.passes, hgives.shown⟩
    rw [hcollected, hnone, Option.toList_none, List.append_nil]

/-! ## Where a walk ends -/

/-- The series is over at the `n`-th cursor: it is gone, or past what is asked for, or the count of
the rule is used up. -/
def IsOver (w : Walk) (n : Nat) : Prop :=
  ∀ c start, w.series.cursorAt n = some c → Moment.localize c w.zone = .ok start →
    w.isPast start = true ∨ ∃ k ∈ w.rule.count, k ≤ (w.series.passedBefore n : Int)

/-- The cap or the steps are used up at the `n`-th cursor. -/
def IsSpent (w : Walk) (n : Nat) : Prop :=
  w.cap ≤ (w.series.passedBefore n : Int) ∨ w.maxIterations ≤ (n : Int)

/-- A walk ends at the `n`-th cursor, because the series is over or, if it is cut short, because a
limit is used up. -/
structure EndsAt (w : Walk) (n : Nat) (cut : Bool) : Prop where
  visits : w.Visits n
  over_iff : w.IsOver n ↔ cut = false
  spent : cut = true → w.IsSpent n

/-- Where a walk goes on, the series is not over and nothing is used up. -/
theorem GoesOn.not_over (h : w.GoesOn n c start) : ¬w.IsOver n ∧ ¬w.IsSpent n := by
  constructor
  · intro hover
    rcases hover c start h.cursor h.localized with hpast | ⟨k, hk, hle⟩
    · rw [h.not_past] at hpast
      cases hpast
    · have := h.under_count k hk
      omega
  · rintro (hcap | hsteps)
    · have := h.under_cap
      omega
    · have := h.under_steps
      omega

/-- A walk that is cut short at a cursor is not past what is asked for, and has not counted
enough. -/
theorem of_stops?_eq_cut (h : w.stops? p start = some (.finished true)) :
    w.isPast start = false ∧ w.isCounted p = false ∧
      (w.cap ≤ (p.budget : Int) ∨ w.maxIterations ≤ (p.steps : Int)) := by
  unfold stops? at h
  unfold isPast isCounted
  split at h
  · cases h
  · next hlast =>
    split at h
    · cases h
    · next hfinish =>
      split at h
      · cases h
      · next hcount =>
        refine ⟨by simp [hlast, hfinish], by simpa using hcount, ?_⟩
        split at h
        · next hcap => exact Or.inl hcap
        · split at h
          · next hsteps => exact Or.inr hsteps
          · cases h

/-- What a walk that has come so far has counted. -/
theorem Reached.isCounted_iff (h : w.Reached p) : w.isCounted p = true ↔
    ∃ k ∈ w.rule.count, k ≤ (w.series.passedBefore p.steps : Int) := by
  unfold isCounted
  rw [h.budget]
  cases w.rule.count <;> simp

/-- Where a move stops, the walk ends. -/
theorem Reached.endsAt (h : w.Reached p) (hmove : w.move p = .stop (.finished cut)) :
    w.EndsAt p.steps cut := by
  have hcounted := h.isCounted_iff
  rcases move_eq_stop hmove with ⟨hnone, hend⟩ | ⟨c, hc, ⟨err, -, hend⟩ | ⟨start, hs, hstop⟩⟩
  · -- the cursor is gone
    cases hend
    refine ⟨h.visits, ⟨fun _ => rfl, fun _ c start hc => ?_⟩, fun hcut => by cases hcut⟩
    rw [← h.cursor, hnone] at hc
    cases hc
  · cases hend
  · rcases hstop with hstop | ⟨-, -, -, err, -, hend⟩
    · have hcursor : w.series.cursorAt p.steps = some c := h.cursor ▸ hc
      cases cut with
      | false =>
        refine ⟨h.visits, ⟨fun _ => rfl, fun _ c' start' hc' hs' => ?_⟩, fun hcut => by cases hcut⟩
        cases hcursor.symm.trans hc'
        cases hs.symm.trans hs'
        exact (of_stops?_eq_finished hstop).imp_right hcounted.1
      | true =>
        obtain ⟨hpast, hcount, hspent⟩ := of_stops?_eq_cut hstop
        refine ⟨h.visits, ⟨fun hover => ?_, fun hcut => by cases hcut⟩, fun _ => ?_⟩
        · rcases hover c start hcursor hs with hpast' | hcount'
          · rw [hpast] at hpast'
            cases hpast'
          · rw [hcounted.2 hcount'] at hcount
            cases hcount
        · rw [h.budget] at hspent
          exact hspent
    · cases hend

/-- A run has collected what the cursors give that come before the one at which it stops. -/
theorem exists_stop_of_run (w : Walk) : ∃ p, w.Reached p ∧ w.move p = .stop w.run.ending ∧
    w.run.occurrences = w.madeBefore p.steps := by
  obtain ⟨p, hp, hmade, hmove, hrun⟩ := exists_kept_of_runFrom
    (fun p => p.collected.reverse = w.madeBefore p.steps)
    (fun _ _ h hp hmove => h.madeBefore_of_move hmove hp) w.reached_start rfl (Nat.add_zero _)
  exact ⟨p, hp, hmove, hrun.trans hmade⟩

/-- **A run that does not fail ends at a cursor, and what it has collected is what the cursors
before that one give.** -/
theorem exists_endsAt_of_run (hend : w.run.ending = .finished cut) :
    ∃ n, w.EndsAt n cut ∧ w.run.occurrences = w.madeBefore n := by
  obtain ⟨p, hp, hmove, hmade⟩ := w.exists_stop_of_run
  exact ⟨p.steps, hp.endsAt (hend ▸ hmove), hmade⟩

/-! ## Two walks -/

/-- A walk that has no reason to end before another one ends no sooner. -/
theorem EndsAt.le (hover : ∀ m, w'.IsOver m → w.IsOver m) (hspent : ∀ m, w'.IsSpent m → w.IsSpent m)
    (h : w.EndsAt n cut) (h' : w'.EndsAt n' cut') : n ≤ n' := by
  refine Nat.not_lt.1 fun hlt => ?_
  obtain ⟨c, start, hgo⟩ := h.visits n' hlt
  obtain ⟨hnot, hfree⟩ := hgo.not_over
  cases cut' with
  | false => exact hnot (hover n' (h'.over_iff.2 rfl))
  | true => exact hfree (hspent n' (h'.spent rfl))

/-- Walks through a series that is over at the same cursor end there, unless a limit is used up
before. -/
theorem EndsAt.eq (hover : ∀ m, w'.IsOver m ↔ w.IsOver m)
    (hspent : ∀ m, w'.IsSpent m → w.IsSpent m) (h : w.EndsAt n false) (h' : w'.EndsAt n' cut') :
    n = n' ∧ cut' = false := by
  have hle := EndsAt.le (fun m => (hover m).1) hspent h h'
  have hend : w'.IsOver n := (hover n).2 (h.over_iff.2 rfl)
  have heq : n = n' := by
    refine Nat.le_antisymm hle (Nat.not_lt.1 fun hlt => ?_)
    obtain ⟨c, start, hgo⟩ := h'.visits n hlt
    exact hgo.not_over.1 hend
  exact ⟨heq, h'.over_iff.1 (heq ▸ hend)⟩

end Walk

end RecurringEvents
