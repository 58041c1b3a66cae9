import RecurringEvents.Proofs.Expansion.Progress
import RecurringEvents.Proofs.Expansion.Success

/-!
# The moves of a walk

What one move of a walk does, and why the walk stops when it stops.

* `Walk.moves_of_move`: a move goes on to the next cursor, counts the old one if it passes the
  filters, and collects its occurrence if it is shown as well.
* `Walk.stops?_eq_none_iff`: when a walk goes on.
* `Walk.move_eq_stop`: all ways in which a walk ends.
-/

namespace RecurringEvents

namespace Walk

variable {w : Walk} {p q : Progress} {start : Moment}

/-- Whether a walk is past the moments that are asked for. -/
def isPast (w : Walk) (start : Moment) : Bool :=
  (w.rule.lastMoment.any fun m => m.before start) || !start.before w.window.finish

/-- Whether the count of the rule is used up. -/
def isCounted (w : Walk) (p : Progress) : Bool := w.rule.count.any fun n => n ≤ (p.budget : Int)

/-- A walk goes on while it is not past what is asked for and nothing is used up. -/
theorem stops?_eq_none_iff : w.stops? p start = none ↔ w.isPast start = false ∧
    w.isCounted p = false ∧ (p.budget : Int) < w.cap ∧ (p.steps : Int) < w.maxIterations := by
  -- the tests one after the other, in the order of the walk
  unfold stops? isPast isCounted
  cases w.rule.lastMoment.any fun m => m.before start with
  | true => simp
  | false =>
    cases start.before w.window.finish with
    | false => simp
    | true =>
      cases w.rule.count.any fun n => n ≤ (p.budget : Int) with
      | true => simp
      | false =>
        by_cases hcap : w.cap ≤ p.budget
        · simp only [hcap, Bool.false_eq_true, Bool.not_true, if_false, if_true, reduceCtorEq,
            false_iff]
          omega
        · by_cases hsteps : w.maxIterations ≤ p.steps
          · simp [hcap, hsteps]
          · simp only [hcap, hsteps, Bool.false_eq_true, Bool.not_true, if_false, Bool.or_false,
              true_and, true_iff]
            omega

/-- A walk that stops without being cut short is past what is asked for, or has counted enough. -/
theorem of_stops?_eq_finished (h : w.stops? p start = some (.finished false)) :
    w.isPast start = true ∨ w.isCounted p = true := by
  unfold stops? at h
  unfold isPast isCounted
  split at h
  · next hl => exact Or.inl (by rw [hl, Bool.true_or])
  · split at h
    · next hf => exact Or.inl (by rw [hf, Bool.or_true])
    · split at h
      · next hc => exact Or.inr hc
      · split at h
        · cases h
        · split at h <;> cases h

/-- A walk that stops at a cursor has not failed. -/
theorem exists_of_stops? {ending : Ending} (h : w.stops? p start = some ending) :
    ∃ cut, ending = .finished cut := by
  unfold stops? at h
  repeat' split at h
  all_goals first | exact ⟨_, (Option.some.inj h).symm⟩ | cases h

/-- A walk moves on from the cursor `c`, shown as `start`. -/
structure Moves (w : Walk) (p q : Progress) (c : Wall) (start : Moment) : Prop where
  cursor : p.cursor = some c
  localized : Moment.localize c w.zone = .ok start
  goes_on : w.stops? p start = none
  next : q.cursor = w.series.step c
  steps : q.steps = p.steps + 1
  budget : q.budget = p.budget + if w.rule.passes c then 1 else 0
  collected : if w.rule.passes c ∧ w.isShown c start then
      ∃ o, w.event.occurrenceAt w.zone true start = .ok o ∧ q.collected = o :: p.collected
    else q.collected = p.collected

/-- **What a move does.** -/
theorem moves_of_move (h : w.move p = .next q) : ∃ c start, w.Moves p q c start := by
  unfold move at h
  split at h
  · cases h
  · next c hc =>
    split at h
    · cases h
    · next start hs =>
      refine ⟨c, start, ?_⟩
      split at h
      · cases h
      · next hgo =>
        split at h
        · next hp =>
          rw [Bool.not_eq_true'] at hp
          cases h
          exact ⟨hc, hs, hgo, rfl, rfl, by simp [hp], by simp [hp]⟩
        · next hp =>
          rw [Bool.not_eq_true', Bool.not_eq_false] at hp
          split at h
          · next hn =>
            rw [Bool.not_eq_true'] at hn
            cases h
            exact ⟨hc, hs, hgo, rfl, rfl, by simp [hp], by simp [hn]⟩
          · next hn =>
            rw [Bool.not_eq_true', Bool.not_eq_false] at hn
            split at h
            · cases h
            · next o ho =>
              cases h
              exact ⟨hc, hs, hgo, rfl, rfl, by simp [hp], by simp [hp, hn, ho]⟩

/-- **How a walk ends.** Either the cursor is gone; or it cannot be localized; or the walk stops at
it; or its occurrence cannot be made. -/
theorem move_eq_stop {ending : Ending} (h : w.move p = .stop ending) :
    (p.cursor = none ∧ ending = .finished false) ∨ ∃ c, p.cursor = some c ∧
      ((∃ err, Moment.localize c w.zone = .error err ∧ ending = .failed (.calendar err)) ∨
        ∃ start, Moment.localize c w.zone = .ok start ∧ (w.stops? p start = some ending ∨
          (w.stops? p start = none ∧ w.rule.passes c = true ∧ w.isShown c start = true ∧
            ∃ err, w.event.occurrenceAt w.zone true start = .error err ∧
              ending = .failed err))) := by
  unfold move at h
  split at h
  · next hc =>
    cases h
    exact Or.inl ⟨hc, rfl⟩
  · next c hc =>
    refine Or.inr ⟨c, hc, ?_⟩
    split at h
    · next err he =>
      cases h
      exact Or.inl ⟨err, he, rfl⟩
    · next start hs =>
      refine Or.inr ⟨start, hs, ?_⟩
      split at h
      · next stop hstop =>
        cases h
        exact Or.inl hstop
      · next hgo =>
        split at h
        · cases h
        · next hp =>
          split at h
          · cases h
          · next hn =>
            split at h
            · next err he =>
              cases h
              exact Or.inr ⟨hgo, by simpa using hp, by simpa using hn, err, he, rfl⟩
            · cases h

end Walk

end RecurringEvents
