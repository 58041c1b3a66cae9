import RecurringEvents.Proofs.Expansion.Course
import RecurringEvents.Proofs.Expansion.Selection

/-!
# Larger limits

A larger cap and more steps let a walk go on further through the same series. What it has collected
before stays, and a walk that was not cut short does not change at all.

* `Event.walk_eq_of_limits`: the two walks differ in their limits only.
* `Walk.EndsAt.of_larger`: where they end.
* `Event.prefix_of_larger_limits`: the two expansions.
-/

namespace RecurringEvents

namespace Walk

variable {w : Walk} {cap steps : Int} {n n' : Nat} {cut cut' : Bool}

/-- The walk with other limits. -/
def withLimits (w : Walk) (cap steps : Int) : Walk := { w with cap := cap, maxIterations := steps }

/-- What the cursors give does not depend on the limits. -/
@[simp] theorem madeBefore_withLimits (w : Walk) (cap steps : Int) (n : Nat) :
    (w.withLimits cap steps).madeBefore n = w.madeBefore n := rfl

/-- Neither does the end of the series. -/
@[simp] theorem isOver_withLimits (w : Walk) (cap steps : Int) (n : Nat) :
    (w.withLimits cap steps).IsOver n ↔ w.IsOver n := Iff.rfl

/-- Larger limits are used up no sooner. -/
theorem isSpent_of_withLimits (hcap : w.cap ≤ cap) (hsteps : w.maxIterations ≤ steps)
    (h : (w.withLimits cap steps).IsSpent n) : w.IsSpent n := by
  rcases h with hle | hle
  · exact Or.inl (Int.le_trans hcap hle)
  · exact Or.inr (Int.le_trans hsteps hle)

/-- **With larger limits a walk ends no sooner, and at the same cursor if it was not cut short.** -/
theorem EndsAt.of_larger (hcap : w.cap ≤ cap) (hsteps : w.maxIterations ≤ steps)
    (h : w.EndsAt n cut) (h' : (w.withLimits cap steps).EndsAt n' cut') :
    n ≤ n' ∧ (cut = false → n = n' ∧ cut' = false) := by
  have hspent : ∀ m, (w.withLimits cap steps).IsSpent m → w.IsSpent m :=
    fun m => isSpent_of_withLimits hcap hsteps
  refine ⟨h.le (fun m => (isOver_withLimits w cap steps m).1) hspent h', ?_⟩
  rintro rfl
  exact h.eq (isOver_withLimits w cap steps) hspent h'

end Walk

namespace Event

variable {e : Event} {rule : Rule} {limits limits' : Limits} {start finish : Moment}
  {cap cap' : Option Int}

/-- Walks of one event in one range differ in their limits only. -/
theorem walk_eq_of_limits [ZoneDatabase] {c c' : CheckedQuery} {w w' : Walk}
    (hempty : limits.maxEmptyPeriods = limits'.maxEmptyPeriods) (hs : c'.start = c.start)
    (hf : c'.finish = c.finish) (hw : e.walk rule limits c = .ok w)
    (hw' : e.walk rule limits' c' = .ok w') :
    w' = w.withLimits c'.cap limits'.maxIterations := by
  obtain ⟨anchor, days, window, ha, hdays, hwindow, rfl⟩ := walk_eq_ok_iff.1 hw
  obtain ⟨anchor', days', window', ha', hdays', hwindow', rfl⟩ := walk_eq_ok_iff.1 hw'
  cases ha.symm.trans ha'
  cases hdays.symm.trans hdays'
  have hsame : e.windowOf c' = e.windowOf c := by rw [windowOf, windowOf, hs, hf]
  cases hwindow.symm.trans (hsame.symm.trans hwindow')
  simp only [Walk.withLimits, seriesAt, hempty]

/--
**Larger limits only add occurrences.** With a larger cap and more steps, an expansion begins with
the occurrences of the smaller one. If the smaller one was not cut short they are all, and the
larger one is not cut short either.
-/
theorem prefix_of_larger_limits [ZoneDatabase] {x x' : Expansion} (hrule : e.rule = some rule)
    (hx : rule.extras = []) (hcap : cap.getD limits.maxInstances ≤ cap'.getD limits'.maxInstances)
    (hsteps : limits.maxIterations ≤ limits'.maxIterations)
    (hempty : limits.maxEmptyPeriods = limits'.maxEmptyPeriods)
    (h : e.expand limits ⟨start, finish, cap⟩ = .ok x)
    (h' : e.expand limits' ⟨start, finish, cap'⟩ = .ok x') :
    x.occurrences <+: x'.occurrences ∧
      (x.cutShort = false → x'.occurrences = x.occurrences ∧ x'.cutShort = false) := by
  obtain ⟨c, w, hc, hw, hrun⟩ := exists_walk_of_expand hrule hx h
  obtain ⟨c', w', hc', hw', hrun'⟩ := exists_walk_of_expand hrule hx h'
  obtain ⟨hs, hf, hccap, -⟩ := Query.check_eq_ok hc
  obtain ⟨hs', hf', hccap', -⟩ := Query.check_eq_ok hc'
  -- one walk is the other one with larger limits
  obtain rfl := walk_eq_of_limits hempty (Except.ok.inj (hs'.symm.trans hs))
    (Except.ok.inj (hf'.symm.trans hf)) hw hw'
  have hlimits : w.cap = c.cap ∧ w.maxIterations = limits.maxIterations := by
    obtain ⟨anchor, days, window, -, -, -, rfl⟩ := walk_eq_ok_iff.1 hw
    exact ⟨rfl, rfl⟩
  obtain ⟨n, hends, hmade⟩ := Walk.exists_endsAt_of_run (congrArg Run.ending hrun)
  obtain ⟨n', hends', hmade'⟩ := Walk.exists_endsAt_of_run (congrArg Run.ending hrun')
  rw [hrun] at hmade
  rw [hrun', Walk.madeBefore_withLimits] at hmade'
  obtain ⟨hle, heq⟩ := hends.of_larger (by rw [hlimits.1, hccap, hccap']; exact hcap)
    (by rw [hlimits.2]; exact hsteps) hends'
  have hx1 : x.occurrences = w.madeBefore n := hmade
  have hx2 : x'.occurrences = w.madeBefore n' := hmade'
  rw [hx1, hx2]
  refine ⟨w.madeBefore_prefix hle, fun hcut => ?_⟩
  obtain ⟨rfl, hcut'⟩ := heq hcut
  exact ⟨rfl, hcut'⟩

/-- With a cap of three, the morning before the range and the excluded one leave one of the four
mornings; without it there are two. -/
theorem fourMornings_capped : ∃ x x',
    fourMornings.expand { Limits.standard with maxIterations := 50 }
      ⟨lateOctober.start, lateOctober.finish, some 3⟩ = .ok x ∧
    fourMornings.expand .standard ⟨lateOctober.start, lateOctober.finish, none⟩ = .ok x' ∧
    x.occurrences.length = 1 ∧ x'.occurrences.length = 2 ∧ x.occurrences <+: x'.occurrences ∧
    (x.cutShort = false → x'.occurrences = x.occurrences ∧ x'.cutShort = false) := by
  obtain ⟨x, hx, hlength⟩ : ∃ x, fourMornings.expand { Limits.standard with maxIterations := 50 }
      ⟨lateOctober.start, lateOctober.finish, some 3⟩ = .ok x ∧ x.occurrences.length = 1 :=
    exists_ok_of_any (by decide +kernel)
  obtain ⟨x', hx', hlength'⟩ : ∃ x', fourMornings.expand .standard
      ⟨lateOctober.start, lateOctober.finish, none⟩ = .ok x' ∧ x'.occurrences.length = 2 :=
    exists_ok_of_any (by decide +kernel)
  exact ⟨x, x', hx, hx', hlength, hlength',
    prefix_of_larger_limits rfl rfl (by decide) (by decide) (by decide) hx hx'⟩

end Event

end RecurringEvents
