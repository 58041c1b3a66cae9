import RecurringEvents.Proofs.Expansion.Success
import RecurringEvents.Proofs.Zone.Gap

/-!
# Wall times that are read in one way

A wall time that is neither repeated nor skipped is read in one way, whatever its pass. Around it
the wall of a zone and time run in the same order, so a comparison on the wall is one of instants.
In a repeated hour this fails: the wall does not tell the passes apart.

* `Zone.IsSettled`: whether a wall time is read in one way.
* `Turn.shown_iff`, `Zone.IsSettled.shown_iff`: the two orders, around one turn and in a zone.
* `Moment.before_of_settled`, `Moment.notAfter_of_settled`: moments that are compared by their
  instants, in one zone as well as in two.
-/

namespace RecurringEvents

/-! ## One turn -/

namespace Turn

variable {c : Turn} {s t : Int} {pass : Pass}

/-- A wall time that both passes read alike comes before or after all that is in doubt. -/
theorem of_offsetFor_eq (h : c.offsetFor .first s = c.offsetFor .second s) (pass : Pass) :
    (s < c.instant + c.before ∧ s < c.instant + c.after ∧ c.offsetFor pass s = c.before) ∨
    (c.instant + c.before ≤ s ∧ c.instant + c.after ≤ s ∧ c.offsetFor pass s = c.after) ∨
    (c.before = c.after ∧ c.offsetFor pass s = c.before) := by
  cases pass <;> simp only [offsetFor, wallStart] at * <;> omega

/-- Around a wall time that both passes read alike, the wall runs in the order of time. -/
theorem shown_iff (h : c.offsetFor .first s = c.offsetFor .second s) :
    (t + c.offsetAt t < s ↔ t < s - c.offsetFor pass s) ∧
      (s < t + c.offsetAt t ↔ s - c.offsetFor pass s < t) := by
  rcases of_offsetFor_eq h pass with ⟨h1, h2, hread⟩ | ⟨h1, h2, hread⟩ | ⟨hstill, hread⟩
  all_goals
    rw [hread]
    unfold offsetAt
    split <;> omega

end Turn

/-! ## Zones -/

namespace Zone

/-- Whether a zone reads a wall time in one way. -/
def IsSettled (z : Zone) (n : Int) : Prop := z.offsetFor .first n = z.offsetFor .second n

instance (z : Zone) (n : Int) : Decidable (z.IsSettled n) := inferInstanceAs (Decidable (_ = _))

/-- In the hour at Nuuk that is read early, the passes are told apart. -/
theorem IsSettled.not_isResetHour {r : Region} {n : Int} (h : (region r).IsSettled n)
    (pass : Pass) : ¬r.IsResetHour pass (n / secondMicros) := by
  rintro ⟨rfl, rfl, h1, h2⟩
  simp only [IsSettled, offsetFor] at h
  rw [Region.nuuk_localType .first (by omega) (by omega),
    Region.nuuk_localType .second (by omega) (by omega), if_pos ⟨rfl, h1, h2⟩,
    if_neg fun hp => by cases hp.1] at h
  cases h

/-- **Around a wall time that is read in one way, the wall of a zone runs in the order of time.** -/
theorem IsSettled.shown_iff {z : Zone} {n : Int} (hz : z.IsOrderly) (h : z.IsSettled n)
    (pass : Pass) (t : Int) :
    (z.shown t < n ↔ t < z.readAt pass n) ∧ (n < z.shown t ↔ z.readAt pass n < t) := by
  cases z with
  | fixed o =>
    simp only [shown, readAt, offsetAt, offsetFor]
    omega
  | region r =>
    obtain ⟨c, hc, hread⟩ := Region.exists_shapes hz (n / secondMicros)
    have hpass : ∀ p, (r.clock.localType p (n / secondMicros)).offset
        = c.offsetFor p (n / secondMicros) := fun p => hread p (h.not_isResetHour p)
    have hoff := Region.offset_lt hz (t / secondMicros)
    have hfor := hc.small.offsetFor_lt pass (n / secondMicros)
    have hboth : (t / secondMicros + r.clock.offset (t / secondMicros) < n / secondMicros ↔
        t / secondMicros < n / secondMicros - c.offsetFor pass (n / secondMicros)) ∧
      (n / secondMicros < t / secondMicros + r.clock.offset (t / secondMicros) ↔
        n / secondMicros - c.offsetFor pass (n / secondMicros) < t / secondMicros) := by
      by_cases hnear : n / secondMicros - 86400 ≤ t / secondMicros ∧
          t / secondMicros ≤ n / secondMicros + 86400
      · have hshape : r.clock.offset (t / secondMicros) = c.offsetAt (t / secondMicros) :=
          hc.typeAt _ hnear.1 hnear.2
        rw [hshape]
        refine Turn.shown_iff ?_
        rw [← hpass, ← hpass]
        exact h
      · -- a day away, no offset makes a difference
        omega
    simp only [shown, readAt, offsetAt, offsetFor, hpass]
    simp only [Clock.offset] at hboth
    simp only [secondMicros] at *
    omega

end Zone

/-! ## Moments -/

namespace Moment

variable {m n : Moment}

theorem dependsOnPass_eq_false_iff : m.dependsOnPass = false ↔ m.zone.IsSettled m.wall.count := by
  have hcount : ∀ p, Wall.count { m.wall with pass := p } = m.wall.count := fun _ => rfl
  rw [dependsOnPass, offset, Zone.offsetOf_eq, Zone.offsetOf_eq, hcount]
  simp only [decide_eq_false_iff_not, ne_eq, Classical.not_not, Zone.IsSettled]
  cases m.wall.pass with
  | first => exact eq_comm
  | second => rfl

/-- **A moment is compared by its instant with every moment that is shown**, if its offset does not
depend on the pass where both are in one zone. -/
theorem before_of_settled (hz : n.zone.IsOrderly) (hm : m.zone = n.zone → m.dependsOnPass = false)
    (hn : n.IsReal) : m.before n = decide (m.instant < n.instant) := by
  by_cases hzone : m.zone = n.zone
  · have hsettled := dependsOnPass_eq_false_iff.1 (hm hzone)
    rw [before, places, if_pos hzone, decide_eq_decide, ← hn, ← hzone, instant_eq m]
    exact (hsettled.shown_iff (hzone ▸ hz) m.wall.pass n.instant).2
  · exact before_of_ne hzone

theorem notAfter_of_settled (hz : n.zone.IsOrderly) (hm : m.zone = n.zone → m.dependsOnPass = false)
    (hn : n.IsReal) : n.notAfter m = decide (n.instant ≤ m.instant) := by
  have hbefore := before_of_settled hz hm hn
  rw [before_eq_not_notAfter] at hbefore
  rw [← Bool.not_not (n.notAfter m), hbefore, ← decide_not, decide_eq_decide, Int.not_lt]

end Moment

end RecurringEvents
