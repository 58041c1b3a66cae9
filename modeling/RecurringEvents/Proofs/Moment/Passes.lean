import RecurringEvents.Proofs.Moment.Settled

/-!
# The order of the two passes

When a clock is set back, an hour is shown twice. A wall time that is shown is read in the first
pass as the first instant at which it is shown, and in the second pass as the last one. So of two
shown moments of one zone the earlier one on the wall is the later one in time only if it is in the
second pass of a repeated hour, and the other one in the first pass.

* `Turn.shown_lt_of_first`, `Turn.lt_shown_of_second`: around one turn.
* `Zone.IsOrderly.shown_lt_of_first`, `Zone.IsOrderly.lt_shown_of_second`: in a zone.
* `Moment.Crosses`, `Moment.instant_le_or_crosses`: two moments that are shown.
-/

namespace RecurringEvents

/-! ## One turn -/

namespace Turn

variable {c : Turn} {s t : Int}

/-- Before the first reading of a shown wall time everything is earlier on the wall. -/
theorem shown_lt_of_first (hs : c.offsetAt (s - c.offsetFor .first s) = c.offsetFor .first s)
    (ht : t < s - c.offsetFor .first s) : t + c.offsetAt t < s := by
  simp only [offsetAt, offsetFor, wallStart] at *
  omega

/-- After the second reading of a shown wall time everything is later on the wall. -/
theorem lt_shown_of_second (hs : c.offsetAt (s - c.offsetFor .second s) = c.offsetFor .second s)
    (ht : s - c.offsetFor .second s < t) : s < t + c.offsetAt t := by
  simp only [offsetAt, offsetFor, wallStart] at *
  omega

end Turn

/-! ## Zones -/

namespace Zone.IsOrderly

variable {z : Zone} {n t : Int}

/-- A shown wall time of a region is read by one turn, which also tells what is shown within a day
of it. -/
theorem exists_turn {r : Region} (hr : (region r).IsOrderly) {pass : Pass}
    (hn : (region r).shown ((region r).readAt pass n) = n) : ∃ c : Turn,
      c.offsetAt (n / secondMicros - c.offsetFor pass (n / secondMicros))
        = c.offsetFor pass (n / secondMicros) ∧
      (region r).readAt pass n = n - c.offsetFor pass (n / secondMicros) * secondMicros ∧
      ∀ t, n - dayMicros ≤ t → t ≤ n + dayMicros →
        (region r).shown t = t + c.offsetAt (t / secondMicros) * secondMicros := by
  obtain ⟨c, hc, hread⟩ := Region.exists_shapes hr (n / secondMicros)
  have hreset : ¬r.IsResetHour pass (n / secondMicros) := by
    intro h
    rw [(Region.shown_readAt_of_nuuk h).2] at hn
    simp only [secondMicros] at hn
    omega
  have hfor := hc.small.offsetFor_lt pass (n / secondMicros)
  refine ⟨c, ?_, ?_, fun t h1 h2 => ?_⟩
  · rw [Region.shown_readAt r pass n (hread pass hreset)] at hn
    rw [← hc.typeAt _ (by omega) (by omega)]
    simp only [secondMicros, Clock.offset] at *
    omega
  · rw [readAt, offsetFor, hread pass hreset]
  · rw [shown, offsetAt, hc.typeAt]
    · simp only [secondMicros, dayMicros] at *
      omega
    · simp only [secondMicros, dayMicros] at *
      omega

/-- **Before the first reading of a shown wall time everything is earlier on the wall.** -/
theorem shown_lt_of_first (hz : z.IsOrderly) (hn : z.shown (z.readAt .first n) = n)
    (ht : t < z.readAt .first n) : z.shown t < n := by
  cases z with
  | fixed o =>
    simp only [shown, readAt, offsetAt, offsetFor] at *
    omega
  | region r =>
    obtain ⟨c, hs, hread, hshown⟩ := exists_turn hz hn
    by_cases hnear : n - dayMicros ≤ t
    · have hfor := hz.readAt_near .first n
      rw [hshown t hnear (by omega)]
      rw [hread] at ht
      simp only [secondMicros] at *
      by_cases hsame : t / 1000000 = n / 1000000 - c.offsetFor .first (n / 1000000)
      · rw [hsame, hs]
        omega
      · have := c.shown_lt_of_first hs (t := t / 1000000) (by omega)
        omega
    · -- a day before, no offset makes a difference
      have := hz.shown_near t
      omega

/-- **After the second reading of a shown wall time everything is later on the wall.** -/
theorem lt_shown_of_second (hz : z.IsOrderly) (hn : z.shown (z.readAt .second n) = n)
    (ht : z.readAt .second n < t) : n < z.shown t := by
  cases z with
  | fixed o =>
    simp only [shown, readAt, offsetAt, offsetFor] at *
    omega
  | region r =>
    obtain ⟨c, hs, hread, hshown⟩ := exists_turn hz hn
    by_cases hnear : t ≤ n + dayMicros
    · have hfor := hz.readAt_near .second n
      rw [hshown t (by omega) hnear]
      rw [hread] at ht
      simp only [secondMicros] at *
      by_cases hsame : t / 1000000 = n / 1000000 - c.offsetFor .second (n / 1000000)
      · rw [hsame, hs]
        omega
      · have := c.lt_shown_of_second hs (t := t / 1000000) (by omega)
        omega
    · have := hz.shown_near t
      omega

end Zone.IsOrderly

/-! ## Moments -/

namespace Moment

variable {m n : Moment}

/-- Whether the wall shows the earlier one of two moments later: it is in the first pass of a
repeated hour, and the other one in the second pass. -/
structure Crosses (m n : Moment) : Prop where
  second : m.wall.pass = .second
  first : n.wall.pass = .first
  depends : m.dependsOnPass = true ∧ n.dependsOnPass = true

/-- Around a moment that does not depend on the pass, the wall runs in the order of time. -/
theorem shown_iff_of_settled (hz : m.zone.IsOrderly) (h : m.dependsOnPass = false) (t : Int) :
    (m.zone.shown t < m.wall.count ↔ t < m.instant) ∧
      (m.wall.count < m.zone.shown t ↔ m.instant < t) :=
  instant_eq m ▸ (dependsOnPass_eq_false_iff.1 h).shown_iff hz m.wall.pass t

/-- Such a moment is shown. -/
theorem isReal_of_settled (hz : m.zone.IsOrderly) (h : m.dependsOnPass = false) : m.IsReal := by
  have hread := shown_iff_of_settled hz h m.instant
  unfold IsReal
  omega

/-- A moment in the first pass of what is shown is before all that is no earlier on the wall. -/
theorem pass_eq_second (hm : m.IsReal) (hz : m.zone.IsOrderly) {t : Int} (ht : t < m.instant)
    (hle : m.wall.count ≤ m.zone.shown t) : m.wall.pass = .second := by
  rw [IsReal, instant_eq] at hm
  rw [instant_eq] at ht
  cases hpass : m.wall.pass with
  | second => rfl
  | first =>
    rw [hpass] at hm ht
    have := hz.shown_lt_of_first hm ht
    omega

/-- A moment in the second pass of what is shown is after all that is no later on the wall. -/
theorem pass_eq_first (hm : m.IsReal) (hz : m.zone.IsOrderly) {t : Int} (ht : m.instant < t)
    (hle : m.zone.shown t ≤ m.wall.count) : m.wall.pass = .first := by
  rw [IsReal, instant_eq] at hm
  rw [instant_eq] at ht
  cases hpass : m.wall.pass with
  | first => rfl
  | second =>
    rw [hpass] at hm ht
    have := hz.lt_shown_of_second hm ht
    omega

/-- **Of two shown moments of one zone one that is no earlier on the wall is no earlier in time**,
unless they cross. -/
theorem instant_le_or_crosses (hz : n.zone.IsOrderly) (hzone : m.zone = n.zone) (hm : m.IsReal)
    (hn : n.IsReal) (hle : m.wall.count ≤ n.wall.count) :
    m.instant ≤ n.instant ∨ m.Crosses n := by
  refine Decidable.or_iff_not_imp_left.2 fun hnot => ?_
  have hlater : n.instant < m.instant := Int.not_le.1 hnot
  have hshown : m.zone.shown n.instant = n.wall.count := by rw [hzone, hn]
  have hshown' : n.zone.shown m.instant = m.wall.count := by rw [← hzone, hm]
  refine ⟨pass_eq_second hm (hzone ▸ hz) hlater (by omega), pass_eq_first hn hz hlater (by omega),
    Bool.not_eq_false _ ▸ fun hsettled => ?_, Bool.not_eq_false _ ▸ fun hsettled => ?_⟩
  · have := shown_iff_of_settled (hzone ▸ hz) hsettled n.instant
    omega
  · have := shown_iff_of_settled hz hsettled m.instant
    omega

/-- **Moments of one zone at one wall time are one instant**, unless they are in different passes of
a repeated or skipped hour. -/
theorem instant_eq_or_of_count (hzone : m.zone = n.zone) (hcount : m.wall.count = n.wall.count) :
    m.instant = n.instant ∨ (m.wall.pass ≠ n.wall.pass ∧ n.dependsOnPass = true) := by
  refine Decidable.or_iff_not_imp_left.2 fun hne => ?_
  rw [instant_eq m, instant_eq n, hzone, hcount] at hne
  refine ⟨fun hpass => hne (by rw [hpass]), Bool.not_eq_false _ ▸ fun hsettled => hne ?_⟩
  have hsame := dependsOnPass_eq_false_iff.1 hsettled
  unfold Zone.IsSettled at hsame
  unfold Zone.readAt
  cases m.wall.pass <;> cases n.wall.pass <;> simp [hsame]

end Moment

end RecurringEvents
