import RecurringEvents.Proofs.Expansion.Universal
import RecurringEvents.Proofs.Moment.WallClock
import RecurringEvents.Proofs.Moment.Writing

/-!
# Localized wall times

A wall time of the first pass that a zone shows is localized as it is, with the offset of the first
instant at which it is shown. One that the zone skips comes later by the length of its gap, with the
offset that holds after the gap. What comes of it is in the first pass, is found again from its
instant, and is localized as it is. Only the hour at Nuuk that is read early is localized an hour
too early.

* `Turn.passAt_first`, `Zone.IsOrderly.passAt_readAt_first`: the first pass stays the first pass.
* `Moment.localize_of_localize`: what is localized once is localized as it is.
* `Moment.IsLocalized`: what localizing should come to.
* `Moment.eq_of_localize`, `Moment.later_of_localize`: what is shown, and what is skipped.
* `Moment.localize_first`: when it comes to what it should.
-/

namespace RecurringEvents

/-! ## The first pass -/

/-- What is read in the first pass is shown no earlier on the wall. -/
theorem Turn.le_shown_first (c : Turn) (s : Int) :
    s ≤ s - c.offsetFor .first s + c.offsetAt (s - c.offsetFor .first s) := by
  simp only [offsetAt, offsetFor, wallStart]
  omega

/-- What is read in the first pass is shown in the first pass. -/
theorem Turn.passAt_first (c : Turn) (s : Int) : c.passAt (s - c.offsetFor .first s) = .first := by
  by_cases hlt : s < c.wallStart .first
  · rw [offsetFor, if_pos hlt]
    simp only [wallStart] at hlt
    exact if_neg (by omega)
  · rw [offsetFor, if_neg hlt]
    simp only [wallStart] at hlt
    exact if_neg (by omega)

/-- In an orderly zone as well. -/
theorem Zone.IsOrderly.passAt_readAt_first {z : Zone} (hz : z.IsOrderly) (n : Int) :
    z.passAt (z.readAt .first n) = .first := by
  cases z with
  | fixed o => rfl
  | region r =>
    have hsecond : ∀ o, (n - o * secondMicros) / secondMicros = n / secondMicros - o := by
      intro o
      simp only [secondMicros]
      omega
    rw [readAt, passAt, offsetFor, hsecond]
    rcases Region.exists_fits_or_reset hz (n / secondMicros) with ⟨c, hc⟩ | ⟨rfl, h1, h2⟩
    · have hfor := hc.small.offsetFor_lt .first (n / secondMicros)
      rw [hc.offsetFor, hc.passAt _ (by omega) (by omega) (c.le_shown_first _)]
      exact c.passAt_first _
    · rw [Region.nuuk_localType .first (by omega) (by omega)]
      split
      · next hreset =>
        rw [(Region.nuuk_typeAt (by omega) (by omega)).2]
        exact if_neg (by omega)
      · next hreset =>
        rw [(Region.nuuk_typeAt (by omega) (by omega)).2]
        exact if_neg fun h => hreset ⟨rfl, by omega, by omega⟩

namespace Moment

variable {z : Zone} {w : Wall} {m : Moment}

/-- The offset of a real moment is the one that its zone has at the instant. -/
theorem IsReal.offset_eq (h : m.IsReal) : m.offset = m.zone.offsetAt m.instant := by
  have hread : m.zone.shown m.instant = m.wall.count := h
  rw [Zone.shown, instant] at hread
  rw [instant]
  simp only [secondMicros] at *
  omega

/-- **What is localized once is localized as it is**, whatever its pass. -/
theorem localize_of_localize (hz : z.IsOrderly) (h : localize w z = .ok m) :
    localize m.wall z = .ok m := by
  obtain ⟨rfl, hinstant, -⟩ := of_localize hz h
  by_cases hutc : m.zone = .utc
  · rw [hutc, localize_utc, ← hutc]
  · rw [localize_of_ne_utc hutc] at h ⊢
    rw [← instant_eq, hinstant, h]

/-- What is localized from the first pass is in the first pass. -/
theorem pass_of_localize (hz : z.IsOrderly) (hw : w.pass = .first) (h : localize w z = .ok m) :
    m.wall.pass = .first := by
  by_cases hutc : z = .utc
  · rw [hutc, localize_utc] at h
    cases h
    exact hw
  · rw [localize_of_ne_utc hutc, hw] at h
    exact (Zone.atInstant_eq_ok_iff.1 h).2.2.2.trans (hz.passAt_readAt_first _)

/-! ## What localizing comes to -/

/-- What a wall time of the first pass should be localized to. -/
structure IsLocalized (z : Zone) (w : Wall) (m : Moment) : Prop where
  /-- What the zone shows stays, with the offset of the first instant at which it is shown. -/
  shown : z.Shows w.count → m.wall = w ∧
    ∃ t, z.shown t = w.count ∧ z.IsFirst t ∧ m.offset = z.offsetAt t
  /-- What the zone skips comes later by the length of the gap, with the offset that the clock has
  from the instant `t` on, at which it is set forward over the gap. -/
  skipped : ¬z.Shows w.count → ∃ lo hi t, z.IsGap lo hi ∧ lo ≤ w.count ∧ w.count < hi ∧
    z.shown (t - 1) = lo - 1 ∧ z.shown t = hi ∧
    m.wall.count = w.count + (hi - lo) ∧ m.wall.pass = .first ∧ m.offset = z.offsetAt t

/-- A wall time that comes back as it was has the offset of the first instant that shows it. -/
theorem eq_of_localize (hz : z.IsOrderly) (hw : w.pass = .first) (h : localize w z = .ok m)
    (hback : z.shown (z.readAt .first w.count) = w.count) :
    m.wall = w ∧ ∃ t, z.shown t = w.count ∧ z.IsFirst t ∧ m.offset = z.offsetAt t := by
  obtain ⟨hzone, hinstant, hreal⟩ := of_localize hz h
  have hoffset := hreal.offset_eq
  rw [IsReal, hzone, hinstant, hw, hback] at hreal
  rw [hzone, hinstant, hw] at hoffset
  refine ⟨Wall.eq_of_count_of_pass hreal.symm ((pass_of_localize hz hw h).trans hw.symm), _, hback,
    fun t ht => ?_, hoffset⟩
  have := hz.shown_lt_of_first hback ht
  omega

/-- A wall time that a region skips comes later by the length of the gap. -/
theorem later_of_localize {r : Region} (hr : r.IsOrderly) (hw : w.pass = .first)
    (h : localize w (.region r) = .ok m) (hn : ¬(Zone.region r).Shows w.count) :
    ∃ lo hi t, (Zone.region r).IsGap lo hi ∧ lo ≤ w.count ∧ w.count < hi ∧
      (Zone.region r).shown (t - 1) = lo - 1 ∧ (Zone.region r).shown t = hi ∧
      m.wall.count = w.count + (hi - lo) ∧ m.wall.pass = .first ∧
      m.offset = (Zone.region r).offsetAt t := by
  have hknown : (Zone.region r).IsOrderly := hr
  obtain ⟨hzone, hinstant, hreal⟩ := of_localize hknown h
  have hoffset := hreal.offset_eq
  rw [IsReal, hzone, hinstant, hw] at hreal
  rw [hzone, hinstant, hw] at hoffset
  obtain ⟨t, before, after, hskip⟩ := Region.exists_isSkippedAt hr hn
  have hsecond : (t * secondMicros - 1) / secondMicros = t - 1 ∧
      t * secondMicros / secondMicros = t := by
    simp only [secondMicros]
    omega
  have hold : (Zone.region r).offsetAt (t * secondMicros - 1) = before := by
    rw [Zone.offsetAt, hsecond.1]
    exact hskip.old
  have hnew : (Zone.region r).offsetAt (t * secondMicros) = after := by
    rw [Zone.offsetAt, hsecond.2]
    exact hskip.new
  refine ⟨_, _, t * secondMicros, hskip.isGap hr, hskip.start_le, hskip.lt_finish, ?_, ?_, ?_,
    pass_of_localize hknown hw h, ?_⟩
  · rw [Zone.shown, hold]
    simp only [secondMicros]
    omega
  · rw [Zone.shown, hnew]
    simp only [secondMicros]
    omega
  · rw [← hreal, Zone.shown, hskip.first.2, Zone.readAt, hskip.first.1]
    simp only [secondMicros]
    omega
  · rw [hoffset, hskip.first.2, hnew]

/-- **A wall time of the first pass is localized as it should be, apart from the hour at Nuuk**, and
there it is not. -/
theorem isLocalized_iff (hz : z.IsOrderly) (hw : w.pass = .first) (h : localize w z = .ok m) :
    IsLocalized z w m ↔ ¬IsMisread ⟨w, z⟩ := by
  constructor
  · rintro hgood ⟨r, rfl, hreset⟩
    -- the zone shows the wall time, but the moment is real at another one
    obtain ⟨hn, hearly⟩ := Region.shown_readAt_of_nuuk hreset
    obtain ⟨hzone, hinstant, hreal⟩ := of_localize hz h
    have hcount := congrArg Wall.count (hgood.shown hn).1
    rw [← hreal, hzone, hinstant, hearly] at hcount
    simp only [secondMicros] at hcount
    omega
  · intro hclear
    cases z with
    | fixed o =>
      refine ⟨fun _ => eq_of_localize hz hw h ?_, fun hn => absurd (Zone.shows_fixed o _) hn⟩
      simp only [Zone.shown, Zone.readAt, Zone.offsetAt, Zone.offsetFor]
      omega
    | region r =>
      have hreset : ¬r.IsResetHour .first (w.count / secondMicros) := fun hreset =>
        hclear ⟨r, rfl, hw ▸ hreset⟩
      exact ⟨fun hn => eq_of_localize hz hw h (Region.shown_readAt_of_shows hz hn hreset),
        later_of_localize hz hw h⟩

/-- **Localized wall times.** A wall time of the first pass is localized if its instant and what the
zone shows then are in the calendar, and what comes of it is what it should be, apart from the hour
at Nuuk. Always it is found again from its instant in UTC, is in the first pass and is localized as
it is. -/
theorem localize_first (hz : z.IsOrderly) (hw : w.pass = .first) :
    ((∃ m, localize w z = .ok m) ↔
      InCalendar (z.readAt .first w.count) ∧ InCalendar (z.shown (z.readAt .first w.count))) ∧
    ∀ m, localize w z = .ok m → m.zone = z ∧ (IsLocalized z w m ↔ ¬IsMisread ⟨w, z⟩) ∧
      (∃ u, m.inUtc = .ok u ∧ u.inZone z = .ok m) ∧ m.wall.pass = .first ∧
      localize m.wall z = .ok m := by
  refine ⟨hw ▸ exists_localize_iff, fun m hm => ?_⟩
  have hzone := (of_localize hz hm).1
  have hsame := localize_of_localize hz hm
  refine ⟨hzone, isLocalized_iff hz hw hm, ?_, pass_of_localize hz hw hm, hsame⟩
  obtain ⟨u, hu, hback⟩ := bind_eq_ok_iff.1 hsame
  rw [← hzone] at hu
  exact ⟨u, hu, hback⟩

/-- Half past one is skipped in London on the last Sunday of March and comes an hour later, in
summer time. -/
theorem springNight_localized :
    ¬(Zone.region .london).Shows (Wall.ofMinutes (.near 2025 3 30) 90).count ∧
    ∃ m, localize (Wall.ofMinutes (.near 2025 3 30) 90) (.region .london) = .ok m ∧
      IsLocalized (.region .london) (Wall.ofMinutes (.near 2025 3 30) 90) m ∧
      m.wall = Wall.ofMinutes (.near 2025 3 30) 150 ∧ m.offset = 3600 := by
  have hknown : (Zone.region .london).IsOrderly := by decide +kernel
  have hlondon : ∀ pass s, ¬Region.london.IsResetHour pass s := fun pass s h =>
    absurd (congrArg Region.name h.1) (by decide)
  have hclear : ∀ w, ¬IsMisread ⟨w, .region .london⟩ := by
    rintro w ⟨r, hr, hreset⟩
    cases hr
    exact hlondon _ _ hreset
  obtain ⟨hrange, hall⟩ := localize_first (w := Wall.ofMinutes (.near 2025 3 30) 90) hknown rfl
  obtain ⟨m, hm⟩ := hrange.2 ⟨by decide +kernel, by decide +kernel⟩
  obtain ⟨hzone, hgood, -, hpass, -⟩ := hall m hm
  obtain ⟨-, hinstant, hreal⟩ := of_localize hknown hm
  have hoffset := hreal.offset_eq
  rw [IsReal, hzone, hinstant] at hreal
  rw [hzone, hinstant] at hoffset
  refine ⟨fun hn => ?_, m, hm, hgood.2 (hclear _), ?_, hoffset.trans (by decide +kernel)⟩
  · -- what is shown would be read back
    exact absurd (Region.shown_readAt_of_shows hknown hn (hlondon .first _)) (by decide +kernel)
  · exact Wall.eq_of_count_of_pass (hreal.symm.trans (by decide +kernel)) hpass

/-- Nuuk shows half past eleven in the evening on this day, but what is localized is an hour
earlier. The changes of its clock are far apart. -/
theorem nuukEvening_localized : Region.nuuk.IsWellSpaced ∧
    (Zone.region .nuuk).Shows (Wall.ofMinutes (.near 2023 10 28) 1410).count ∧
    localize (Wall.ofMinutes (.near 2023 10 28) 1410) (.region .nuuk)
      = .ok ⟨Wall.ofMinutes (.near 2023 10 28) 1350, .region .nuuk⟩ := by
  refine ⟨Region.nuuk_isWellSpaced, ⟨1698543000000000, by decide +kernel⟩, ?_⟩
  rw [localize_region]
  exact Zone.atInstant_eq_ok_iff.2 ⟨by decide +kernel, rfl, by decide +kernel, by decide +kernel⟩

end Moment

end RecurringEvents
