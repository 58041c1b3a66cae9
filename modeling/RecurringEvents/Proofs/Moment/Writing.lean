import RecurringEvents.Proofs.Moment.Passes

/-!
# Ways to write an instant

An instant can be written in any zone. A wall time that a zone shows, in the second pass only if it
is repeated, is what the zone writes for the instant that it is read as. So a moment is the same in
a zone whichever way its instant is written, also if it is written in this very zone and left as it
is. In the hour that is read early at Nuuk this fails: there the wall time goes back by an hour when
it is written anew.

* `Moment.IsExisting`, `Moment.IsMisread`: what is shown, and the hour at Nuuk.
* `Moment.IsReal.passAt_instant`: a zone has one way to write an instant.
* `Moment.inZone_congr`: in a zone it does not matter how an instant was written.
-/

namespace RecurringEvents

/-- Wall times with one count and one pass are the same. -/
theorem Wall.eq_of_count_of_pass {v w : Wall} (hcount : v.count = w.count)
    (hpass : v.pass = w.pass) : v = w := by
  obtain ⟨hdate, htime⟩ := eq_of_count_eq hcount
  obtain ⟨date, time, pass⟩ := v
  obtain ⟨date', time', pass'⟩ := w
  dsimp only at hdate htime hpass
  rw [hdate, htime, hpass]

/-- **What an orderly zone shows in the second pass depends on the pass.** -/
theorem Zone.IsOrderly.not_isSettled_of_second {z : Zone} (hz : z.IsOrderly) {t : Int}
    (h : z.passAt t = .second) : ¬z.IsSettled (z.shown t) := by
  cases z with
  | fixed o => cases h
  | region r =>
    have happart := Region.tellsApart hz (t / secondMicros) h
    have hseconds : (Zone.region r).shown t / secondMicros
        = t / secondMicros + (r.clock.typeAt (t / secondMicros)).1.offset := by
      simp only [Zone.shown, Zone.offsetAt, secondMicros]
      omega
    rw [IsSettled, offsetFor, offsetFor, hseconds]
    exact happart

namespace Moment

variable {m n : Moment} {z : Zone}

/-- Whether a wall time exists in its zone as it is written: the zone shows it, and the second pass
is only given if there is one. -/
structure IsExisting (m : Moment) : Prop where
  shown : m.zone.Shows m.wall.count
  second : m.wall.pass = .second → m.dependsOnPass = true

/-- Whether a moment is in the hour at Nuuk that is read early. -/
def IsMisread (m : Moment) : Prop :=
  ∃ r, m.zone = .region r ∧ r.IsResetHour m.wall.pass (m.wall.count / secondMicros)

/-- What exists is shown at the instant that it is read as, apart from the hour at Nuuk. -/
theorem IsExisting.isReal (hm : m.IsExisting) (hz : m.zone.IsOrderly) (hclear : ¬m.IsMisread) :
    m.IsReal := by
  cases hzone : m.zone with
  | fixed o => exact isReal_of_fixed hzone
  | region r =>
    have hshown := hm.shown
    rw [hzone] at hz hshown
    rw [IsReal, instant_eq, hzone]
    exact Region.shown_readAt_of_shows hz hshown fun hreset => hclear ⟨r, hzone, hreset⟩

/-- **A zone has one way to write an instant.** A real moment has the pass in which its zone shows
the instant, if it has the second pass only where this makes a difference. -/
theorem IsReal.passAt_instant (hm : m.IsReal) (hz : m.zone.IsOrderly)
    (hsecond : m.wall.pass = .second → m.dependsOnPass = true) :
    m.zone.passAt m.instant = m.wall.pass := by
  have hread : m.zone.readAt (m.zone.passAt m.instant) m.wall.count
      = m.zone.readAt m.wall.pass m.wall.count := by
    rw [← instant_eq, ← hm, hz.readAt_shown]
  have hoffset : m.zone.offsetFor (m.zone.passAt m.instant) m.wall.count
      = m.zone.offsetFor m.wall.pass m.wall.count := by
    simp only [Zone.readAt, secondMicros] at hread
    omega
  cases hat : m.zone.passAt m.instant with
  | first =>
    cases hpass : m.wall.pass with
    | first => rfl
    | second =>
      have hsettled : m.zone.IsSettled m.wall.count := by rwa [hat, hpass] at hoffset
      have hdepends := hsecond hpass
      rw [dependsOnPass_eq_false_iff.2 hsettled] at hdepends
      cases hdepends
  | second =>
    cases hpass : m.wall.pass with
    | second => rfl
    | first =>
      have hsettled : m.zone.IsSettled m.wall.count := by
        rw [hat, hpass] at hoffset
        exact hoffset.symm
      rw [← hm] at hsettled
      exact absurd hsettled (hz.not_isSettled_of_second hat)

/-- **What exists is written anew as it is.** In its own zone as well, a moment is the one that the
zone writes for its instant. -/
theorem inZone_of_isExisting (hz : z.IsOrderly) (hm : m.zone = z → m.IsExisting)
    (hclear : ¬(m.zone = z ∧ m.IsMisread))
    (hrange : Wall.firstCount ≤ m.instant ∧ m.instant < Wall.endCount) :
    m.inZone z = z.atInstant m.instant := by
  unfold inZone
  split
  · next hown =>
    obtain ⟨rfl, -⟩ := hown
    have hexists := hm rfl
    have hreal := hexists.isReal hz fun hmisread => hclear ⟨rfl, hmisread⟩
    exact (Zone.atInstant_eq_ok_iff.2 ⟨hrange, rfl, hreal.symm,
      (hreal.passAt_instant hz hexists.second).symm⟩).symm
  · rfl

/-- A moment in the hour at Nuuk is shown an hour earlier. -/
theorem IsMisread.shown (h : m.IsMisread) :
    m.wall.pass = .first ∧ m.zone.shown m.instant = m.wall.count - 3600 * secondMicros := by
  obtain ⟨r, hzone, hreset⟩ := h
  rw [instant_eq, hzone]
  exact ⟨hreset.2.1, (Region.shown_readAt_of_nuuk hreset).2⟩

/-- So there is one way to write an instant in that hour. -/
theorem IsMisread.eq (hm : m.IsMisread) (hn : n.IsMisread) (hzone : m.zone = n.zone)
    (hsame : m.instant = n.instant) : m = n := by
  obtain ⟨hmpass, hmshown⟩ := hm.shown
  obtain ⟨hnpass, hnshown⟩ := hn.shown
  rw [hzone, hsame] at hmshown
  have hwall : m.wall = n.wall := Wall.eq_of_count_of_pass (by omega) (hmpass.trans hnpass.symm)
  obtain ⟨mwall, mzone⟩ := m
  obtain ⟨nwall, nzone⟩ := n
  dsimp only at hzone hwall
  rw [hzone, hwall]

/-- **Two ways to write an instant are one moment of a zone**, unless only one of them is in the
hour at Nuuk. -/
theorem inZone_congr (hz : z.IsOrderly) (hm : m.zone = z → m.IsExisting)
    (hn : n.zone = z → n.IsExisting)
    (hboth : (m.zone = z ∧ m.IsMisread) ↔ (n.zone = z ∧ n.IsMisread))
    (hsame : m.instant = n.instant)
    (hrange : Wall.firstCount ≤ n.instant ∧ n.instant < Wall.endCount) :
    m.inZone z = n.inZone z := by
  by_cases hmisread : m.zone = z ∧ m.IsMisread
  · obtain ⟨hnzone, hnmisread⟩ := hboth.1 hmisread
    rw [hmisread.2.eq hnmisread (hmisread.1.trans hnzone.symm) hsame]
  · rw [inZone_of_isExisting hz hm hmisread (hsame ▸ hrange),
      inZone_of_isExisting hz hn (fun h => hmisread (hboth.2 h)) hrange, hsame]

end Moment

end RecurringEvents
