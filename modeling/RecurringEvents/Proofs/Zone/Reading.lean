import RecurringEvents.Moment
import RecurringEvents.Proofs.Outcome
import RecurringEvents.Proofs.Zone.Sound

/-!
# Reading the wall of a zone

What a zone shows at an instant and which instant its wall is read as, in microseconds and for all
whole numbers, also beyond the years 1 to 9999. Moments are then found exactly where the years
allow it.

* `atInstant_eq_ok_iff`: when a moment is found for an instant.
* `IsOrderly.readAt_shown`: what is shown is read back.
* `IsOrderly.readAt_le_of_days`: a wall time on a later day is read as no earlier instant.
* `Moment.of_localize`: a localized wall time keeps its instant, at which the wall shows it.
* `Moment.instant_le_of_localize`: wall times at one time of day keep their order.
-/

namespace RecurringEvents

namespace Zone

/-- The offset at an instant, in seconds. -/
def offsetAt (z : Zone) (t : Int) : Int :=
  match z with
  | fixed o => o
  | region r => (r.clock.typeAt (t / secondMicros)).1.offset

/-- The pass of the wall time that is shown at an instant. -/
def passAt (z : Zone) (t : Int) : Pass :=
  match z with
  | fixed _ => .first
  | region r => (r.clock.typeAt (t / secondMicros)).2

/-- The count of the wall time that is shown at an instant. -/
def shown (z : Zone) (t : Int) : Int := t + z.offsetAt t * secondMicros

/-- The offset that a wall time is read with, in seconds. -/
def offsetFor (z : Zone) (pass : Pass) (n : Int) : Int :=
  match z with
  | fixed o => o
  | region r => (r.clock.localType pass (n / secondMicros)).offset

/-- The instant that the wall time with a count is read as. -/
def readAt (z : Zone) (pass : Pass) (n : Int) : Int := n - z.offsetFor pass n * secondMicros

/-- Whether a zone is orderly: an offset of less than a day, or an orderly region. -/
def IsOrderly : Zone → Prop
  | fixed o => -86400 < o ∧ o < 86400
  | region r => r.IsOrderly

instance : (z : Zone) → Decidable z.IsOrderly
  | fixed _ => inferInstanceAs (Decidable (_ ∧ _))
  | region r => inferInstanceAs (Decidable r.IsOrderly)

theorem isOrderly_utc : utc.IsOrderly := by decide

theorem offsetOf_eq (z : Zone) (w : Wall) : z.offsetOf w = z.offsetFor w.pass w.count := by
  cases z with
  | fixed o => rfl
  | region r =>
    simp only [offsetOf, offsetFor, Region.clock, w.year_eq_yearOfSecond, Wall.seconds]

theorem wallOf?_eq (z : Zone) {u : Wall} :
    z.wallOf? u = (Wall.ofCount? (z.shown u.count)).map
      fun w => { w with pass := z.passAt u.count } := by
  cases z with
  | fixed o =>
    simp only [wallOf?, shown, offsetAt, passAt]
    cases h : Wall.ofCount? (u.count + o * secondMicros) with
    | none => rfl
    | some w =>
      have hp := (Wall.count_of_ofCount? h).2
      simp only [Option.map_some, Option.some.injEq]
      cases w
      exact congrArg _ hp
  | region r =>
    simp only [wallOf?, shown, offsetAt, passAt, Region.clock, u.year_eq_yearOfSecond, Wall.seconds]

/-- The moment at an instant shows what its zone shows, if instant and wall time are in range. -/
theorem atInstant_eq_ok_iff {z : Zone} {t : Int} {m : Moment} :
    z.atInstant t = .ok m ↔ (Wall.firstCount ≤ t ∧ t < Wall.endCount) ∧ m.zone = z ∧
      m.wall.count = z.shown t ∧ m.wall.pass = z.passAt t := by
  constructor
  · intro h
    unfold atInstant at h
    split at h
    · next w hw =>
      obtain ⟨u, hu, hz⟩ := Option.bind_eq_some_iff.1 hw
      obtain ⟨rfl, -⟩ := Wall.count_of_ofCount? hu
      rw [wallOf?_eq] at hz
      obtain ⟨v, hv, rfl⟩ := Option.map_eq_some_iff.1 hz
      cases h
      exact ⟨⟨u.firstCount_le, u.count_lt⟩, rfl, (Wall.count_of_ofCount? hv).1, rfl⟩
    · cases h
  · rintro ⟨⟨h1, h2⟩, rfl, hc, hp⟩
    obtain ⟨u, hu⟩ := Wall.exists_ofCount? h1 h2
    have ht := (Wall.count_of_ofCount? hu).1
    obtain ⟨w, zone⟩ := m
    simp only at hc hp
    unfold atInstant
    rw [hu, Option.bind_some, wallOf?_eq, ht, ← hc, Wall.ofCount?_count, Option.map_some, ← hp]

/-- No moment is found for an instant that is out of range. -/
theorem atInstant_of_none {z : Zone} {t : Int} (h : Wall.ofCount? t = none) :
    z.atInstant t = .error .outOfRange := by
  unfold atInstant
  rw [h, Option.bind_none]

/-- A moment is found when instant and wall time are in range. -/
theorem exists_atInstant (z : Zone) {t : Int} (h1 : Wall.firstCount ≤ t) (h2 : t < Wall.endCount)
    (h3 : Wall.firstCount ≤ z.shown t) (h4 : z.shown t < Wall.endCount) :
    ∃ m, z.atInstant t = .ok m := by
  obtain ⟨w, hw⟩ := Wall.exists_ofCount? h3 h4
  have hc := (Wall.count_of_ofCount? hw).1
  exact ⟨⟨{ w with pass := z.passAt t }, z⟩, atInstant_eq_ok_iff.2 ⟨⟨h1, h2⟩, rfl, hc, rfl⟩⟩

namespace IsOrderly

variable {z : Zone}

theorem offsetAt_lt (h : z.IsOrderly) (t : Int) : -86400 < z.offsetAt t ∧ z.offsetAt t < 86400 := by
  cases z with
  | fixed o => exact h
  | region r => exact (Region.soundAt h _).offset_lt

theorem offsetFor_lt (h : z.IsOrderly) (pass : Pass) (n : Int) :
    -86400 < z.offsetFor pass n ∧ z.offsetFor pass n < 86400 := by
  cases z with
  | fixed o => exact h
  | region r => exact (Region.soundAt h _).read_lt pass

/-- A zone shows less than a day before or after the instant. -/
theorem shown_near (h : z.IsOrderly) (t : Int) :
    t - dayMicros < z.shown t ∧ z.shown t < t + dayMicros := by
  have := h.offsetAt_lt t
  simp only [shown, dayMicros, secondMicros]
  omega

/-- The wall of a zone is read as less than a day before or after what it shows. -/
theorem readAt_near (h : z.IsOrderly) (pass : Pass) (n : Int) :
    n - dayMicros < z.readAt pass n ∧ z.readAt pass n < n + dayMicros := by
  have := h.offsetFor_lt pass n
  simp only [readAt, dayMicros, secondMicros]
  omega

/-- What a zone shows at an instant is read as this instant. -/
theorem readAt_shown (h : z.IsOrderly) (t : Int) : z.readAt (z.passAt t) (z.shown t) = t := by
  have hsame : z.offsetFor (z.passAt t) (z.shown t) = z.offsetAt t := by
    cases z with
    | fixed o => rfl
    | region r =>
      have hs : ∀ o : Int, (t + o * secondMicros) / secondMicros = t / secondMicros + o := by
        intro o
        simp only [secondMicros]
        omega
      simp only [offsetFor, passAt, shown, offsetAt, hs]
      exact (Region.soundAt h _).read_back
  rw [readAt, hsame, shown]
  omega

/-- A day later on the wall is read as no earlier instant, whatever the passes. -/
theorem readAt_le_next_day (h : z.IsOrderly) (p q : Pass) (n : Int) :
    z.readAt p n ≤ z.readAt q (n + dayMicros) := by
  have hnext : z.offsetFor q (n + dayMicros) ≤ z.offsetFor p n + 86400 := by
    cases z with
    | fixed o =>
      simp only [offsetFor]
      omega
    | region r =>
      have hs : (n + dayMicros) / secondMicros = n / secondMicros + 86400 := by
        simp only [secondMicros, dayMicros]
        omega
      simp only [offsetFor, hs]
      exact (Region.soundAt h _).next_day p q
  simp only [readAt, dayMicros, secondMicros] at *
  omega

/-- **A wall time at the same time of day on a later day is read as no earlier instant.** -/
theorem readAt_le_of_days (h : z.IsOrderly) (p q : Pass) (n : Int) (days : Nat) :
    z.readAt p n ≤ z.readAt q (n + (days + 1) * dayMicros) := by
  induction days generalizing q with
  | zero => simpa using h.readAt_le_next_day p q n
  | succ days ih =>
    refine Int.le_trans (ih p) ?_
    rw [show n + (((days + 1 : Nat) : Int) + 1) * dayMicros
      = n + ((days : Int) + 1) * dayMicros + dayMicros by simp only [dayMicros]; omega]
    exact h.readAt_le_next_day p q _

end IsOrderly

end Zone

namespace Moment

theorem instant_eq (m : Moment) : m.instant = m.zone.readAt m.wall.pass m.wall.count := by
  rw [instant, offset, Zone.offsetOf_eq, Zone.readAt]

/-- A moment that is found for an instant has this instant. -/
theorem instant_of_atInstant {z : Zone} (hz : z.IsOrderly) {t : Int} {m : Moment}
    (h : z.atInstant t = .ok m) : m.instant = t := by
  obtain ⟨-, rfl, hc, hp⟩ := Zone.atInstant_eq_ok_iff.1 h
  rw [instant_eq, hc, hp, hz.readAt_shown]

/-- A moment keeps its instant when the zone is changed. -/
theorem instant_of_inZone {z : Zone} (hz : z.IsOrderly) {m n : Moment} (h : m.inZone z = .ok n) :
    n.instant = m.instant := by
  unfold inZone at h
  split at h
  · cases h
    rfl
  · exact instant_of_atInstant hz h

theorem zone_of_inZone {z : Zone} {m n : Moment} (h : m.inZone z = .ok n) : n.zone = z := by
  unfold inZone at h
  split at h
  · next hm =>
    cases h
    exact hm.1
  · exact (Zone.atInstant_eq_ok_iff.1 h).2.1

/-- The moment of UTC is the wall time with the count of the instant. -/
theorem count_of_inUtc {m u : Moment} (h : m.inUtc = .ok u) :
    u.zone = .utc ∧ u.wall.count = m.instant := by
  have hz := zone_of_inZone h
  have hi := instant_of_inZone Zone.isOrderly_utc h
  refine ⟨hz, ?_⟩
  rw [← hi, instant_eq, hz]
  simp [Zone.readAt, Zone.utc, Zone.offsetFor]

/-- A wall time of another zone than UTC is localized by way of the instant that it is read as. -/
theorem localize_of_ne_utc {z : Zone} (hz : z ≠ .utc) (w : Wall) :
    localize w z = z.atInstant (z.readAt w.pass w.count) := by
  rw [← instant_eq ⟨w, z⟩]
  have hout : inUtc ⟨w, z⟩ = Zone.utc.atInstant (instant ⟨w, z⟩) := by
    unfold inUtc inZone
    exact if_neg fun h => hz h.1
  generalize instant ⟨w, z⟩ = t at hout ⊢
  cases ht : Wall.ofCount? t with
  | none =>
    rw [localize, hout, Zone.atInstant_of_none ht, Zone.atInstant_of_none ht]
    rfl
  | some v =>
    obtain ⟨rfl, hp⟩ := Wall.count_of_ofCount? ht
    have hutc : Zone.utc.atInstant v.count = .ok (ofUtc v) := by
      refine Zone.atInstant_eq_ok_iff.2 ⟨⟨v.firstCount_le, v.count_lt⟩, rfl, ?_, hp⟩
      simp [ofUtc, Zone.shown, Zone.utc, Zone.offsetAt]
    rw [localize, hout, hutc]
    show (ofUtc v).inZone z = _
    rw [inZone, if_neg fun h => hz h.1.symm, instant_ofUtc]

theorem localize_region (w : Wall) (r : Region) :
    localize w (.region r) = (Zone.region r).atInstant ((Zone.region r).readAt w.pass w.count) :=
  localize_of_ne_utc (by simp [Zone.utc]) w

/-- A wall time of UTC is left as it is. -/
theorem localize_utc (w : Wall) : localize w .utc = .ok ⟨w, .utc⟩ := by
  rw [localize, show inUtc ⟨w, .utc⟩ = .ok ⟨w, .utc⟩ from inUtc_ofUtc w]
  exact inUtc_ofUtc w

/-! ## Moments that are shown -/

/-- Whether the zone of a moment shows its wall time at its instant. A moment that is given at a
wall time that its zone skips is not real. -/
def IsReal (m : Moment) : Prop := m.zone.shown m.instant = m.wall.count

instance (m : Moment) : Decidable m.IsReal := inferInstanceAs (Decidable (_ = _))

variable {z : Zone} {m n : Moment}

theorem isReal_of_fixed {o : Int} (h : m.zone = .fixed o) : m.IsReal := by
  rw [IsReal, instant_eq, h]
  simp only [Zone.shown, Zone.readAt, Zone.offsetAt, Zone.offsetFor]
  omega

/-- The moment that is found for an instant is real. -/
theorem isReal_of_atInstant (hz : z.IsOrderly) {t : Int} (h : z.atInstant t = .ok m) :
    m.IsReal := by
  obtain ⟨-, hzone, hcount, -⟩ := Zone.atInstant_eq_ok_iff.1 h
  rw [IsReal, instant_of_atInstant hz h, hzone, hcount]

/-- When the zone is changed, a moment becomes real. -/
theorem isReal_of_inZone (hz : z.IsOrderly) (h : m.inZone z = .ok n) (hm : m.zone = z → m.IsReal) :
    n.IsReal := by
  unfold inZone at h
  split at h
  · next hsame =>
    cases h
    exact hm hsame.1
  · exact isReal_of_atInstant hz h

/-- Real moments of one zone have the same wall time if they have the same instant. -/
theorem IsReal.count_eq (hm : m.IsReal) (hn : n.IsReal) (hz : m.zone = n.zone)
    (ht : m.instant = n.instant) : m.wall.count = n.wall.count := by
  rw [← hm, ← hn, hz, ht]

/-- **A localized wall time is real and keeps the instant that it is read as.** -/
theorem of_localize (hz : z.IsOrderly) {w : Wall} (h : localize w z = .ok m) :
    m.zone = z ∧ m.instant = z.readAt w.pass w.count ∧ m.IsReal := by
  obtain ⟨u, hu, hm⟩ := bind_eq_ok_iff.1 h
  have hzone := zone_of_inZone hm
  refine ⟨hzone, ?_, isReal_of_inZone hz hm fun _ => ?_⟩
  · rw [instant_of_inZone hz hm, instant_of_inZone Zone.isOrderly_utc hu, instant_eq]
  · exact isReal_of_fixed (zone_of_inZone hu)

/-- **Wall times at one time of day are localized to instants in their order.** -/
theorem instant_le_of_localize (hz : z.IsOrderly) {v w : Wall} (htime : v.time = w.time)
    (hlt : v.date.dayNumber < w.date.dayNumber) (hm : localize v z = .ok m)
    (hn : localize w z = .ok n) : m.instant ≤ n.instant := by
  obtain ⟨days, hdays⟩ := Wall.exists_days htime hlt
  rw [(of_localize hz hm).2.1, (of_localize hz hn).2.1, hdays]
  exact hz.readAt_le_of_days v.pass w.pass v.count days

end Moment

end RecurringEvents
