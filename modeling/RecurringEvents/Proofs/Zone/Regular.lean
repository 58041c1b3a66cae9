import RecurringEvents.Proofs.Zone.Season

/-!
# Regular regions

A region is regular if its listed changes are far apart, its schedule is regular, and the schedule
goes on where the latest listed change has left the clock. Its clock is then one turn at most around
every wall time.

* `exists_fits`: the clock of a regular region is one turn at most around every wall time.
-/

namespace RecurringEvents

namespace Schedule

variable {c : Turn} {p : Schedule}

/-- In the two days after the turn, the schedule shows its new offset, and repeats nothing but
what the turn does. -/
theorem Continues.typeAt (hp : p.IsRegular) (h : p.Continues c) {t : Int} (h1 : c.instant < t)
    (h2 : t ≤ c.instant + 172800) :
    (p.clock.typeAt t).1.offset = c.after ∧
      ((p.clock.typeAt t).2 = .first ∨ (p.clock.typeAt t).2 = c.passAt t) := by
  cases p with
  | steady type => exact ⟨h, Or.inl rfl⟩
  | seasonal s d starts ends =>
    obtain ⟨ha, hb, ho⟩ := h
    obtain ⟨hy1, hy2⟩ := yearOfSecond_bounds c.instant
    generalize yearOfSecond c.instant = y at *
    -- a turn of the year is over, or far ahead, or the turn itself
    have hpass : ∀ a : Turn, a.IsSmall → a.IsClearOf c →
        a.passAt t = .first ∨ a.passAt t = c.passAt t := by
      rintro a hs (rfl | hlt | hle)
      · exact Or.inr rfl
      · exact Or.inl (Turn.passAt_of_le (by have := hs.set_le; omega))
      · exact Or.inl (Turn.passAt_of_lt (by omega))
    have hside : ∀ a : Turn, a.IsClearOf c → (t < a.instant ↔ c.instant < a.instant) := by
      rintro a (rfl | hlt | hle) <;> omega
    simp only [clock]
    rw [typeAt_yearOfSecond hp (y := y) (by omega) (by omega), typeAt_seasonal,
      inSeason_congr (x := c.instant) Iff.rfl (hside _ ha) (hside _ hb)]
    refine ⟨ho, ?_⟩
    show (if 0 < d.offset - s.offset then _ else _) = Pass.first ∨
      (if 0 < d.offset - s.offset then _ else _) = c.passAt t
    split
    · exact hpass _ (yearlyTurn_isSmall hp.swap y) hb
    · exact hpass _ (yearlyTurn_isSmall hp y) ha

/-- From the turn on the wall, and up to a day after the turn, the schedule reads the new
offset. -/
theorem Continues.localType (hp : p.IsRegular) (h : p.Continues c) (hc : c.IsSmall) {pass : Pass}
    {t : Int} (h1 : c.wallStart pass < t) (h2 : t ≤ c.instant + 86400) :
    (p.clock.localType pass t).offset = c.after := by
  cases p with
  | steady type => exact h
  | seasonal s d starts ends =>
    obtain ⟨ha, hb, ho⟩ := h
    obtain ⟨hy1, hy2⟩ := yearOfSecond_bounds c.instant
    generalize yearOfSecond c.instant = y at *
    have hw := hc.wallStart_near pass
    have hab := turns_apart hp y
    have hs := (yearlyTurn_isSmall hp y).wallStart_near pass
    have hd := (yearlyTurn_isSmall hp.swap y).wallStart_near pass
    have hside : ∀ a : Turn, a.IsSmall → a.IsClearOf c →
        (t < a.wallStart pass ↔ c.instant < a.instant) := by
      intro a hsmall hclear
      have := hsmall.wallStart_near pass
      rcases hclear with rfl | hlt | hle <;> omega
    simp only [clock]
    rw [localType_yearOfSecond hp pass (y := y) (by omega) (by omega), localType_seasonal,
      inSeason_congr (x := c.instant) (by omega) (hside _ (yearlyTurn_isSmall hp y) ha)
        (hside _ (yearlyTurn_isSmall hp.swap y) hb)]
    exact ho

end Schedule

namespace Region

/-- The clock of a region. -/
def clock (r : Region) : Clock :=
  ⟨fun t => r.typeAt (yearOfSecond t) t, fun pass t => r.localType pass (yearOfSecond t) t⟩

variable {r : Region} {c : Change} {cs : List Change}

theorem clock_of_nil (h : r.changes = []) : r.clock = r.later.clock := by
  simp only [clock, Schedule.clock, typeAt, localType, h]

/-- Up to the latest listed change the instants are those of the list. -/
theorem typeAt_of_le (hr : r.changes = c :: cs) {t : Int} (ht : t ≤ c.start) :
    r.clock.typeAt t = (listedClock r.first (c :: cs)).typeAt t := by
  simp only [clock, typeAt, hr]
  exact if_neg (by omega)

/-- After the latest listed change the instants are those of the schedule, and a little longer the
clock repeats what it showed before the change. -/
theorem typeAt_of_lt (hr : r.changes = c :: cs) {t : Int} (ht : c.start < t) :
    r.clock.typeAt t = ((r.later.clock.typeAt t).1,
      if t - c.start < (typeAfter r.first cs).offset - (r.later.clock.typeAt t).1.offset
      then .second else (r.later.clock.typeAt t).2) := by
  simp only [clock, typeAt, hr]
  exact if_pos ht

/-- On the wall up to the latest listed change, the list is read. -/
theorem localType_of_le (hr : r.changes = c :: cs) {pass : Pass} {t : Int}
    (ht : t ≤ (turnOf r.first c cs).wallStart pass) :
    r.clock.localType pass t = (listedClock r.first (c :: cs)).localType pass t := by
  simp only [clock, localType, hr]
  rw [wallStart_eq]
  exact if_neg (by omega)

/-- On the wall after the latest listed change, the schedule is read. -/
theorem localType_of_lt (hr : r.changes = c :: cs) {pass : Pass} {t : Int}
    (ht : (turnOf r.first c cs).wallStart pass < t) :
    r.clock.localType pass t = r.later.clock.localType pass t := by
  simp only [clock, localType, hr]
  rw [wallStart_eq]
  exact if_pos ht

/-- More than a day before the latest listed change, a region is its list. -/
theorem exists_fits_before (h : r.IsWellSpaced) (hr : r.changes = c :: cs) {x : Int}
    (hx : x + 86400 < c.start) : ∃ d : Turn, d.Fits r.clock x := by
  have hs : IsSpaced r.first (c :: cs) := hr ▸ h.1
  obtain ⟨d, hd⟩ := exists_fits_listed hs x
  refine ⟨d, hd.small, fun t h1 h2 => ?_, fun t h1 h2 hw => ?_, fun pass => ?_⟩
  · rw [typeAt_of_le hr (by omega)]
    exact hd.offsetAt t h1 h2
  · rw [typeAt_of_le hr (by omega)]
    exact hd.passAt t h1 h2 hw
  · have hw : c.start - 86400 < (turnOf r.first c cs).wallStart pass :=
      (hs.turnOf_isSmall.wallStart_near pass).1
    rw [localType_of_le hr (by omega)]
    exact hd.offsetFor pass

/-- More than a day after the latest listed change, a region is its schedule. -/
theorem exists_fits_after (h : r.IsWellSpaced) (hr : r.changes = c :: cs) {x : Int}
    (hx : c.start + 86400 < x) : ∃ d : Turn, d.Fits r.clock x := by
  have hs : IsSpaced r.first (c :: cs) := hr ▸ h.1
  obtain ⟨d, hd⟩ := Schedule.exists_fits h.2 x
  refine ⟨d, hd.small, fun t h1 h2 => ?_, fun t h1 h2 hw => ?_, fun pass => ?_⟩
  · rw [typeAt_of_lt hr (by omega)]
    exact hd.offsetAt t h1 h2
  · -- the wall is past all that the latest change repeats
    have hold := hs.tail.typeAfter_lt
    have ho := hd.offsetAt t h1 h2
    rw [typeAt_of_lt hr (by omega), if_neg (by omega)]
    exact hd.passAt t h1 h2 hw
  · have hw : (turnOf r.first c cs).wallStart pass < c.start + 86400 :=
      (hs.turnOf_isSmall.wallStart_near pass).2
    rw [localType_of_lt hr (by omega)]
    exact hd.offsetFor pass

/-- Around the latest listed change of a regular region, its clock is the turn of the change. -/
theorem fits_turnOf (h : r.IsRegular) (hr : r.changes = c :: cs) {x : Int}
    (hx1 : c.start - 86400 ≤ x) (hx2 : x ≤ c.start + 86400) :
    (turnOf r.first c cs).Fits r.clock x := by
  have hs : IsSpaced r.first (c :: cs) := hr ▸ h.1.1
  have hsmall := hs.turnOf_isSmall
  have hc : r.later.Continues (turnOf r.first c cs) := by
    have := h.2
    rwa [hr] at this
  have hafter : ∀ t, c.start < t → t ≤ x + 86400 →
      (r.later.clock.typeAt t).1.offset = (turnOf r.first c cs).after ∧
        ((r.later.clock.typeAt t).2 = .first ∨
          (r.later.clock.typeAt t).2 = (turnOf r.first c cs).passAt t) :=
    fun t h1 h2 => hc.typeAt h.1.2 h1 (show t ≤ c.start + 172800 by omega)
  refine ⟨hsmall, fun t h1 h2 => ?_, fun t h1 h2 hw => ?_, fun pass => ?_⟩
  · by_cases ht : t ≤ c.start
    · rw [typeAt_of_le hr ht]
      exact listedAt_eq_turn (hs.before_le (by omega))
    · have hlt : (turnOf r.first c cs).instant < t := Int.not_le.1 ht
      rw [typeAt_of_lt hr hlt, Turn.offsetAt_of_le (Int.le_of_lt hlt)]
      exact (hafter t hlt h2).1
  · by_cases ht : t ≤ c.start
    · rw [typeAt_of_le hr ht]
      exact listedPassAt_eq_turn hs (hs.before_le (by omega)) (hs.settled_before (by omega))
    · have hlt : (turnOf r.first c cs).instant < t := Int.not_le.1 ht
      obtain ⟨ho, hp⟩ := hafter t hlt h2
      rw [typeAt_of_lt hr hlt, ho]
      by_cases hb : t < c.start + ((turnOf r.first c cs).before - (turnOf r.first c cs).after)
      · rw [Turn.passAt_of_repeated (Int.le_of_lt hlt) hb]
        exact if_pos (show t - c.start < (turnOf r.first c cs).before
          - (turnOf r.first c cs).after by omega)
      · rw [Turn.passAt_of_le (Int.not_lt.1 hb)] at hp ⊢
        refine (if_neg (show ¬t - c.start < (turnOf r.first c cs).before
          - (turnOf r.first c cs).after by omega)).trans ?_
        exact hp.elim id id
  · by_cases ht : x ≤ (turnOf r.first c cs).wallStart pass
    · rw [localType_of_le hr ht]
      exact listedFor_eq_turn hs pass (hs.settled_before (by omega))
    · rw [localType_of_lt hr (by omega), hc.localType h.1.2 hsmall (by omega) hx2]
      exact (if_neg (by omega)).symm

/-- **The clock of a regular region is one turn at most around every wall time.** -/
theorem exists_fits (h : r.IsRegular) (x : Int) : ∃ d : Turn, d.Fits r.clock x := by
  cases hr : r.changes with
  | nil =>
    rw [clock_of_nil hr]
    exact Schedule.exists_fits h.1.2 x
  | cons c cs =>
    by_cases h1 : x + 86400 < c.start
    · exact exists_fits_before h.1 hr h1
    · by_cases h2 : c.start + 86400 < x
      · exact exists_fits_after h.1 hr h2
      · exact ⟨_, fits_turnOf h hr (by omega) (by omega)⟩

end Region

end RecurringEvents
