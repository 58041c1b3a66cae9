import RecurringEvents.Proofs.Zone.Gap

/-!
# Later days on the wall

A wall time that is read as an instant and shown again may have moved: by its gap if it is skipped,
and by an hour at Nuuk. No gap lasts longer than a day, and no two gaps are a day apart, so wall
times at the same time of day keep their order, whatever their passes. Two of them end up at the
same place only where a zone skips a whole day.

* `Region.shows_next_day`: a day after a wall time that is skipped, the wall is shown.
* `Zone.IsOrderly.gapWithin_day`: how long a gap lasts.
* `Zone.IsOrderly.shown_readAt_later`: a later day on the wall is shown later.
-/

namespace RecurringEvents

namespace Turn

/-- Two turns of one clock do not skip wall times that are a day apart. -/
theorem not_skips_next_day {k : Clock} {c d : Turn} {s : Int} (hc : c.Shapes k s)
    (hd : d.Shapes k (s + 86400)) (hs : c.Skips s) : ¬d.Skips (s + 86400) := by
  rintro ⟨hd1, hd2⟩
  obtain ⟨hc1, hc2⟩ := hs
  obtain ⟨hcb1, hcb2⟩ := hc.small.before_lt
  obtain ⟨hca1, hca2⟩ := hc.small.after_lt
  obtain ⟨hdb1, hdb2⟩ := hd.small.before_lt
  obtain ⟨hda1, hda2⟩ := hd.small.after_lt
  have hset := hc.small.set_le
  -- on the day between them both turns tell the offset of the clock
  have hsame : ∀ t, s ≤ t → t ≤ s + 86400 → c.offsetAt t = d.offsetAt t := fun t h1 h2 =>
    (hc.typeAt t (by omega) h2).symm.trans (hd.typeAt t (by omega) (by omega))
  have hfrom := hsame s (by omega) (by omega)
  have hto := hsame (s + 86400) (by omega) (by omega)
  rw [offsetAt_of_lt (show s < d.instant by omega)] at hfrom
  rw [offsetAt_of_le (show c.instant ≤ s + 86400 by omega)] at hto
  by_cases h1 : s < c.instant
  · rw [offsetAt_of_lt h1] at hfrom
    by_cases h2 : d.instant ≤ s + 86400
    · rw [offsetAt_of_le h2] at hto
      -- both are the same turn, which sets the clock by a day at most
      have hle : d.instant ≤ c.instant := by
        refine Int.not_lt.1 fun hlt => ?_
        have hat := hsame c.instant (by omega) (by omega)
        rw [offsetAt_of_le (Int.le_refl _), offsetAt_of_lt hlt] at hat
        omega
      omega
    · rw [offsetAt_of_lt (Int.not_le.1 h2)] at hto
      omega
  · rw [offsetAt_of_le (Int.not_lt.1 h1)] at hfrom
    by_cases h2 : d.instant ≤ s + 86400
    · rw [offsetAt_of_le h2] at hto
      omega
    · -- the offset between them would have to be positive and negative
      omega

end Turn

namespace Region

variable {r : Region} {n : Int}

theorem seconds_next_day (n : Int) :
    (n + dayMicros) / secondMicros = n / secondMicros + 86400 := by
  simp only [secondMicros, dayMicros]
  omega

/-- **A day after a wall time that is skipped, the wall is shown.** -/
theorem shows_next_day (hr : r.IsOrderly) (hn : ¬(Zone.region r).Shows n) :
    (Zone.region r).Shows (n + dayMicros) := by
  obtain ⟨c, hc, -⟩ := exists_shapes hr (n / secondMicros)
  obtain ⟨d, hd, -⟩ := exists_shapes hr (n / secondMicros + 86400)
  rw [shows_iff, Clock.shows_iff (offset_lt hr) hc, Classical.not_not] at hn
  rw [shows_iff, seconds_next_day, Clock.shows_iff (offset_lt hr) hd]
  exact Turn.not_skips_next_day hc hd hn

/-- A day before the hour at Nuuk, the wall is shown. -/
theorem not_isResetHour_next_day (hr : r.IsOrderly) (hn : ¬(Zone.region r).Shows n) (pass : Pass) :
    ¬r.IsResetHour pass ((n + dayMicros) / secondMicros) := by
  rw [seconds_next_day]
  rintro ⟨rfl, -, h1, h2⟩
  have hshapes := nuuk_shapes (x := n / secondMicros) (by omega) (by omega)
  rw [shows_iff, Clock.shows_iff (offset_lt hr) hshapes, Classical.not_not] at hn
  obtain ⟨hlo, hhi⟩ := hn
  simp only [Turn.still] at hlo hhi
  omega

end Region

namespace Zone

/-- Whether a gap that a wall time falls in lasts no longer than `b`. -/
def GapWithin (z : Zone) (n b : Int) : Prop :=
  ∀ lo hi, z.IsGap lo hi → lo ≤ n → n < hi → hi - lo ≤ b

/-- Whether a wall time is on a day that a zone skips as a whole. -/
def SkipsDayOf (z : Zone) (n : Int) : Prop :=
  ∃ lo, z.IsGap lo (lo + dayMicros) ∧ lo ≤ n ∧ n < lo + dayMicros

variable {z : Zone} {r : Region} {b n : Int}

/-- At a fixed offset nothing is skipped. -/
theorem shows_fixed (o n : Int) : (fixed o).Shows n :=
  ⟨n - o * secondMicros, by simp only [shown, offsetAt]; omega⟩

namespace IsOrderly

/-- **No gap lasts longer than a day.** -/
theorem gapWithin_day (hz : z.IsOrderly) (n : Int) : z.GapWithin n dayMicros := by
  intro lo hi h _ _
  cases z with
  | fixed o => exact absurd (shows_fixed o lo) (h.skips lo (Int.le_refl lo) h.lt)
  | region r =>
    refine Int.not_lt.1 fun hlt => ?_
    have hlo := h.skips lo (Int.le_refl lo) h.lt
    have hpos : (0 : Int) ≤ dayMicros := by decide
    exact h.skips (lo + dayMicros) (by omega) (by omega) (Region.shows_next_day hz hlo)

/-- A gap that is not a whole day is shorter. -/
theorem gapWithin_of_not_skipsDayOf (hz : z.IsOrderly) (h : ¬z.SkipsDayOf n) :
    z.GapWithin n (dayMicros - 1) := by
  intro lo hi hgap hlo hhi
  have hle := hz.gapWithin_day n lo hi hgap hlo hhi
  have hne : hi ≠ lo + dayMicros := by
    rintro rfl
    exact h ⟨lo, hgap, hlo, hhi⟩
  omega

/-- A wall time that is shown is never shown later when it is read, and at most an hour earlier. -/
theorem shown_readAt_of_shows (hr : r.IsOrderly) (pass : Pass) (hn : (region r).Shows n) :
    n - 3600 * secondMicros ≤ (region r).shown ((region r).readAt pass n) ∧
      (region r).shown ((region r).readAt pass n) ≤ n := by
  have hpos : (0 : Int) ≤ 3600 * secondMicros := by decide
  by_cases hreset : r.IsResetHour pass (n / secondMicros)
  · rw [(Region.shown_readAt_of_nuuk hreset).2]
    omega
  · rw [Region.shown_readAt_of_shows hr hn hreset]
    omega

/-- A wall time moves by no more than its gap allows. -/
theorem shown_readAt_near (hr : r.IsOrderly) (hb : (region r).GapWithin n b)
    (hhour : 3600 * secondMicros ≤ b) (pass : Pass) :
    n - b ≤ (region r).shown ((region r).readAt pass n) ∧
      (region r).shown ((region r).readAt pass n) ≤ n + b := by
  by_cases hn : (region r).Shows n
  · have hpos : (0 : Int) ≤ 3600 * secondMicros := by decide
    have hmoved := shown_readAt_of_shows hr pass hn
    omega
  · obtain ⟨lo, hi, hgap, hlo, hhi, hfirst, hsecond⟩ := Region.exists_gap hr hn
    have hlength := hb lo hi hgap hlo hhi
    have hlt := hgap.lt
    cases pass with
    | first => omega
    | second => omega

/-- A day later on the wall is shown later, by what the gaps leave of a day. -/
theorem shown_readAt_next_day (hr : r.IsOrderly) (hb : (region r).GapWithin n b)
    (hb' : (region r).GapWithin (n + dayMicros) b) (hhour : 3600 * secondMicros ≤ b) (p q : Pass) :
    (region r).shown ((region r).readAt p n) + (dayMicros - b)
      ≤ (region r).shown ((region r).readAt q (n + dayMicros)) := by
  by_cases hn : (region r).Shows n
  · have hfrom := (shown_readAt_of_shows hr p hn).2
    have hto := (shown_readAt_near hr hb' hhour q).1
    omega
  · -- only one of the two can have moved by a gap
    have hfrom := (shown_readAt_near hr hb hhour p).2
    have hto := Region.shown_readAt_of_shows hr (Region.shows_next_day hr hn)
      (Region.not_isResetHour_next_day hr hn q)
    omega

/-- **A wall time at the same time of day on a later day is shown later**, by what the gaps leave of
a day. -/
theorem shown_readAt_later {m : Int} {days : Nat} (hz : z.IsOrderly)
    (hm : m = n + (days + 1) * dayMicros) (hb : z.GapWithin n b) (hb' : z.GapWithin m b)
    (hhour : 3600 * secondMicros ≤ b) (hday : b ≤ dayMicros) (p q : Pass) :
    z.shown (z.readAt p n) + (dayMicros - b) ≤ z.shown (z.readAt q m) := by
  have hpos : (0 : Int) ≤ 3600 * secondMicros := by decide
  cases z with
  | fixed o =>
    simp only [shown, readAt, offsetAt, offsetFor, dayMicros] at *
    omega
  | region r =>
    cases days with
    | zero =>
      obtain rfl : m = n + dayMicros := by simpa using hm
      exact shown_readAt_next_day hz hb hb' hhour p q
    | succ days =>
      -- two days are more than both can move
      have hfrom := (shown_readAt_near hz hb hhour p).2
      have hto := (shown_readAt_near hz hb' hhour q).1
      simp only [dayMicros] at *
      omega

end IsOrderly

end Zone

end RecurringEvents
