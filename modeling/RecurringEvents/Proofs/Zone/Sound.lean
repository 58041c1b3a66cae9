import RecurringEvents.Proofs.Zone.Regular
import RecurringEvents.Zone.Database

/-!
# Sound clocks

A clock is sound if a wall time that it shows is read back with the offset that it is shown with,
and if of two wall times a day apart the earlier one is not read as the later instant, whatever
their passes. It tells the passes apart if what it shows in the second pass is read in two ways.

Every turn does both, so every regular region does. So does Nuuk, although one hour of
the wall is read there with an offset that the clock does not have.

* `Turn.Fits.soundAt`: a clock that is one turn at most around each wall time is sound.
* `Region.nuuk_typeAt`, `Region.nuuk_localType`: the irregular hours at Nuuk.
* `Region.soundAt`, `Region.tellsApart`: the orderly regions are sound and tell the passes apart.
-/

namespace RecurringEvents

/-- Whether a clock is sound around a point, as an instant and as a wall time. -/
structure Clock.SoundAt (k : Clock) (x : Int) : Prop where
  offset_lt : -86400 < (k.typeAt x).1.offset ∧ (k.typeAt x).1.offset < 86400
  read_lt : ∀ pass, -86400 < (k.localType pass x).offset ∧ (k.localType pass x).offset < 86400
  /-- What is shown is read back. -/
  read_back : (k.localType (k.typeAt x).2 (x + (k.typeAt x).1.offset)).offset
    = (k.typeAt x).1.offset
  /-- A day later on the wall is no earlier. -/
  next_day : ∀ p q, (k.localType q (x + 86400)).offset ≤ (k.localType p x).offset + 86400

/-- Whether a clock tells the passes apart at a point: a wall time that it shows there in the second
pass is read in another way in the first one. -/
def Clock.TellsApart (k : Clock) (x : Int) : Prop :=
  (k.typeAt x).2 = .second → (k.localType .first (x + (k.typeAt x).1.offset)).offset
    ≠ (k.localType .second (x + (k.typeAt x).1.offset)).offset

namespace Turn

/-- The wall time that is shown at an instant is read with the offset of the instant. -/
theorem offsetFor_offsetAt (c : Turn) (t : Int) :
    c.offsetFor (c.passAt t) (t + c.offsetAt t) = c.offsetAt t := by
  by_cases hlt : t < c.instant
  · rw [passAt_of_lt hlt, offsetAt_of_lt hlt]
    exact if_pos (show t + c.before < c.instant + max c.before c.after by omega)
  · have hle := Int.not_lt.1 hlt
    rw [offsetAt_of_le hle]
    by_cases hb : t < c.instant + (c.before - c.after)
    · rw [passAt_of_repeated hle hb]
      exact if_neg (show ¬t + c.after < c.instant + min c.before c.after by omega)
    · rw [passAt_of_le (Int.not_lt.1 hb)]
      exact if_neg (show ¬t + c.after < c.instant + max c.before c.after by omega)

/-- What is shown a second time was read with the old offset the first time. -/
theorem offsetFor_ne_of_second {c : Turn} {t : Int} (h : c.passAt t = .second) :
    c.offsetFor .first (t + c.offsetAt t) ≠ c.offsetFor .second (t + c.offsetAt t) := by
  have hback : c.instant ≤ t ∧ t < c.instant + (c.before - c.after) := by
    refine Decidable.byContradiction fun hnot => ?_
    rw [passAt, if_neg hnot] at h
    cases h
  rw [offsetAt_of_le hback.1, offsetFor, offsetFor, wallStart, wallStart, if_pos (by omega),
    if_neg (by omega)]
  omega

/-- The offset that a wall time is read with is the old one only if the clock is not set more than
a day before, and the new one only if it is not set more than a day later. -/
theorem IsSmall.offsetFor_cases {c : Turn} (h : c.IsSmall) (pass : Pass) (x : Int) :
    (x - 86400 < c.instant ∧ x < c.instant + max c.before c.after ∧
      c.offsetFor pass x = c.before) ∨
    (c.instant < x + 86400 ∧ c.instant + min c.before c.after ≤ x ∧
      c.offsetFor pass x = c.after) := by
  have hw := h.wallStart_near pass
  by_cases hlt : x < c.wallStart pass
  · refine Or.inl ⟨by omega, ?_, if_pos hlt⟩
    cases pass <;> simp only [wallStart] at hlt <;> omega
  · refine Or.inr ⟨by omega, ?_, if_neg hlt⟩
    cases pass <;> simp only [wallStart] at hlt <;> omega

/-- Two turns that have the same offsets for a day read the wall of its end no more than a day
earlier than that of its beginning. -/
theorem IsSmall.offsetFor_next_day {c d : Turn} {x : Int} (hc : c.IsSmall) (hd : d.IsSmall)
    (hsame : ∀ t, x ≤ t → t ≤ x + 86400 → c.offsetAt t = d.offsetAt t) (p q : Pass) :
    d.offsetFor q (x + 86400) ≤ c.offsetFor p x + 86400 := by
  have hcb := hc.before_lt
  have hcset := hc.set_le
  have hda := hd.after_lt
  have hdset := hd.set_le
  have hfrom := hsame x (Int.le_refl x) (by omega)
  have hto := hsame (x + 86400) (by omega) (Int.le_refl _)
  simp only [offsetAt] at hfrom hto
  rcases hc.offsetFor_cases p x with ⟨hc1, hc2, hread⟩ | ⟨hc1, hc2, hread⟩
  · rcases hd.offsetFor_cases q (x + 86400) with ⟨hd1, hd2, hread'⟩ | ⟨hd1, hd2, hread'⟩
    · omega
    · -- with a turn before the day and one after it, the offset between them has both signs
      omega
  · rcases hd.offsetFor_cases q (x + 86400) with ⟨hd1, hd2, hread'⟩ | ⟨hd1, hd2, hread'⟩
    · omega
    · omega

/-- What is shown within a day of a wall time, and in which pass, is told by the turn around it. -/
theorem Fits.of_shown {c : Turn} {k : Clock} {x t : Int} (h : c.Fits k x)
    (hlt : -86400 < (k.typeAt t).1.offset ∧ (k.typeAt t).1.offset < 86400)
    (ht : t + (k.typeAt t).1.offset = x) :
    (k.typeAt t).1.offset = c.offsetAt t ∧ (k.typeAt t).2 = c.passAt t := by
  have ho := h.offsetAt t (by omega) (by omega)
  exact ⟨ho, h.passAt t (by omega) (by omega) (by omega)⟩

/-- A clock is sound if it is one turn at most around a wall time, around the one a day later, and
around the one that it shows. -/
theorem Fits.soundAt {c d e : Turn} {k : Clock} {x : Int} (hc : c.Fits k x)
    (hd : d.Fits k (x + 86400)) (he : e.Fits k (x + (k.typeAt x).1.offset)) : k.SoundAt x := by
  have hlt : -86400 < (k.typeAt x).1.offset ∧ (k.typeAt x).1.offset < 86400 := by
    rw [hc.offsetAt x (by omega) (by omega)]
    exact hc.small.offsetAt_lt x
  refine ⟨hlt, fun pass => ?_, ?_, fun p q => ?_⟩
  · rw [hc.offsetFor pass]
    exact hc.small.offsetFor_lt pass x
  · obtain ⟨ho, hp⟩ := he.of_shown hlt rfl
    rw [he.offsetFor, hp, ho]
    exact e.offsetFor_offsetAt x
  · rw [hd.offsetFor q, hc.offsetFor p]
    refine hc.small.offsetFor_next_day hd.small (fun t h1 h2 => ?_) p q
    rw [← hc.offsetAt t (by omega) h2, hd.offsetAt t (by omega) (by omega)]

/-- It tells the passes apart if it is one turn at most around the wall time that it shows. -/
theorem Fits.tellsApart {c : Turn} {k : Clock} {x : Int}
    (hlt : -86400 < (k.typeAt x).1.offset ∧ (k.typeAt x).1.offset < 86400)
    (h : c.Fits k (x + (k.typeAt x).1.offset)) : k.TellsApart x := by
  intro hsecond
  obtain ⟨ho, hp⟩ := h.of_shown hlt rfl
  rw [h.offsetFor, h.offsetFor, ho]
  exact c.offsetFor_ne_of_second (hp ▸ hsecond)

end Turn

namespace Region

/-! ## Nuuk -/

/-- The latest listed change at Nuuk, which leaves the clock as it was. Its schedule has a turn at
the same instant. -/
def nuukReset : Int := 1698541200

/-- The turn of the schedule of Nuuk at the latest listed change. -/
def nuukTurn : Turn := Schedule.yearlyTurn ⟨-3600, "-01"⟩ ⟨-7200, "-02"⟩ ⟨10, 5, 0, 0⟩ 2023

theorem nuuk_isWellSpaced : nuuk.IsWellSpaced := by decide +kernel

theorem nuukTurn_eq : nuukTurn = ⟨nuukReset, -3600, -7200⟩ := by decide

theorem nuukReset_year :
    yearStart 2023 + 864000 ≤ nuukReset ∧ nuukReset + 864000 ≤ yearStart (2023 + 1) := by decide

/-- The change before the reset is months away and has set the clock to the same offset. -/
theorem nuuk_changes : ∃ cs, nuuk.changes = ⟨nuukReset, -7200, "-02"⟩ :: cs ∧
    turnOf nuuk.first ⟨nuukReset, -7200, "-02"⟩ cs = Turn.still nuukReset (-7200) ∧
    ∀ d ∈ cs.head?, d.start + 864000 ≤ nuukReset := by
  refine ⟨_, rfl, rfl, fun d hd => ?_⟩
  cases hd
  decide

variable {t : Int}

theorem nuuk_later_typeAt (h1 : nuukReset - 259200 ≤ t) (h2 : t ≤ nuukReset + 345600) :
    (nuuk.later.clock.typeAt t).1.offset = nuukTurn.offsetAt t ∧
      (nuuk.later.clock.typeAt t).2 = nuukTurn.passAt t := by
  have hr := nuuk_isWellSpaced.2
  have hy := nuukReset_year
  have ht : nuukTurn.instant = nuukReset := by rw [nuukTurn_eq]
  have hyear : nuuk.later.clock.typeAt t = nuuk.later.typeAt 2023 t :=
    Schedule.typeAt_yearOfSecond hr (by omega) (by omega)
  rw [hyear, nuuk, ← Schedule.typeAt_swap hr]
  exact Schedule.typeAt_near_turn hr.swap (y := 2023) (show nuukTurn.instant - 345600 ≤ t by omega)
    (show t ≤ nuukTurn.instant + 345600 by omega)

theorem nuuk_later_localType (pass : Pass) (h1 : nuukReset - 259200 ≤ t)
    (h2 : t ≤ nuukReset + 345600) :
    (nuuk.later.clock.localType pass t).offset = nuukTurn.offsetFor pass t := by
  have hr := nuuk_isWellSpaced.2
  have hy := nuukReset_year
  have ht : nuukTurn.instant = nuukReset := by rw [nuukTurn_eq]
  have hyear : nuuk.later.clock.localType pass t = nuuk.later.localType pass 2023 t :=
    Schedule.localType_yearOfSecond hr pass (by omega) (by omega)
  rw [hyear, nuuk, ← Schedule.localType_swap hr]
  exact Schedule.localType_near_turn hr.swap pass (y := 2023)
    (show nuukTurn.instant - 345600 ≤ t by omega) (show t ≤ nuukTurn.instant + 345600 by omega)

/-- Around its reset the clock of Nuuk stays at one offset, but for an hour it claims to repeat
itself. -/
theorem nuuk_typeAt (h1 : nuukReset - 259200 ≤ t) (h2 : t ≤ nuukReset + 345600) :
    (nuuk.clock.typeAt t).1.offset = -7200 ∧
      (nuuk.clock.typeAt t).2
        = if nuukReset < t ∧ t < nuukReset + 3600 then .second else .first := by
  obtain ⟨cs, hcs, hturn, hfar⟩ := nuuk_changes
  have hs : IsSpaced nuuk.first (⟨nuukReset, -7200, "-02"⟩ :: cs) := hcs ▸ nuuk_isWellSpaced.1
  by_cases ht : t ≤ nuukReset
  · have hmade : ∀ d ∈ cs.head?, d.start ≤ t := fun d hd => by
      have := hfar d hd
      omega
    have ho : (listedAt nuuk.first t (⟨nuukReset, -7200, "-02"⟩ :: cs)).1.offset
        = (turnOf nuuk.first ⟨nuukReset, -7200, "-02"⟩ cs).offsetAt t := listedAt_eq_turn hmade
    have hp := listedPassAt_eq_turn hs hmade fun d hd => by
      have := hfar d hd
      rw [hturn, Turn.offsetAt_still]
      omega
    rw [hturn, Turn.offsetAt_still] at ho
    rw [hturn, Turn.passAt_still] at hp
    rw [typeAt_of_le hcs ht]
    exact ⟨ho, hp.trans (if_neg (by omega)).symm⟩
  · obtain ⟨ho, hp⟩ := nuuk_later_typeAt h1 h2
    have hback : (typeAfter nuuk.first cs).offset = -7200 := congrArg Turn.before hturn
    rw [nuukTurn_eq, Turn.offsetAt_of_le (show nuukReset ≤ t by omega)] at ho
    rw [nuukTurn_eq] at hp
    rw [typeAt_of_lt hcs (show nuukReset < t by omega), ho, hback]
    refine ⟨rfl, (if_neg (by simp only; omega)).trans (hp.trans ?_)⟩
    by_cases hb : t < nuukReset + 3600
    · rw [Turn.passAt_of_repeated (show nuukReset ≤ t by omega)
        (show t < nuukReset + (-3600 - -7200) by omega)]
      exact (if_pos (by omega)).symm
    · rw [Turn.passAt_of_le (show nuukReset + (-3600 - -7200) ≤ t by omega)]
      exact (if_neg (by omega)).symm

/-- Around the reset, the wall of Nuuk is read with the offset that it has, but for the hour before
the reset in the first pass. -/
theorem nuuk_localType (pass : Pass) (h1 : nuukReset - 259200 ≤ t)
    (h2 : t ≤ nuukReset + 345600) :
    (nuuk.clock.localType pass t).offset
      = if pass = .first ∧ nuukReset - 7200 < t ∧ t < nuukReset - 3600 then -3600 else -7200 := by
  obtain ⟨cs, hcs, hturn, hfar⟩ := nuuk_changes
  have hs : IsSpaced nuuk.first (⟨nuukReset, -7200, "-02"⟩ :: cs) := hcs ▸ nuuk_isWellSpaced.1
  have hw : (turnOf nuuk.first ⟨nuukReset, -7200, "-02"⟩ cs).wallStart pass
      = nuukReset - 7200 := by
    rw [hturn]
    cases pass <;> rfl
  by_cases ht : t ≤ nuukReset - 7200
  · rw [localType_of_le hcs (by omega)]
    have ho := listedFor_eq_turn hs pass (t := t) fun d hd => by
      have := hfar d hd
      omega
    rw [hturn, Turn.offsetFor_still] at ho
    exact ho.trans (if_neg (by omega)).symm
  · rw [localType_of_lt hcs (by omega), nuuk_later_localType pass h1 h2, nuukTurn_eq]
    cases pass with
    | first =>
      by_cases hb : t < nuukReset - 3600
      · rw [if_pos ⟨rfl, by omega, hb⟩]
        exact if_pos hb
      · rw [if_neg (by omega)]
        exact if_neg hb
    | second =>
      rw [if_neg (by simp)]
      exact if_neg (show ¬t < nuukReset - 7200 by omega)

/-- The clock of Nuuk is sound around its reset. -/
theorem nuuk_soundAt {x : Int} (h1 : nuukReset - 172800 ≤ x) (h2 : x ≤ nuukReset + 172800) :
    nuuk.clock.SoundAt x := by
  obtain ⟨ho, hp⟩ := nuuk_typeAt (t := x) (by omega) (by omega)
  refine ⟨by omega, fun pass => ?_, ?_, fun p q => ?_⟩
  · rw [nuuk_localType pass (by omega) (by omega)]
    split <;> decide
  · rw [ho, nuuk_localType _ (by omega) (by omega), hp]
    refine if_neg ?_
    rintro ⟨hpass, hlo, hhi⟩
    rw [if_pos (by omega)] at hpass
    cases hpass
  · rw [nuuk_localType q (by omega) (by omega), nuuk_localType p (by omega) (by omega)]
    split <;> split <;> decide

/-- Around every wall time an orderly region is one turn at most, unless it is Nuuk around its
reset. -/
theorem exists_fits_or_reset {r : Region} (h : r.IsOrderly) (x : Int) :
    (∃ c : Turn, c.Fits r.clock x) ∨
      (r = nuuk ∧ nuukReset - 86400 ≤ x ∧ x ≤ nuukReset + 86400) := by
  rcases h with hr | rfl
  · exact Or.inl (exists_fits hr x)
  · obtain ⟨cs, hcs, -⟩ := nuuk_changes
    by_cases h1 : x + 86400 < nuukReset
    · exact Or.inl (exists_fits_before nuuk_isWellSpaced hcs h1)
    · by_cases h2 : nuukReset + 86400 < x
      · exact Or.inl (exists_fits_after nuuk_isWellSpaced hcs h2)
      · exact Or.inr ⟨rfl, by omega, by omega⟩

/-- **The clocks of all orderly regions are sound.** -/
theorem soundAt {r : Region} (h : r.IsOrderly) (x : Int) : r.clock.SoundAt x := by
  rcases exists_fits_or_reset h x with ⟨c, hc⟩ | ⟨rfl, h1, h2⟩
  · have hlt := hc.small.offsetAt_lt x
    rw [← hc.offsetAt x (by omega) (by omega)] at hlt
    rcases exists_fits_or_reset h (x + 86400) with ⟨d, hd⟩ | ⟨rfl, h1, h2⟩
    · rcases exists_fits_or_reset h (x + (r.clock.typeAt x).1.offset) with ⟨e, he⟩ | ⟨rfl, h1, h2⟩
      · exact hc.soundAt hd he
      · exact nuuk_soundAt (by omega) (by omega)
    · exact nuuk_soundAt (by omega) (by omega)
  · exact nuuk_soundAt (by omega) (by omega)

/-- **What an orderly region shows in the second pass is read in another way in the first pass.** -/
theorem tellsApart {r : Region} (h : r.IsOrderly) (x : Int) : r.clock.TellsApart x := by
  have hlt := (soundAt h x).offset_lt
  rcases exists_fits_or_reset h (x + (r.clock.typeAt x).1.offset) with ⟨c, hc⟩ | ⟨rfl, h1, h2⟩
  · exact hc.tellsApart hlt
  · intro hsecond
    obtain ⟨ho, hp⟩ := nuuk_typeAt (t := x) (by omega) (by omega)
    have hhour : nuukReset < x ∧ x < nuukReset + 3600 := by
      refine Decidable.byContradiction fun hnot => ?_
      rw [hp, if_neg hnot] at hsecond
      cases hsecond
    rw [ho, nuuk_localType .first (by omega) (by omega),
      nuuk_localType .second (by omega) (by omega), if_pos ⟨rfl, by omega, by omega⟩,
      if_neg fun hfirst => by cases hfirst.1]
    decide

end Region

end RecurringEvents
