import RecurringEvents.Proofs.Calendar.Order
import RecurringEvents.Proofs.Zone.Turn

/-!
# Daylight time, year after year

A schedule sets its clock twice a year. The two times lie in different months with at least one
month between them, and neither in January nor in December, so they are weeks apart from each other
and from the turns of the year.

* `secondsIn_bounds`: where the times of a year lie.
* `localType_seasonal`: the wall of a season is read by the same rule as that of a listed change.
* `exists_fits`: a regular schedule is one turn at most around every wall time.
-/

namespace RecurringEvents

/-! ## The seconds of a year -/

/-- The first second of a year. -/
def yearStart (y : Int) : Int := (daysBeforeYear y + 1 - epochDayNumber) * 86400

theorem yearOfSecond_bounds (t : Int) :
    yearStart (yearOfSecond t) ≤ t ∧ t < yearStart (yearOfSecond t + 1) := by
  have h := daysBeforeYear_yearOfDayNumber (t / 86400 + epochDayNumber)
  simp only [yearStart, yearOfSecond, epochDayNumber] at *
  omega

theorem yearStart_succ (y : Int) :
    yearStart y + 31536000 ≤ yearStart (y + 1) ∧ yearStart (y + 1) ≤ yearStart y + 31622400 := by
  have h := daysBeforeYear_succ y
  simp only [yearStart]
  split at h <;> omega

theorem yearStart_mono {y z : Int} (h : y ≤ z) : yearStart y ≤ yearStart z := by
  have := daysBeforeYear_mono h
  simp only [yearStart]
  omega

/-- A second within a month of a year lies in this year or in one of its neighbours. -/
theorem yearOfSecond_near {y t : Int} (h1 : yearStart y - 2592000 ≤ t)
    (h2 : t < yearStart (y + 1) + 2592000) :
    yearOfSecond t = y - 1 ∨ yearOfSecond t = y ∨ yearOfSecond t = y + 1 := by
  obtain ⟨hlo, hhi⟩ := yearOfSecond_bounds t
  generalize yearOfSecond t = z at hlo hhi
  have hprev := yearStart_succ (y - 1)
  have hnext := yearStart_succ (y + 1)
  rw [show y - 1 + 1 = y by omega] at hprev
  -- two years off, the second would be a year away
  by_cases hz1 : z + 1 ≤ y - 1
  · have := yearStart_mono hz1; omega
  · by_cases hz2 : y + 1 + 1 ≤ z
    · have := yearStart_mono hz2; omega
    · omega

/-- The wall time of a moment lies in the year of its whole seconds. -/
theorem Wall.year_eq_yearOfSecond (w : Wall) : w.date.year = yearOfSecond w.seconds :=
  w.year_eq_of_seconds

namespace YearlyTime

variable {r : YearlyTime}

/-- The day that is meant is a day of its month. -/
theorem IsPlain.dayOf_bounds (h : r.IsPlain) (y : Int) :
    1 ≤ r.dayOf y ∧ r.dayOf y ≤ monthLength y r.month := by
  obtain ⟨-, -, hw1, hw2, -, -⟩ := h
  have hl := monthLength_ge y r.month
  simp only [dayOf]
  split <;> omega

/-- The month of a yearly time, and a day on either side. -/
theorem IsPlain.secondsIn_bounds (h : r.IsPlain) (y : Int) :
    yearStart y + daysBeforeMonth y r.month * 86400 - 86400 ≤ r.secondsIn y ∧
      r.secondsIn y
        ≤ yearStart y + (daysBeforeMonth y r.month + monthLength y r.month) * 86400 + 86400 := by
  obtain ⟨hd1, hd2⟩ := h.dayOf_bounds y
  obtain ⟨-, -, -, -, ht1, ht2⟩ := h
  simp only [secondsIn, dayNumberOf, yearStart]
  omega

/-- A yearly time is a month away from the turns of its year. -/
theorem IsPlain.within_year (h : r.IsPlain) (y : Int) :
    yearStart y + 2592000 ≤ r.secondsIn y ∧ r.secondsIn y + 2592000 ≤ yearStart (y + 1) := by
  have hb := h.secondsIn_bounds y
  obtain ⟨hm1, hm2, -⟩ := h
  have h1 := Date.daysBeforeMonth_add_monthLength_le (y := y) (m := 1) (by omega)
    (show 1 < r.month by omega) (by omega)
  have h2 := Date.daysBeforeMonth_add_monthLength_le (y := y) (m := r.month) (n := 12) (by omega)
    (by omega) (by omega)
  -- January and December lie between the times and the turns of the year
  have hjan : daysBeforeMonth y 1 + monthLength y 1 = 31 := by
    unfold daysBeforeMonth monthLength
    cases isLeapYear y <;> decide
  have hdec : daysBeforeMonth y 12 + 31 = if isLeapYear y then 366 else 365 := by
    unfold daysBeforeMonth
    cases isLeapYear y <;> decide
  have hyear := daysBeforeYear_succ y
  simp only [yearStart] at *
  omega

/-- Yearly times with a month between them are more than three weeks apart. -/
theorem IsPlain.apart {q : YearlyTime} (hr : r.IsPlain) (hq : q.IsPlain)
    (h : r.month + 2 ≤ q.month) (y : Int) : r.secondsIn y + 2246400 ≤ q.secondsIn y := by
  have h1 := (hr.secondsIn_bounds y).2
  have h2 := (hq.secondsIn_bounds y).1
  obtain ⟨hm1, hm2, -⟩ := hr
  obtain ⟨-, hn2, -⟩ := hq
  have h3 := Date.daysBeforeMonth_add_monthLength_le (y := y) (m := r.month) (n := r.month + 1)
    (by omega) (by omega) (by omega)
  have h4 := Date.daysBeforeMonth_add_monthLength_le (y := y) (m := r.month + 1) (n := q.month)
    (by omega) (by omega) (by omega)
  have h5 := monthLength_ge y (r.month + 1)
  omega

end YearlyTime

namespace Schedule

/-! ## Seasons -/

theorem inSeason_iff {a b t : Int} :
    inSeason a b t = true ↔ (a < b ∧ a ≤ t ∧ t < b) ∨ (b ≤ a ∧ (t < b ∨ a ≤ t)) := by
  unfold inSeason
  split <;> simp <;> omega

/-- A season only asks in which order its ends and a time lie. -/
theorem inSeason_congr {a b t u v x : Int} (hab : a < b ↔ u < v) (ha : t < a ↔ x < u)
    (hb : t < b ↔ x < v) : inSeason a b t = inSeason u v x := by
  rw [Bool.eq_iff_iff, inSeason_iff, inSeason_iff]
  omega

/-- What is not in a season is in the other one. -/
theorem inSeason_swap {a b t : Int} (h : a ≠ b) : inSeason b a t = !inSeason a b t := by
  rw [Bool.eq_iff_iff, Bool.not_eq_true', ← Bool.not_eq_true, inSeason_iff, inSeason_iff]
  omega

/-- Near its beginning a season has not begun or has not ended. -/
theorem inSeason_near_start {a b t : Int} (h : a < b ↔ t < b) :
    inSeason a b t = decide (a ≤ t) := by
  rw [Bool.eq_iff_iff, inSeason_iff, decide_eq_true_eq]
  omega

/-- Before and after both ends it is the season that contains the turn of the year, or none. -/
theorem inSeason_outside {a b t : Int} (h : (t < a ∧ t < b) ∨ (a ≤ t ∧ b ≤ t)) :
    inSeason a b t = decide (b ≤ a) := by
  rw [Bool.eq_iff_iff, inSeason_iff, decide_eq_true_eq]
  omega

/-- The clock of a schedule. -/
def clock (p : Schedule) : Clock :=
  ⟨fun t => p.typeAt (yearOfSecond t) t, fun pass t => p.localType pass (yearOfSecond t) t⟩

variable {s d : LocalType} {starts ends : YearlyTime}

/-- A regular schedule stays so when the two parts of the year change their roles. -/
theorem IsRegular.swap (h : (seasonal s d starts ends).IsRegular) :
    (seasonal d s ends starts).IsRegular :=
  ⟨⟨h.1.2.1, h.1.1, h.1.2.2.2, h.1.2.2.1⟩, h.2.2.1, h.2.1, h.2.2.2.symm⟩

theorem yearlyTurn_isSmall (h : (seasonal s d starts ends).IsRegular) (y : Int) :
    (yearlyTurn s d starts y).IsSmall :=
  ⟨h.1.1, h.1.2.1, h.1.2.2⟩

/-- Where the turns of a year lie: four weeks from its ends, three weeks from each other, and in
every year in the same order. -/
theorem turns_apart (h : (seasonal s d starts ends).IsRegular) (y : Int) :
    (yearStart y + 2419200 ≤ (yearlyTurn s d starts y).instant ∧
      (yearlyTurn s d starts y).instant + 2419200 ≤ yearStart (y + 1)) ∧
    (yearStart y + 2419200 ≤ (yearlyTurn d s ends y).instant ∧
      (yearlyTurn d s ends y).instant + 2419200 ≤ yearStart (y + 1)) ∧
    ((starts.month < ends.month ∧
        (yearlyTurn s d starts y).instant + 1814400 ≤ (yearlyTurn d s ends y).instant) ∨
      (¬starts.month < ends.month ∧
        (yearlyTurn d s ends y).instant + 1814400 ≤ (yearlyTurn s d starts y).instant)) := by
  obtain ⟨⟨hs, hd, -⟩, ha, hb, hm⟩ := h
  have h1 := ha.within_year y
  have h2 := hb.within_year y
  simp only [yearlyTurn]
  refine ⟨by omega, by omega, ?_⟩
  rcases hm with hm | hm
  · have := ha.apart hb hm y
    exact Or.inl ⟨by omega, by omega⟩
  · have := hb.apart ha hm y
    exact Or.inr ⟨by omega, by omega⟩

/-! ## The clock of a season -/

/-- The instants of a year, said by its turns. -/
theorem typeAt_seasonal (y t : Int) :
    (seasonal s d starts ends).typeAt y t
      = (if inSeason (yearlyTurn s d starts y).instant (yearlyTurn d s ends y).instant t
        then d else s,
        if 0 < d.offset - s.offset then (yearlyTurn d s ends y).passAt t
        else (yearlyTurn s d starts y).passAt t) := by
  refine Prod.ext rfl ?_
  simp only [typeAt, Turn.passAt, yearlyTurn]
  split <;> simp only [Bool.and_eq_true, decide_eq_true_eq] <;>
    exact ite_congr (propext (by omega)) (fun _ => rfl) fun _ => rfl

/-- The wall of a year, read by its turns. -/
theorem localType_seasonal (pass : Pass) (y t : Int) :
    (seasonal s d starts ends).localType pass y t
      = if inSeason ((yearlyTurn s d starts y).wallStart pass)
          ((yearlyTurn d s ends y).wallStart pass) t
        then d else s := by
  have ends_eq : ∀ {a b a' b' : Int}, a = a' → b = b' →
      (if inSeason a b t then d else s) = if inSeason a' b' t then d else s := by
    rintro _ _ _ _ rfl rfl
    rfl
  -- which end of the season is read with which offset depends on the pass
  by_cases hs : 0 ≤ d.offset - s.offset
  · cases pass with
    | first =>
      simp only [localType, hs, reduceCtorEq, eq_iff_iff, iff_true, if_false]
      exact ends_eq (by simp only [Turn.wallStart, yearlyTurn]; omega)
        (by simp only [Turn.wallStart, yearlyTurn]; omega)
    | second =>
      simp only [localType, hs, if_true]
      exact ends_eq (by simp only [Turn.wallStart, yearlyTurn]; omega)
        (by simp only [Turn.wallStart, yearlyTurn]; omega)
  · cases pass with
    | first =>
      simp only [localType, hs, reduceCtorEq, if_true]
      exact ends_eq (by simp only [Turn.wallStart, yearlyTurn]; omega)
        (by simp only [Turn.wallStart, yearlyTurn]; omega)
    | second =>
      simp only [localType, hs, eq_iff_iff, iff_false, not_true, if_false]
      exact ends_eq (by simp only [Turn.wallStart, yearlyTurn]; omega)
        (by simp only [Turn.wallStart, yearlyTurn]; omega)

/-- It does not matter which of the two is called daylight time. -/
theorem typeAt_swap (h : (seasonal s d starts ends).IsRegular) (y t : Int) :
    (seasonal d s ends starts).typeAt y t = (seasonal s d starts ends).typeAt y t := by
  have hab := turns_apart h y
  rw [typeAt_seasonal, typeAt_seasonal, inSeason_swap (by omega)]
  refine Prod.ext ?_ ?_
  · cases inSeason (yearlyTurn s d starts y).instant (yearlyTurn d s ends y).instant t <;> rfl
  · show (if 0 < s.offset - d.offset then _ else _) = if 0 < d.offset - s.offset then _ else _
    -- only a turn that sets the clock back has a second pass
    by_cases h1 : 0 < d.offset - s.offset
    · rw [if_pos h1, if_neg (by omega)]
    · by_cases h2 : 0 < s.offset - d.offset
      · rw [if_pos h2, if_neg h1]
      · rw [if_neg h2, if_neg h1, Turn.passAt_of_forward (by simp only [yearlyTurn]; omega),
          Turn.passAt_of_forward (by simp only [yearlyTurn]; omega)]

/-- Neither does it for the wall. -/
theorem localType_swap (h : (seasonal s d starts ends).IsRegular) (pass : Pass) (y t : Int) :
    (seasonal d s ends starts).localType pass y t
      = (seasonal s d starts ends).localType pass y t := by
  have hab := turns_apart h y
  have h1 := (yearlyTurn_isSmall h y).wallStart_near pass
  have h2 := (yearlyTurn_isSmall h.swap y).wallStart_near pass
  rw [localType_seasonal, localType_seasonal, inSeason_swap (by omega)]
  cases inSeason ((yearlyTurn s d starts y).wallStart pass)
    ((yearlyTurn d s ends y).wallStart pass) t <;> rfl

/-- Four days around a turn of the year, the instants are those of the turn. -/
theorem typeAt_near_turn (h : (seasonal s d starts ends).IsRegular) {y t : Int}
    (h1 : (yearlyTurn s d starts y).instant - 345600 ≤ t)
    (h2 : t ≤ (yearlyTurn s d starts y).instant + 345600) :
    ((seasonal s d starts ends).typeAt y t).1.offset = (yearlyTurn s d starts y).offsetAt t ∧
      ((seasonal s d starts ends).typeAt y t).2 = (yearlyTurn s d starts y).passAt t := by
  have hab := turns_apart h y
  have hset := (yearlyTurn_isSmall h y).set_le
  rw [typeAt_seasonal, inSeason_near_start (by omega)]
  constructor
  · by_cases hle : (yearlyTurn s d starts y).instant ≤ t
    · rw [decide_eq_true hle, Turn.offsetAt_of_le hle]
      rfl
    · rw [decide_eq_false hle, Turn.offsetAt_of_lt (by omega)]
      rfl
  · by_cases hf : 0 < d.offset - s.offset
    · -- the second pass is that of the other turn, which is weeks away
      rw [if_pos hf, Turn.passAt_of_forward (c := yearlyTurn s d starts y)
        (by simp only [yearlyTurn]; omega)]
      have hset' := (yearlyTurn_isSmall h.swap y).set_le
      rcases hab.2.2 with ⟨_, hlt⟩ | ⟨_, hlt⟩
      · exact Turn.passAt_of_lt (by omega)
      · exact Turn.passAt_of_le (by omega)
    · exact if_neg hf

/-- Four days around a turn of the year, the wall is read as of the turn. -/
theorem localType_near_turn (h : (seasonal s d starts ends).IsRegular) (pass : Pass) {y t : Int}
    (h1 : (yearlyTurn s d starts y).instant - 345600 ≤ t)
    (h2 : t ≤ (yearlyTurn s d starts y).instant + 345600) :
    ((seasonal s d starts ends).localType pass y t).offset
      = (yearlyTurn s d starts y).offsetFor pass t := by
  have hab := turns_apart h y
  have hs := (yearlyTurn_isSmall h y).wallStart_near pass
  have hd := (yearlyTurn_isSmall h.swap y).wallStart_near pass
  rw [localType_seasonal, inSeason_near_start (by omega)]
  by_cases hle : (yearlyTurn s d starts y).wallStart pass ≤ t
  · rw [decide_eq_true hle]
    exact (if_neg (by omega)).symm
  · rw [decide_eq_false hle]
    exact (if_pos (by omega)).symm

/-- The local time type at the turn of the year. -/
def midwinter (s d : LocalType) (starts ends : YearlyTime) : LocalType :=
  if starts.month < ends.month then s else d

/-- Before and after both turns of a year, the instants have the type of the turn of the year. -/
theorem typeAt_outside (h : (seasonal s d starts ends).IsRegular) {y t : Int}
    (ht : t < yearStart y + 2419200 ∨ yearStart (y + 1) - 2332800 ≤ t) :
    (seasonal s d starts ends).typeAt y t = (midwinter s d starts ends, .first) := by
  have hab := turns_apart h y
  have hset := (yearlyTurn_isSmall h y).set_le
  have hset' := (yearlyTurn_isSmall h.swap y).set_le
  -- away from a turn it is always the first pass
  have hp : ∀ c : Turn, c.before - c.after ≤ 86400 → t < c.instant ∨ c.instant + 86400 ≤ t →
      c.passAt t = .first := by
    rintro c hc (hlt | hle)
    · exact Turn.passAt_of_lt hlt
    · exact Turn.passAt_of_le (by omega)
  rw [typeAt_seasonal, inSeason_outside (by omega), hp _ hset.2 (by omega), hp _ hset'.2 (by omega),
    ite_self, midwinter]
  by_cases hm : starts.month < ends.month
  · rw [if_pos hm, decide_eq_false (by omega)]
    rfl
  · rw [if_neg hm, decide_eq_true (by omega)]
    rfl

/-- Before and after both turns of a year, the wall has the type of the turn of the year. -/
theorem localType_outside (h : (seasonal s d starts ends).IsRegular) (pass : Pass) {y t : Int}
    (ht : t < yearStart y + 2332800 ∨ yearStart (y + 1) - 2332800 ≤ t) :
    (seasonal s d starts ends).localType pass y t = midwinter s d starts ends := by
  have hab := turns_apart h y
  have hs := (yearlyTurn_isSmall h y).wallStart_near pass
  have hd := (yearlyTurn_isSmall h.swap y).wallStart_near pass
  rw [localType_seasonal, inSeason_outside (by omega), midwinter]
  by_cases hm : starts.month < ends.month
  · rw [if_pos hm, decide_eq_false (by omega)]
    rfl
  · rw [if_neg hm, decide_eq_true (by omega)]
    rfl

/-- Up to two days beyond the ends of a year, the year may stand for the one that an instant lies
in. -/
theorem typeAt_yearOfSecond (h : (seasonal s d starts ends).IsRegular) {y t : Int}
    (h1 : yearStart y - 172800 ≤ t) (h2 : t < yearStart (y + 1) + 172800) :
    (seasonal s d starts ends).typeAt (yearOfSecond t) t
      = (seasonal s d starts ends).typeAt y t := by
  obtain ⟨hlo, hhi⟩ := yearOfSecond_bounds t
  -- around the turn of the year both years say the same
  rcases yearOfSecond_near (y := y) (t := t) (by omega) (by omega) with hy | hy | hy
  · rw [hy, show y - 1 + 1 = y by omega] at hhi
    rw [hy, typeAt_outside h (Or.inr (by rw [show y - 1 + 1 = y by omega]; omega)),
      typeAt_outside h (Or.inl (by omega))]
  · rw [hy]
  · rw [hy] at hlo
    rw [hy, typeAt_outside h (Or.inl (by omega)), typeAt_outside h (Or.inr (by omega))]

/-- Up to two days beyond the ends of a year, the year may stand for the one that a wall time lies
in. -/
theorem localType_yearOfSecond (h : (seasonal s d starts ends).IsRegular) (pass : Pass) {y t : Int}
    (h1 : yearStart y - 172800 ≤ t) (h2 : t < yearStart (y + 1) + 172800) :
    (seasonal s d starts ends).localType pass (yearOfSecond t) t
      = (seasonal s d starts ends).localType pass y t := by
  obtain ⟨hlo, hhi⟩ := yearOfSecond_bounds t
  rcases yearOfSecond_near (y := y) (t := t) (by omega) (by omega) with hy | hy | hy
  · rw [hy, show y - 1 + 1 = y by omega] at hhi
    rw [hy, localType_outside h pass (Or.inr (by rw [show y - 1 + 1 = y by omega]; omega)),
      localType_outside h pass (Or.inl (by omega))]
  · rw [hy]
  · rw [hy] at hlo
    rw [hy, localType_outside h pass (Or.inl (by omega)),
      localType_outside h pass (Or.inr (by omega))]

/-- Two days away from both turns of its year, a point is in a part of the year that goes on. -/
theorem fits_still (h : (seasonal s d starts ends).IsRegular) {y x : Int}
    (hx1 : yearStart y ≤ x) (hx2 : x < yearStart (y + 1))
    (ha : x + 172800 < (yearlyTurn s d starts y).instant ∨
      (yearlyTurn s d starts y).instant + 172800 < x)
    (hb : x + 172800 < (yearlyTurn d s ends y).instant ∨
      (yearlyTurn d s ends y).instant + 172800 < x) :
    (Turn.still x (if inSeason (yearlyTurn s d starts y).instant (yearlyTurn d s ends y).instant x
      then d else s).offset).Fits (seasonal s d starts ends).clock x := by
  have htype : ∀ t, x - 86400 ≤ t → t ≤ x + 86400 →
      (seasonal s d starts ends).clock.typeAt t
        = (if inSeason (yearlyTurn s d starts y).instant (yearlyTurn d s ends y).instant x then d
          else s, .first) := by
    intro t h1 h2
    have hset := (yearlyTurn_isSmall h y).set_le
    have hset' := (yearlyTurn_isSmall h.swap y).set_le
    have hp : ∀ c : Turn, c.before - c.after ≤ 86400 →
        (x + 172800 < c.instant ∨ c.instant + 172800 < x) → c.passAt t = .first := by
      rintro c hc (hlt | hle)
      · exact Turn.passAt_of_lt (by omega)
      · exact Turn.passAt_of_le (by omega)
    simp only [clock]
    rw [typeAt_yearOfSecond h (y := y) (by omega) (by omega), typeAt_seasonal,
      hp _ hset.2 ha, hp _ hset'.2 hb, ite_self,
      inSeason_congr (x := x) Iff.rfl (by omega) (by omega)]
  refine ⟨?_, fun t h1 h2 => ?_, fun t h1 h2 _ => ?_, fun pass => ?_⟩
  · split
    · exact Turn.still_isSmall h.1.2.1.1 h.1.2.1.2
    · exact Turn.still_isSmall h.1.1.1 h.1.1.2
  · rw [htype t h1 h2, Turn.offsetAt_still]
  · rw [htype t h1 h2, Turn.passAt_still]
  · have hab := turns_apart h y
    have hs := (yearlyTurn_isSmall h y).wallStart_near pass
    have hd := (yearlyTurn_isSmall h.swap y).wallStart_near pass
    simp only [clock]
    rw [localType_yearOfSecond h pass (y := y) (by omega) (by omega), localType_seasonal,
      inSeason_congr (u := (yearlyTurn s d starts y).instant)
        (v := (yearlyTurn d s ends y).instant) (x := x) (by omega) (by omega) (by omega),
      Turn.offsetFor_still]

/-- Within two days of a turn of the year, the schedule is this turn. -/
theorem fits_yearlyTurn (h : (seasonal s d starts ends).IsRegular) {y x : Int}
    (hx1 : yearStart y ≤ x) (hx2 : x < yearStart (y + 1))
    (h1 : (yearlyTurn s d starts y).instant - 172800 ≤ x)
    (h2 : x ≤ (yearlyTurn s d starts y).instant + 172800) :
    (yearlyTurn s d starts y).Fits (seasonal s d starts ends).clock x := by
  have htype : ∀ t, x - 86400 ≤ t → t ≤ x + 86400 →
      ((seasonal s d starts ends).clock.typeAt t).1.offset = (yearlyTurn s d starts y).offsetAt t ∧
        ((seasonal s d starts ends).clock.typeAt t).2 = (yearlyTurn s d starts y).passAt t := by
    intro t ht1 ht2
    simp only [clock]
    rw [typeAt_yearOfSecond h (y := y) (by omega) (by omega)]
    exact typeAt_near_turn h (by omega) (by omega)
  refine ⟨yearlyTurn_isSmall h y, fun t ht1 ht2 => (htype t ht1 ht2).1,
    fun t ht1 ht2 _ => (htype t ht1 ht2).2, fun pass => ?_⟩
  simp only [clock]
  rw [localType_yearOfSecond h pass (y := y) (by omega) (by omega)]
  exact localType_near_turn h pass (by omega) (by omega)

/-- The clock of a season is the same when the two parts of the year change their roles. -/
theorem clock_swap (h : (seasonal s d starts ends).IsRegular) :
    (seasonal d s ends starts).clock = (seasonal s d starts ends).clock := by
  simp only [clock, Clock.mk.injEq]
  exact ⟨funext fun t => typeAt_swap h _ t, funext fun pass => funext fun t =>
    localType_swap h pass _ t⟩

/-- **A regular schedule is one turn at most around every wall time.** -/
theorem exists_fits {p : Schedule} (h : p.IsRegular) (x : Int) : ∃ c : Turn, c.Fits p.clock x := by
  cases p with
  | steady type =>
    exact ⟨.still x type.offset, Turn.still_isSmall h.1 h.2,
      fun t _ _ => (Turn.offsetAt_still ..).symm, fun t _ _ _ => (Turn.passAt_still ..).symm,
      fun pass => (Turn.offsetFor_still ..).symm⟩
  | seasonal s d starts ends =>
    obtain ⟨hx1, hx2⟩ := yearOfSecond_bounds x
    generalize yearOfSecond x = y at hx1 hx2
    by_cases ha : x + 172800 < (yearlyTurn s d starts y).instant ∨
        (yearlyTurn s d starts y).instant + 172800 < x
    · by_cases hb : x + 172800 < (yearlyTurn d s ends y).instant ∨
          (yearlyTurn d s ends y).instant + 172800 < x
      · exact ⟨_, fits_still h hx1 hx2 ha hb⟩
      · exact ⟨_, clock_swap h ▸ fits_yearlyTurn h.swap hx1 hx2 (by omega) (by omega)⟩
    · exact ⟨_, fits_yearlyTurn h hx1 hx2 (by omega) (by omega)⟩

end Schedule

end RecurringEvents
