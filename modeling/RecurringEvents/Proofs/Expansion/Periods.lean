import RecurringEvents.Proofs.Calendar.Places
import RecurringEvents.Proofs.Expansion.Filter
import RecurringEvents.Proofs.Expansion.Passing

/-!
# Months and years

A monthly or yearly cursor goes from candidate to candidate, and looks for the next one in the
periods after that of the last one. Periods follow on each other by the interval, and within a
period the candidates are on later and later dates, so none of them is passed over as long as the
search goes on.

* `Series.periodAt`, `Series.rank_periodAt`: the periods of a series.
* `Series.pairwise_candidates`: the order of the candidates.
* `Series.Reaches`, `Series.isCursor_iff_reaches`: the cursors are the candidates from the anchor on
  of the periods that the search comes to.
* `Series.isCursor_periodic_iff`: the cursors, if all periods are searched.
* `Series.isCursor_iff_of_every`: the dates of the cursors, where every period counts and no places
  are picked.
-/

namespace RecurringEvents

namespace Series

variable {s : Series} {p q : Period} {c d : Wall} {n j k : Nat}

/-! ## Periods -/

/-- The place of a period among all of its kind. -/
def rank (s : Series) (p : Period) : Int :=
  if s.rule.frequency = .monthly then 12 * p.year + p.month else p.year

/-- The period that is `k` intervals after that of the anchor. -/
def periodAt (s : Series) (k : Nat) : Period :=
  if s.rule.frequency = .monthly then
    let shifted := shiftMonth s.anchor.date.year s.anchor.date.month (k * s.rule.interval)
    ⟨shifted.1, shifted.2⟩
  else ⟨s.anchor.date.year + k * s.rule.interval, 1⟩

theorem periodAt_zero (s : Series) : s.periodAt 0 = s.periodOf s.anchor := by
  obtain ⟨-, -, hm1, hm2, -⟩ := s.anchor.date.valid
  simp only [periodAt, periodOf, Int.natCast_zero, Int.zero_mul, Int.add_zero,
    shiftMonth_zero hm1 hm2]
  split <;> rfl

theorem nextPeriod_periodAt (s : Series) (k : Nat) :
    s.nextPeriod (s.periodAt k) = s.periodAt (k + 1) := by
  have hinterval : (k : Int) * s.rule.interval + s.rule.interval
      = ((k + 1 : Nat) : Int) * s.rule.interval := by
    rw [Int.natCast_add, Int.add_mul, Int.natCast_one, Int.one_mul]
  by_cases hf : s.rule.frequency = .monthly
  · simp only [nextPeriod, periodAt, if_pos hf, shiftMonth_add, hinterval]
  · simp only [nextPeriod, periodAt, if_neg hf, Int.add_assoc, hinterval]

/-- **The periods follow on each other by the interval.** -/
theorem rank_periodAt (s : Series) (k : Nat) :
    s.rank (s.periodAt k) = s.rank (s.periodOf s.anchor) + k * s.rule.interval := by
  by_cases hf : s.rule.frequency = .monthly
  · simp only [rank, periodAt, periodOf, if_pos hf, shiftMonth]
    omega
  · simp only [rank, periodAt, periodOf, if_neg hf]

theorem rank_periodAt_lt_iff : s.rank (s.periodAt j) < s.rank (s.periodAt k) ↔ j < k := by
  have hi := s.rule.interval_pos
  rw [rank_periodAt, rank_periodAt, Int.add_lt_add_iff_left,
    Int.mul_lt_mul_right (by omega), Int.ofNat_lt]

/-- Whether a period is meant by its month, or by the first month of its year. -/
def IsProper (s : Series) (p : Period) : Prop :=
  if s.rule.frequency = .monthly then IsMonth p.month else p.month = 1

theorem isProper_periodOf (s : Series) (c : Wall) : s.IsProper (s.periodOf c) := by
  obtain ⟨-, -, hm1, hm2, -⟩ := c.date.valid
  by_cases hf : s.rule.frequency = .monthly
  · simp only [IsProper, periodOf, if_pos hf]
    exact ⟨hm1, hm2⟩
  · simp only [IsProper, periodOf, if_neg hf]

theorem isProper_periodAt (s : Series) (k : Nat) : s.IsProper (s.periodAt k) := by
  by_cases hf : s.rule.frequency = .monthly
  · simp only [IsProper, periodAt, if_pos hf]
    exact shiftMonth_month _ _ _
  · simp only [IsProper, periodAt, if_neg hf]

/-- A period is told by its place. -/
theorem IsProper.eq_of_rank (hp : s.IsProper p) (hq : s.IsProper q) (h : s.rank p = s.rank q) :
    p = q := by
  obtain ⟨y, m⟩ := p
  obtain ⟨y', m'⟩ := q
  rw [Period.mk.injEq]
  by_cases hf : s.rule.frequency = .monthly
  · simp only [IsProper, rank, if_pos hf, IsMonth] at hp hq h
    omega
  · simp only [IsProper, rank, if_neg hf] at hp hq h
    omega

/-- A date of an earlier period is an earlier date. -/
theorem dayNumber_lt_of_rank (h : s.rank (s.periodOf c) < s.rank (s.periodOf d)) :
    c.date.dayNumber < d.date.dayNumber := by
  refine IsAfter.dayNumber_lt (s := s) ?_
  by_cases hf : s.rule.frequency = .monthly
  · simpa only [IsAfter, rank, periodOf, if_pos hf] using h
  · simpa only [IsAfter, rank, periodOf, if_neg hf] using h

/-- Where every period counts, the period of every later date is met. -/
theorem exists_periodAt (hi : s.rule.interval = 1)
    (h : s.anchor.date.dayNumber ≤ c.date.dayNumber) : ∃ k, s.periodAt k = s.periodOf c := by
  have hle : s.rank (s.periodOf s.anchor) ≤ s.rank (s.periodOf c) :=
    Int.not_lt.1 fun hlt => Int.not_lt.2 h (dayNumber_lt_of_rank hlt)
  refine ⟨(s.rank (s.periodOf c) - s.rank (s.periodOf s.anchor)).toNat,
    (s.isProper_periodAt _).eq_of_rank (s.isProper_periodOf c) ?_⟩
  rw [rank_periodAt, hi]
  omega

/-! ## Candidates -/

/-- The candidates of a month are the candidate days of it. -/
theorem mem_monthCandidates_iff {y m : Int} : c ∈ s.monthCandidates y m ↔
    s.IsOnDate c ∧ c.date.year = y ∧ c.date.month = m ∧
      s.rule.isCandidateDay s.anchor.date.day y m c.date.day = true := by
  constructor
  · intro h
    obtain ⟨hon, hy, hm⟩ := mem_monthCandidates h
    obtain ⟨day, hday, hmap⟩ := List.mem_filterMap.1 h
    obtain ⟨d, hd, rfl⟩ := Option.map_eq_some_iff.1 hmap
    refine ⟨hon, hy, hm, ?_⟩
    rw [show (s.on d).date.day = day from (Date.of?_eq_some_iff.1 hd).2.2]
    exact (List.mem_filter.1 hday).2
  · rintro ⟨hon, rfl, rfl, hday⟩
    obtain ⟨-, -, -, -, hd1, hd2⟩ := c.date.valid
    refine List.mem_filterMap.2 ⟨c.date.day,
      List.mem_filter.2 ⟨mem_daysOf_iff.2 ⟨hd1, hd2⟩, hday⟩, ?_⟩
    rw [Date.of?_fields, Option.map_some, ← hon]

theorem pairwise_monthCandidates (s : Series) (y m : Int) :
    (s.monthCandidates y m).Pairwise IsEarlier := by
  refine List.Pairwise.filterMap _ (fun a b hab c hc d hd => ?_) ((pairwise_daysOf y m).filter _)
  obtain ⟨x, hx, rfl⟩ := Option.map_eq_some_iff.1 hc
  obtain ⟨x', hx', rfl⟩ := Option.map_eq_some_iff.1 hd
  obtain ⟨hy, hm, rfl⟩ := Date.of?_eq_some_iff.1 hx
  obtain ⟨hy', hm', rfl⟩ := Date.of?_eq_some_iff.1 hx'
  simp only [IsEarlier, on, Date.dayNumber, dayNumberOf, hy, hy', hm, hm']
  omega

/-- The months of a year in which candidates lie are those that are listed, if any is. -/
theorem mem_candidateMonths_iff_of_yearly {r : Rule} (hf : r.frequency = .yearly)
    (hmonths : r.months ≠ []) {anchorMonth m : Int} {p : Period} (hm : IsMonth m) :
    m ∈ r.candidateMonths anchorMonth p ↔ r.months.contains m = true := by
  rw [Rule.candidateMonths, if_neg (by simp [hf]), if_neg hmonths, List.mem_filter]
  refine and_iff_right ?_
  obtain ⟨h1, h12⟩ := hm
  simp only [List.mem_cons, List.not_mem_nil, or_false]
  omega

theorem pairwise_candidateMonths (r : Rule) (anchorMonth : Int) (p : Period) :
    (r.candidateMonths anchorMonth p).Pairwise (· < ·) := by
  unfold Rule.candidateMonths
  split
  · exact List.pairwise_singleton _ _
  · split
    · exact List.pairwise_singleton _ _
    · exact List.Pairwise.filter _ (by decide)

/-- The candidates of a period, before places are picked. -/
def allCandidates (s : Series) (p : Period) : List Wall :=
  (s.rule.candidateMonths s.anchor.date.month p).flatMap (s.monthCandidates p.year)

theorem pairwise_allCandidates (s : Series) (p : Period) :
    (s.allCandidates p).Pairwise IsEarlier := by
  refine List.pairwise_flatMap.2 ⟨fun m _ => s.pairwise_monthCandidates p.year m, ?_⟩
  refine (pairwise_candidateMonths _ _ _).imp fun hlt c hc d hd => ?_
  obtain ⟨-, hy, hm⟩ := mem_monthCandidates hc
  obtain ⟨-, hy', hm'⟩ := mem_monthCandidates hd
  exact Date.dayNumber_lt_of_month_lt (hy.trans hy'.symm) (hm ▸ hm' ▸ hlt)

/-- **The candidates of a period are on later and later dates.** -/
theorem pairwise_candidates (s : Series) (p : Period) : (s.candidates p).Pairwise IsEarlier :=
  (s.pairwise_allCandidates p).sublist (Rule.pickPlaces_sublist _ _)

theorem periodOf_of_mem (hp : s.IsProper p) (h : c ∈ s.candidates p) : s.periodOf c = p := by
  obtain ⟨-, hy, hm⟩ := mem_candidates h
  obtain ⟨y, m⟩ := p
  by_cases hf : s.rule.frequency = .monthly
  · rw [periodOf, if_pos hf, hy, hm hf]
  · rw [IsProper, if_neg hf] at hp
    rw [periodOf, if_neg hf, hy, ← hp]

/-- The candidates of an earlier period are earlier. -/
theorem dayNumber_lt_of_periodAt (hjk : j < k) (hc : c ∈ s.candidates (s.periodAt j))
    (hd : d ∈ s.candidates (s.periodAt k)) : c.date.dayNumber < d.date.dayNumber := by
  refine dayNumber_lt_of_rank (s := s) ?_
  rw [periodOf_of_mem (s.isProper_periodAt j) hc, periodOf_of_mem (s.isProper_periodAt k) hd]
  exact rank_periodAt_lt_iff.2 hjk

/-- A period with a candidate is one of the years up to 9999, so there are only so many. -/
theorem lt_of_mem_candidates (h : c ∈ s.candidates (s.periodAt k)) : k < 12 * 9999 := by
  have hi := s.rule.interval_pos
  have hrank := s.rank_periodAt k
  have hle : (k : Int) * 1 ≤ k * s.rule.interval :=
    Int.mul_le_mul_of_nonneg_left hi (Int.natCast_nonneg k)
  obtain ⟨ha1, -, ham1, -, -⟩ := s.anchor.date.valid
  obtain ⟨-, hc2, -, hcm2, -⟩ := c.date.valid
  rw [← periodOf_of_mem (s.isProper_periodAt k) h] at hrank
  by_cases hf : s.rule.frequency = .monthly
  · simp only [rank, periodOf, if_pos hf] at hrank
    omega
  · simp only [rank, periodOf, if_neg hf] at hrank
    omega

/-! ## The search -/

/-- What is found after a period is a candidate of one of the next periods. -/
theorem exists_periodAt_of_firstAfter (h : s.firstAfter n (s.periodAt k) = some c) :
    ∃ j, k < j ∧ j ≤ k + n ∧ c ∈ s.candidates (s.periodAt j) := by
  induction n generalizing k with
  | zero => cases h
  | succ n ih =>
    unfold firstAfter at h
    simp only [nextPeriod_periodAt] at h
    split at h
    · cases h
    · split at h
      · next d ds hd =>
        cases h
        exact ⟨k + 1, Nat.lt_succ_self k, by omega, hd ▸ List.mem_cons_self⟩
      · obtain ⟨j, hj, hjn, hc⟩ := ih h
        exact ⟨j, by omega, by omega, hc⟩

/-- Whether the search comes to a period: none of those before it is followed by as many periods
without a candidate as are searched. -/
def Reaches (s : Series) (k : Nat) : Prop :=
  ∀ j < k, ∃ i, j < i ∧ (i : Int) ≤ j + s.maxEmptyPeriods ∧ s.candidates (s.periodAt i) ≠ []

/-- What is found from a period on that the search comes to is a candidate of such a period. -/
theorem Reaches.exists_of_candidateFrom {wanted : Wall → Bool} (hk : s.Reaches k)
    (h : s.candidateFrom (s.periodAt k) wanted = some c) :
    ∃ j, c ∈ s.candidates (s.periodAt j) ∧ s.Reaches j := by
  unfold candidateFrom at h
  split at h
  · next d hd =>
    cases h
    exact ⟨k, List.mem_of_find?_eq_some hd, hk⟩
  · obtain ⟨j, hkj, hjn, hc⟩ := exists_periodAt_of_firstAfter h
    refine ⟨j, hc, fun i hij => ?_⟩
    rcases Nat.lt_or_ge i k with hik | hki
    · exact hk i hik
    · -- from here on, the period that is found is near enough
      exact ⟨j, hij, by omega, List.ne_nil_of_mem hc⟩

/-- **The search does not pass over a candidate** of a period that it comes to. -/
theorem firstAfter_le (hkj : k < j) (hn : j ≤ k + n) (hd : d ∈ s.candidates (s.periodAt j)) :
    ∃ c, s.firstAfter n (s.periodAt k) = some c ∧ c.date.dayNumber ≤ d.date.dayNumber := by
  induction n generalizing k with
  | zero => omega
  | succ n ih =>
    have hyear : ¬9999 < (s.periodAt (k + 1)).year := by
      -- the period of a candidate is not after the last year, and this one is not after it
      have hlast := d.date.valid.2.1
      have hle : s.rank (s.periodAt (k + 1)) ≤ s.rank (s.periodAt j) :=
        Int.not_lt.1 fun hlt => by have := rank_periodAt_lt_iff.1 hlt; omega
      rw [← periodOf_of_mem (s.isProper_periodAt j) hd] at hle
      have hproper := s.isProper_periodAt (k + 1)
      have hmonth := d.date.valid.2.2.2.1
      by_cases hf : s.rule.frequency = .monthly
      · simp only [rank, periodOf, IsProper, IsMonth, if_pos hf] at hle hproper
        omega
      · simp only [rank, periodOf, if_neg hf] at hle
        omega
    unfold firstAfter
    simp only [nextPeriod_periodAt, if_neg hyear]
    rcases Nat.lt_or_eq_of_le (Nat.succ_le_of_lt hkj) with hlt | rfl
    · cases hcs : s.candidates (s.periodAt (k + 1)) with
      | cons c cs =>
        exact ⟨c, rfl, Int.le_of_lt (dayNumber_lt_of_periodAt hlt (hcs ▸ List.mem_cons_self) hd)⟩
      | nil => exact ih hlt (by omega)
    · -- the period of the candidate itself
      have hsorted := s.pairwise_candidates (s.periodAt (k + 1))
      cases hcs : s.candidates (s.periodAt (k + 1)) with
      | cons c cs =>
        rw [hcs] at hd hsorted
        refine ⟨c, rfl, ?_⟩
        rcases List.mem_cons.1 hd with rfl | hd
        · exact Int.le_refl _
        · exact Int.le_of_lt ((List.pairwise_cons.1 hsorted).1 d hd)
      | nil =>
        rw [hcs] at hd
        cases hd

/-- The search from a period on comes to every later period that it reaches. -/
theorem Reaches.candidateFrom_le {wanted : Wall → Bool} (hj : s.Reaches j) (hkj : k ≤ j)
    (hd : d ∈ s.candidates (s.periodAt j)) (hwanted : wanted d = true) :
    ∃ c, s.candidateFrom (s.periodAt k) wanted = some c ∧
      c.date.dayNumber ≤ d.date.dayNumber := by
  unfold candidateFrom
  cases hfind : (s.candidates (s.periodAt k)).find? wanted with
  | some c =>
    refine ⟨c, rfl, ?_⟩
    rcases Nat.lt_or_eq_of_le hkj with hlt | rfl
    · exact Int.le_of_lt (dayNumber_lt_of_periodAt hlt (List.mem_of_find?_eq_some hfind) hd)
    · rcases rel_of_find? (s.pairwise_candidates _) hfind hd hwanted with rfl | hlt
      · exact Int.le_refl _
      · exact Int.le_of_lt hlt
  | none =>
    have hne : k ≠ j := by
      rintro rfl
      exact List.find?_eq_none.1 hfind d hd hwanted
    obtain ⟨i, hki, hin, hi⟩ := hj k (by omega)
    rcases Nat.lt_or_ge i j with hij | hji
    · -- a candidate of a period in between is found before
      obtain ⟨e, he⟩ := List.exists_mem_of_ne_nil _ hi
      obtain ⟨c, hc, hce⟩ := firstAfter_le hki (n := s.maxEmptyPeriods.toNat) (by omega) he
      exact ⟨c, hc, Int.le_trans hce (Int.le_of_lt (dayNumber_lt_of_periodAt hij he hd))⟩
    · exact firstAfter_le (by omega) (by omega) hd

/-- A period with a candidate is reached, if all periods are searched. -/
theorem reaches_of_mem (hN : 12 * 9999 ≤ s.maxEmptyPeriods)
    (h : c ∈ s.candidates (s.periodAt k)) : s.Reaches k := by
  intro j hj
  have := lt_of_mem_candidates h
  exact ⟨k, hj, by omega, List.ne_nil_of_mem h⟩

/-! ## Cursors -/

/-- **A monthly or yearly cursor is a candidate of a period that is reached.** -/
theorem exists_reaches_of_isCursor (hp : s.isPeriodic = true) (h : s.IsCursor c) :
    ∃ k, c ∈ s.candidates (s.periodAt k) ∧ s.Reaches k := by
  obtain ⟨n, hc⟩ := h
  induction n generalizing c with
  | zero =>
    rw [cursorAt, firstCursor, if_pos hp, ← periodAt_zero] at hc
    exact Reaches.exists_of_candidateFrom (fun j hj => absurd hj (Nat.not_lt_zero j)) hc
  | succ n ih =>
    obtain ⟨b, hb, hstep⟩ := Option.bind_eq_some_iff.1 hc
    obtain ⟨k, hk, hreaches⟩ := ih hb
    rw [step_of_periodic hp, periodOf_of_mem (s.isProper_periodAt k) hk] at hstep
    exact hreaches.exists_of_candidateFrom hstep

theorem count_le_of_isCursor (h : s.IsCursor c) : s.anchor.count ≤ c.count := by
  obtain ⟨n, hc⟩ := h
  have hle := anchor_le_of_cursorAt hc
  have htime := time_of_cursorAt hc
  exact Int.not_lt.1 fun hlt => Int.not_lt.2 hle ((Wall.count_lt_count_iff htime).1 hlt)

/-- **The cursors are the candidates from the anchor on** of the periods that are reached. -/
theorem isCursor_iff_reaches (hp : s.isPeriodic = true) : s.IsCursor c ↔
    s.anchor.count ≤ c.count ∧ ∃ k, c ∈ s.candidates (s.periodAt k) ∧ s.Reaches k := by
  constructor
  · exact fun h => ⟨count_le_of_isCursor h, exists_reaches_of_isCursor hp h⟩
  · rintro ⟨hle, j, hc, hreaches⟩
    obtain ⟨hon, -⟩ := mem_candidates hc
    have htime : c.time = s.anchor.time := by rw [hon]; rfl
    obtain ⟨first, hfirst, hfirstle⟩ : ∃ d, s.firstCursor = some d ∧
        d.date.dayNumber ≤ c.date.dayNumber := by
      rw [firstCursor, if_pos hp, ← periodAt_zero]
      exact hreaches.candidateFrom_le (Nat.zero_le j) hc (decide_eq_true hle)
    obtain ⟨d, hd, hdate⟩ := exists_cursorAt_of_reaches hfirst hfirstle fun b hb hlt => by
      obtain ⟨k, hk, -⟩ := exists_reaches_of_isCursor hp hb
      have hbtime : b.time = c.time := by
        obtain ⟨n, hn⟩ := hb
        exact (time_of_cursorAt hn).trans htime.symm
      have hkj : k ≤ j := Nat.not_lt.1 fun hjk => by
        have := dayNumber_lt_of_periodAt hjk hc hk
        omega
      rw [step_of_periodic hp, periodOf_of_mem (s.isProper_periodAt k) hk]
      exact hreaches.candidateFrom_le hkj hc
        (decide_eq_true ((Wall.count_lt_count_iff hbtime).2 hlt))
    -- on one date there is one candidate
    obtain ⟨k, hk, -⟩ := exists_reaches_of_isCursor hp hd
    have hsame : c = d := by
      rw [hon, (mem_candidates hk).1, hdate]
    rw [hsame]
    exact hd

/-- **If all periods are searched, the cursors are all candidates from the anchor on.** -/
theorem isCursor_periodic_iff (hp : s.isPeriodic = true) (hN : 12 * 9999 ≤ s.maxEmptyPeriods) :
    s.IsCursor c ↔ s.anchor.count ≤ c.count ∧ ∃ k, c ∈ s.candidates (s.periodAt k) := by
  rw [isCursor_iff_reaches hp]
  exact and_congr_right fun _ => exists_congr fun k => and_iff_left_of_imp (reaches_of_mem hN)

/-- **Where every period counts and no places are picked, the cursors are on the candidate days**
from the anchor on, in the months that the rule asks for. -/
theorem isCursor_iff_of_every (hp : s.isPeriodic = true) (hN : 12 * 9999 ≤ s.maxEmptyPeriods)
    (hi : s.rule.interval = 1) (hset : s.rule.setPositions = []) :
    s.IsCursor c ↔ s.IsOnDate c ∧ s.anchor.date.dayNumber ≤ c.date.dayNumber ∧
      c.date.month ∈ s.rule.candidateMonths s.anchor.date.month (s.periodOf c) ∧
      s.rule.isCandidateDay s.anchor.date.day c.date.year c.date.month c.date.day = true := by
  have hmem : ∀ p, c ∈ s.candidates p ↔
      ∃ m ∈ s.rule.candidateMonths s.anchor.date.month p, c ∈ s.monthCandidates p.year m := by
    intro p
    rw [candidates, Rule.pickPlaces, if_pos hset, List.mem_flatMap]
  constructor
  · intro h
    obtain ⟨k, hk, -⟩ := exists_reaches_of_isCursor hp h
    obtain ⟨n, hn⟩ := h
    have hperiod := periodOf_of_mem (s.isProper_periodAt k) hk
    obtain ⟨m, hm, hc⟩ := (hmem _).1 hk
    obtain ⟨hon, hy, rfl, hday⟩ := mem_monthCandidates_iff.1 hc
    refine ⟨hon, anchor_le_of_cursorAt hn, hperiod ▸ hm, ?_⟩
    rw [hy]
    exact hday
  · rintro ⟨hon, hle, hm, hday⟩
    have htime : c.time = s.anchor.time := by rw [hon]; rfl
    have hcount : s.anchor.count ≤ c.count :=
      Int.not_lt.1 fun hlt => Int.not_lt.2 hle ((Wall.count_lt_count_iff htime).1 hlt)
    obtain ⟨k, hk⟩ := exists_periodAt hi hle
    refine (isCursor_periodic_iff hp hN).2 ⟨hcount, k, ?_⟩
    rw [hk]
    exact (hmem _).2 ⟨_, hm, mem_monthCandidates_iff.2 ⟨hon, rfl, rfl, hday⟩⟩

end Series

end RecurringEvents
