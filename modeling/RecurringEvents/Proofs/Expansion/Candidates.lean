import RecurringEvents.Proofs.Expansion.Periods

/-!
# What the candidates of a month or a year are

A rule asks for days of its months by weekdays, by weekdays at positions, by places of days counted
from either end, or, if it lists none of these, for the day of the anchor. The candidates of a
period are the times at these days, in their order, or the ones at the places that are listed. A
monthly or yearly cursor comes to all of them from the anchor on, period after period, until so many
periods in a row have none.

* `DayEntry.Matches`, `Rule.AsksForDate`: the days that a rule asks for.
* `Series.AsksFor`, `Series.IsCandidate`: the candidates, without a computation.
* `Series.isCandidate_iff`: these are the ones that are computed.
* `Series.cursors_periodic`: the cursors of a monthly or yearly series.
-/

namespace RecurringEvents

open Series (daysOf)

/-! ## Days -/

/-- Whether an entry asks for a date: a weekday for every such day, and with a position for the one
at that place among those of the month. -/
def DayEntry.Matches (e : DayEntry) (d : Date) : Prop :=
  d.weekday = e.day ∧ ∀ n ∈ e.position, placed? (weekdaysOf d.year d.month e.day) n = some d.day

namespace Rule

variable {r : Rule} {d : Date} {n anchorDay : Int}

theorem ne_zero_of_mem_monthDays (h : n ∈ r.monthDays) : n ≠ 0 :=
  (r.bare.byMonthDay_valid r.monthDays rfl n h).1

theorem ne_zero_of_mem_setPositions (h : n ∈ r.setPositions) : n ≠ 0 :=
  (r.bare.bySetPos_valid r.setPositions rfl n h).1

theorem listsWeekday_iff_exists_matches :
    r.listsWeekday d.year d.month d.day = true ↔ ∃ e ∈ r.days, e.Matches d := by
  rw [listsWeekday, List.any_eq_true]
  refine exists_congr fun e => and_congr_right fun _ => ?_
  unfold DayEntry.Matches
  cases hn : e.position with
  | none =>
    rw [decide_eq_true_eq]
    exact (and_iff_left forall_mem_none).symm
  | some n =>
    rw [decide_eq_true_eq, nthWeekday_eq_placed? (e.valid n hn).1]
    constructor
    · exact fun h => ⟨weekday_of_mem_weekdaysOf (mem_of_placed? h), forall_mem_some h⟩
    · exact fun h => h.2 n rfl

theorem listsMonthDay_iff_exists_placed :
    r.listsMonthDay (monthLength d.year d.month) d.day = true ↔
    ∃ n ∈ r.monthDays, placed? (daysOf d.year d.month) n = some d.day := by
  rw [listsMonthDay, List.any_eq_true]
  refine exists_congr fun n => and_congr_right fun hn => ?_
  rw [decide_eq_true_eq, monthDay?_eq_placed? (ne_zero_of_mem_monthDays hn)]

/-- Whether a rule asks for a date: for one that an entry matches if weekdays are listed, for one at
a listed place of its month if such places are listed, and otherwise for the day of the anchor, or
the last one of a month that is too short. -/
structure AsksForDate (r : Rule) (anchorDay : Int) (d : Date) : Prop where
  matches_entry : r.days ≠ [] → ∃ e ∈ r.days, e.Matches d
  at_place : r.monthDays ≠ [] →
    ∃ n ∈ r.monthDays, placed? (daysOf d.year d.month) n = some d.day
  clamped : r.days = [] → r.monthDays = [] → d.day = min anchorDay (monthLength d.year d.month)

/-- **The candidate days are those that the rule asks for.** -/
theorem isCandidateDay_iff :
    r.isCandidateDay anchorDay d.year d.month d.day = true ↔ r.AsksForDate anchorDay d := by
  unfold isCandidateDay
  simp only
  split
  · next hdays =>
    rw [Bool.and_eq_true, Bool.or_eq_true, decide_eq_true_eq, listsWeekday_iff_exists_matches,
      listsMonthDay_iff_exists_placed]
    constructor
    · rintro ⟨hentry, hplace⟩
      exact ⟨fun _ => hentry, fun hne => hplace.resolve_left hne, fun hnone => absurd hnone hdays⟩
    · rintro ⟨hentry, hplace, -⟩
      exact ⟨hentry hdays, or_iff_not_imp_left.2 hplace⟩
  · next hdays =>
    split
    · next hplaces =>
      rw [listsMonthDay_iff_exists_placed]
      exact ⟨fun h => ⟨fun h' => absurd h' hdays, fun _ => h, fun _ h' => absurd h' hplaces⟩,
        fun h => h.at_place hplaces⟩
    · next hplaces =>
      rw [decide_eq_true_eq]
      rw [ne_eq, Classical.not_not] at hdays hplaces
      exact ⟨fun h => ⟨fun h' => absurd hdays h', fun h' => absurd hplaces h', fun _ _ => h⟩,
        fun h => h.clamped hdays hplaces⟩

/-- **What is picked is what is at a listed place.** -/
theorem mem_pickPlaces_iff {α : Type} {cs : List α} {c : α} :
    c ∈ r.pickPlaces cs ↔ if r.setPositions = [] then c ∈ cs
      else ∃ n ∈ r.setPositions, placed? cs n = some c := by
  unfold pickPlaces
  split
  · exact Iff.rfl
  · simp only [List.mem_map, List.mem_filter, Prod.exists, exists_and_right, exists_eq_right,
      List.mem_zipIdx_iff_getElem?, listsPlace, List.any_eq_true, decide_eq_true_eq]
    constructor
    · rintro ⟨i, hc, n, hn, hi⟩
      exact ⟨n, hn, (placed?_eq_some_iff (ne_zero_of_mem_setPositions hn)).2 ⟨i, hc, hi⟩⟩
    · rintro ⟨n, hn, hc⟩
      obtain ⟨i, hc, hi⟩ := (placed?_eq_some_iff (ne_zero_of_mem_setPositions hn)).1 hc
      exact ⟨i, hc, n, hn, hi⟩

end Rule

/-! ## Candidates -/

namespace Series

variable {s : Series} {p : Period} {c : Wall}

/-- Whether a rule asks for a wall time in a period: at the time of day of the anchor, in the month,
or in a listed month of the year, or in that of the anchor if none is listed, on a date that the
rule asks for. -/
structure AsksFor (s : Series) (p : Period) (c : Wall) : Prop where
  on_date : s.IsOnDate c
  year_eq : c.date.year = p.year
  month_eq : s.rule.frequency = .monthly → c.date.month = p.month
  month_mem : s.rule.frequency = .yearly → s.rule.months ≠ [] → c.date.month ∈ s.rule.months
  anchor_month : s.rule.frequency = .yearly → s.rule.months = [] →
    c.date.month = s.anchor.date.month
  asks_for_date : s.rule.AsksForDate s.anchor.date.day c.date

/-- Whether a wall time is a candidate of a period: one of those that the rule asks for, in the
order of their dates, or, if places are listed, the one at such a place. -/
def IsCandidate (s : Series) (p : Period) (c : Wall) : Prop :=
  ∃ cs : List Wall, cs.Pairwise IsEarlier ∧ (∀ d, d ∈ cs ↔ s.AsksFor p d) ∧
    if s.rule.setPositions = [] then c ∈ cs
    else ∃ n ∈ s.rule.setPositions, placed? cs n = some c

/-- The months of a period are the ones that the rule asks for. -/
theorem mem_candidateMonths_iff (hp : s.isPeriodic = true) {d : Date} :
    d.month ∈ s.rule.candidateMonths s.anchor.date.month p ↔
      (s.rule.frequency = .monthly → d.month = p.month) ∧
      (s.rule.frequency = .yearly → s.rule.months ≠ [] → d.month ∈ s.rule.months) ∧
      (s.rule.frequency = .yearly → s.rule.months = [] → d.month = s.anchor.date.month) := by
  rcases isPeriodic_iff.1 hp with hf | hf
  · simp [Rule.candidateMonths, hf]
  · by_cases hmonths : s.rule.months = []
    · simp [Rule.candidateMonths, hf, hmonths]
    · obtain ⟨-, -, hm1, hm2, -⟩ := d.valid
      rw [mem_candidateMonths_iff_of_yearly hf hmonths ⟨hm1, hm2⟩]
      simp [hf, hmonths]

theorem mem_allCandidates_iff (hp : s.isPeriodic = true) :
    c ∈ s.allCandidates p ↔ s.AsksFor p c := by
  simp only [allCandidates, List.mem_flatMap, mem_monthCandidates_iff]
  constructor
  · rintro ⟨m, hm, hon, hy, rfl, hday⟩
    obtain ⟨hmonthly, hlisted, hanchor⟩ := (mem_candidateMonths_iff hp).1 hm
    rw [← hy] at hday
    exact ⟨hon, hy, hmonthly, hlisted, hanchor, Rule.isCandidateDay_iff.1 hday⟩
  · rintro ⟨hon, hy, hmonthly, hlisted, hanchor, hday⟩
    refine ⟨_, (mem_candidateMonths_iff hp).2 ⟨hmonthly, hlisted, hanchor⟩, hon, hy, rfl, ?_⟩
    rw [← hy]
    exact Rule.isCandidateDay_iff.2 hday

/-- **The computed candidates are the candidates.** -/
theorem isCandidate_iff (hp : s.isPeriodic = true) :
    s.IsCandidate p c ↔ c ∈ s.candidates p := by
  have hcandidates : s.candidates p = s.rule.pickPlaces (s.allCandidates p) := rfl
  rw [hcandidates, Rule.mem_pickPlaces_iff]
  constructor
  · rintro ⟨cs, hsorted, hmem, hpicked⟩
    obtain rfl : cs = s.allCandidates p :=
      List.Pairwise.eq_of_mem_iff hsorted (s.pairwise_allCandidates p)
        fun d => (hmem d).trans (mem_allCandidates_iff hp).symm
    exact hpicked
  · exact fun h => ⟨_, s.pairwise_allCandidates p, fun d => mem_allCandidates_iff hp, h⟩

/-! ## Cursors -/

/--
**The cursors of a monthly or yearly series are the candidates from the anchor on**, one after the
other, of the period of the anchor and those that follow on it by the interval, as long as a period
with a candidate is not farther away than so many periods as are searched. No candidate is after the
last year, so there the series ends, too.
-/
theorem cursors_periodic (hf : s.rule.frequency = .monthly ∨ s.rule.frequency = .yearly) :
    (∀ n, s.cursors[n]? = s.cursorAt n) ∧ s.cursors.Pairwise IsEarlier ∧
    ∀ c, c ∈ s.cursors ↔ s.anchor.count ≤ c.count ∧ ∃ k, s.IsCandidate (s.periodAt k) c ∧
      ∀ j < k, ∃ i d, j < i ∧ (i : Int) ≤ j + s.maxEmptyPeriods ∧
        s.IsCandidate (s.periodAt i) d := by
  have hp := isPeriodic_iff.2 hf
  refine ⟨s.getElem?_cursors, s.pairwise_cursors, fun c => ?_⟩
  rw [mem_cursors_iff, isCursor_iff_reaches hp]
  simp only [isCandidate_iff hp, Reaches, exists_and_left, ne_eq, List.eq_nil_iff_forall_not_mem,
    not_forall, not_not]

/-- Of the days 30 and 31 the later one of every month that has one of them, where two months are
searched. -/
def lateDays : Series where
  rule := { Rule.every .monthly with
    byMonthDay := some [31, 30]
    bySetPos := some [-1]
    byMonthDay_valid := by decide
    bySetPos_valid := by decide }
  anchor := ⟨.near 2024 1 31, .ofMinutes 540, .first⟩
  maxEmptyPeriods := 2

/-- February has no such day, and of March only the later one is taken. -/
theorem lateDays_cursors :
    lateDays.on (.near 2024 3 31) ∈ lateDays.cursors ∧
      lateDays.on (.near 2024 3 30) ∉ lateDays.cursors := by
  have hp : lateDays.isPeriodic = true := rfl
  obtain ⟨-, -, hmem⟩ := cursors_periodic (s := lateDays) (Or.inl rfl)
  have hmarch : lateDays.IsCandidate (lateDays.periodAt 2) (lateDays.on (.near 2024 3 31)) :=
    (isCandidate_iff hp).2 (by decide +kernel)
  rw [hmem, hmem]
  constructor
  · -- from January and from February on, March is near enough
    refine ⟨by decide, 2, hmarch, fun j hj => ⟨2, _, hj, ?_, hmarch⟩⟩
    have hsearched : lateDays.maxEmptyPeriods = 2 := rfl
    omega
  · rintro ⟨-, k, hk, -⟩
    have hcandidate := (isCandidate_iff hp).1 hk
    rw [← periodOf_of_mem (lateDays.isProper_periodAt k) hcandidate] at hcandidate
    exact absurd hcandidate (by decide +kernel)

end Series

end RecurringEvents
