import RecurringEvents.Proofs.Calendar.Places
import RecurringEvents.Proofs.Expansion.Weeks
import RecurringEvents.Proofs.Rule.RoundTrip

/-!
# The listed weekdays of every so many weeks

A weekly rule that lists weekdays asks for these days in every so many weeks, counted from the week
of the anchor. Its cursor starts at the anchor, on whatever weekday that is, and moves from there to
the listed ones. So the cursors that pass the weekday filter are the listed days of the counted
weeks from the anchor on, and no others.

* `Date.InWeekFrom`, `Date.IsWeeksAfter`: weeks by their first days.
* `Series.inCountedWeek_iff`: the weeks that count.
* `Series.filter_passesDays_weekly`: the cursors that pass the weekday filter.
-/

namespace RecurringEvents

/-! ## Weeks by their first days -/

namespace Date

variable {d e : Date} {first : Weekday} {n k : Int}

/-- Whether a day is in the week that begins with the day of number `n`, where weeks begin on
`first`. -/
structure InWeekFrom (d : Date) (first : Weekday) (n : Int) : Prop where
  begins : weekdayOfDayNumber n = first
  from_le : n ≤ d.dayNumber
  lt_next : d.dayNumber < n + 7

/-- Whether the week of `d` is `k` weeks after that of `e`, where weeks begin on `first`. -/
def IsWeeksAfter (d e : Date) (first : Weekday) (k : Int) : Prop :=
  ∃ m n, e.InWeekFrom first m ∧ d.InWeekFrom first n ∧ n = m + 7 * k

/-- A day is in one week only. -/
theorem inWeekFrom_iff :
    d.InWeekFrom first n ↔ n = d.dayNumber - (d.weekday.number - first.number) % 7 := by
  have h0 := first.number_nonneg
  have h7 := first.number_lt
  rw [number_weekday]
  constructor
  · rintro ⟨hfirst, hle, hlt⟩
    rw [weekdayOfDayNumber_eq_iff] at hfirst
    omega
  · rintro rfl
    exact ⟨weekdayOfDayNumber_eq_iff.2 (by omega), by omega, by omega⟩

theorem isWeeksAfter_iff : d.IsWeeksAfter e first k ↔
    (d.dayNumber - (d.weekday.number - first.number) % 7)
      - (e.dayNumber - (e.weekday.number - first.number) % 7) = 7 * k := by
  simp only [IsWeeksAfter, inWeekFrom_iff]
  constructor
  · rintro ⟨m, n, rfl, rfl, h⟩
    omega
  · intro h
    exact ⟨_, _, rfl, rfl, by omega⟩

end Date

/-! ## The weekday filter -/

namespace Rule

/-- Whether a wall time passes the weekday filter of a rule. -/
def passesDays (r : Rule) (w : Wall) : Bool :=
  r.days = [] || r.hasPositions || r.days.any fun e => e.day = w.date.weekday

variable {r : Rule} {w : Wall}

/-- Where weekdays are listed without positions, the listed ones pass. -/
theorem passesDays_iff (hdays : r.days ≠ []) (hplain : ∀ e ∈ r.days, e.position = none) :
    r.passesDays w = true ↔ ∃ e ∈ r.days, e.day = w.date.weekday := by
  simp only [passesDays, hdays, hasPositions_eq_false_iff.2 hplain, decide_false, Bool.false_or,
    List.any_eq_true, decide_eq_true_eq]

end Rule

namespace Series

variable {s : Series} {c : Wall} {d : Date}

/-- The weekday on which the weeks of a series begin. -/
def weekBegin (s : Series) : Weekday := s.rule.weekStart.getD .sunday

/-- **The weeks that count are those some intervals after the week of the anchor.** -/
theorem inCountedWeek_iff : s.InCountedWeek d ↔
    ∃ k, d.IsWeeksAfter s.anchor.date s.weekBegin (s.rule.interval * k) := by
  simp only [Date.isWeeksAfter_iff, ← Int.mul_assoc]
  exact Iff.rfl

/--
**The cursors that pass the weekday filter are the listed weekdays of every so many weeks**, one
after the other: the days from the anchor on, at the time of day of the anchor, whose weekday is
listed and whose week is a multiple of the interval after that of the anchor.
-/
theorem filter_passesDays_weekly (hf : s.rule.frequency = .weekly) (hdays : s.rule.days ≠ [])
    (hplain : ∀ e ∈ s.rule.days, e.position = none) :
    (∀ n, s.cursors[n]? = s.cursorAt n) ∧
    (s.cursors.filter s.rule.passesDays).Pairwise IsEarlier ∧
    ∀ c, c ∈ s.cursors.filter s.rule.passesDays ↔
      c = s.placeOn c.date ∧ s.anchor.date.dayNumber ≤ c.date.dayNumber ∧
      (∃ e ∈ s.rule.days, e.day = c.date.weekday) ∧
      ∃ k, c.date.IsWeeksAfter s.anchor.date s.weekBegin (s.rule.interval * k) := by
  refine ⟨s.getElem?_cursors, s.pairwise_cursors.filter _, fun c => ?_⟩
  rw [List.mem_filter, mem_cursors_iff, isCursor_weekly_iff hf hdays,
    Rule.passesDays_iff hdays hplain, ← inCountedWeek_iff]
  constructor
  · rintro ⟨⟨hc, hdate | ⟨hlt, -, hweek⟩⟩, hlisted⟩
    · -- the anchor passes the filter if its weekday is listed, and its own week counts
      refine ⟨hc, Int.le_of_eq (congrArg Date.dayNumber hdate.symm), hlisted, ?_⟩
      rw [InCountedWeek, hdate, Int.sub_self]
      exact Int.dvd_zero _
    · exact ⟨hc, Int.le_of_lt hlt, hlisted, hweek⟩
  · rintro ⟨hc, hle, hlisted, hweek⟩
    refine ⟨⟨hc, ?_⟩, hlisted⟩
    rcases Int.lt_or_eq_of_le hle with hlt | heq
    · exact Or.inr ⟨hlt, hlisted, hweek⟩
    · exact Or.inl (Date.dayNumber_inj heq.symm)

/-- The Sundays and Tuesdays of every second week, weeks beginning on Monday, from a Wednesday
on. -/
def everySecondWeek : Series where
  rule := { Rule.every .weekly with
    interval := 2
    byDay := some [.plain .sunday, .plain .tuesday]
    weekStart := some .monday
    interval_pos := Rule.everyOtherYear.interval_pos }
  anchor := ⟨.near 2024 1 3, .ofMinutes 540, .first⟩
  maxEmptyPeriods := 1

/-- The Wednesday itself is left out, its Sunday and the Tuesday after the next one are not. -/
theorem everySecondWeek_passing :
    everySecondWeek.placeOn (.near 2024 1 3)
      ∉ everySecondWeek.cursors.filter everySecondWeek.rule.passesDays ∧
    everySecondWeek.placeOn (.near 2024 1 7)
      ∈ everySecondWeek.cursors.filter everySecondWeek.rule.passesDays ∧
    everySecondWeek.placeOn (.near 2024 1 9)
      ∉ everySecondWeek.cursors.filter everySecondWeek.rule.passesDays ∧
    everySecondWeek.placeOn (.near 2024 1 16)
      ∈ everySecondWeek.cursors.filter everySecondWeek.rule.passesDays := by
  obtain ⟨-, -, hmem⟩ := filter_passesDays_weekly (s := everySecondWeek) rfl (by decide) (by decide)
  simp only [hmem, Date.isWeeksAfter_iff]
  refine ⟨?_, ⟨by decide, by decide, by decide, 0, by decide⟩, ?_,
    ⟨by decide, by decide, by decide, 1, by decide⟩⟩
  · -- no Wednesday is listed
    rintro ⟨-, -, hlisted, -⟩
    exact absurd hlisted (by decide)
  · -- the next week does not count
    rintro ⟨-, -, -, k, hk⟩
    have hone : (7 : Int) = 7 * (2 * k) := hk
    omega

end Series

end RecurringEvents
