import RecurringEvents.Proofs.Expansion.Periods
import RecurringEvents.Proofs.Expansion.SameLists
import RecurringEvents.Proofs.Expansion.Weeks

/-!
# Lists that generate and lists that filter

The days that a rule lists are generated when its cursor goes by months or years, and filtered when
it goes by days; so are its months when the cursor goes by years, or by months. Where every period
counts and no places are picked, it makes no difference.

* `Series.passing_monthly`: the days of a month.
* `Series.passing_yearly`: the months of a year.
* `Event.frequencies_agree`: the expansions.
-/

namespace RecurringEvents

namespace Series

variable {s : Series} {rule : Rule} {anchor : Wall} {N : Int}

/-- In the first pass, what a cursor is on a date does not depend on how it is moved. -/
theorem placeOn_eq_on (h : s.anchor.pass = .first) (d : Date) : s.placeOn d = s.on d := by
  unfold placeOn on
  split
  · next hd => rw [hd]
  · rw [← h]

/-- **Where days are listed, the same ones pass** whether the cursor moves by days or goes to the
candidates of every month. -/
theorem passing_monthly (hN : 12 * 9999 ≤ N) (hi : rule.interval = 1)
    (hset : rule.setPositions = []) (hpositions : rule.hasPositions = false)
    (hlists : rule.days ≠ [] ∨ rule.monthDays ≠ []) (hfirst : anchor.pass = .first) :
    (⟨rule.withFrequency .daily, anchor, N⟩ : Series).passing
      = (⟨rule.withFrequency .monthly, anchor, N⟩ : Series).passing := by
  refine passing_eq_of_mem_iff fun c => ?_
  have hpasses : (rule.withFrequency .daily).passes c
    = (rule.withFrequency .monthly).passes c := rfl
  have hplace : (⟨rule.withFrequency .daily, anchor, N⟩ : Series).placeOn c.date
      = (⟨rule.withFrequency .monthly, anchor, N⟩ : Series).on c.date := placeOn_eq_on hfirst _
  rw [isCursor_daily_iff rfl, isCursor_iff_of_every rfl hN hi hset, hpasses, hplace]
  constructor
  · rintro ⟨⟨hc, hle, -⟩, hp⟩
    exact ⟨⟨hc, hle, List.mem_singleton.2 rfl,
      Rule.isCandidateDay_of_passes hpositions hlists hp⟩, hp⟩
  · rintro ⟨⟨hc, hle, -⟩, hp⟩
    exact ⟨⟨hc, hle, (show (rule.withFrequency .daily).interval = 1 from hi) ▸ Int.one_dvd _⟩, hp⟩

/-- **Where months are listed, the same candidates pass** whether the cursor goes to those of every
month or to those of the listed months of every year. -/
theorem passing_yearly (hN : 12 * 9999 ≤ N) (hi : rule.interval = 1)
    (hset : rule.setPositions = []) (hmonths : rule.months ≠ []) :
    (⟨rule.withFrequency .monthly, anchor, N⟩ : Series).passing
      = (⟨rule.withFrequency .yearly, anchor, N⟩ : Series).passing := by
  refine passing_eq_of_mem_iff fun c => ?_
  have hpasses : (rule.withFrequency .monthly).passes c
    = (rule.withFrequency .yearly).passes c := rfl
  obtain ⟨-, -, hm1, hm2, -⟩ := c.date.valid
  rw [isCursor_iff_of_every rfl hN hi hset, isCursor_iff_of_every rfl hN hi hset, hpasses]
  constructor
  · rintro ⟨⟨hc, hle, -, hday⟩, hp⟩
    have hmonth := (Rule.passes_iff.1 hp).1.resolve_left hmonths
    exact ⟨⟨hc, hle, (mem_candidateMonths_iff_of_yearly (r := rule.withFrequency .yearly) rfl
      hmonths ⟨hm1, hm2⟩).2 hmonth, hday⟩, hp⟩
  · rintro ⟨⟨hc, hle, -, hday⟩, hp⟩
    exact ⟨⟨hc, hle, List.mem_singleton.2 rfl, hday⟩, hp⟩

end Series

/-! ## The expansions -/

namespace Event

variable {e : Event} {rule : Rule} {limits : Limits} {q : Query} {x : Expansion}

/-- An expansion that is neither cut short nor given up. -/
structure IsWhole [ZoneDatabase] (e : Event) (limits : Limits) (q : Query) (x : Expansion) : Prop
    where
  expands : e.expand limits q = .ok x
  not_cut : x.cutShort = false
  not_givesUp : ¬e.GivesUp limits q

/-- Whether the event gives the same by a rule of one frequency and of another one, if both
expansions are whole. The occurrences only carry the other rule. -/
def FrequenciesAgree [ZoneDatabase] (e : Event) (rule : Rule) (limits : Limits) (q : Query)
    (f g : Frequency) : Prop :=
  ∀ x y, (e.withFrequency rule f).IsWhole limits q x → (e.withFrequency rule g).IsWhole limits q y →
    y = x.withRule (rule.withFrequency g)

/-- Two frequencies agree if their series have the same passing cursors, once all periods are
searched. -/
theorem frequenciesAgree_of_passing [ZoneDatabase] {f g : Frequency} (hz : e.calendarZone.IsOrderly)
    (hpassing : ∀ anchor N, 12 * 9999 ≤ N → e.start.inZone e.calendarZone = .ok anchor →
      (⟨rule.withFrequency f, anchor.wall, N⟩ : Series).passing
        = (⟨rule.withFrequency g, anchor.wall, N⟩ : Series).passing) :
    e.FrequenciesAgree rule limits q f g := by
  intro x y hx hy
  have hrule : (e.withFrequency rule f).rule = some (rule.withFrequency f) := rfl
  exact expand_of_passing (e := e.withFrequency rule f) hz hrule rfl rfl rfl rfl
    (Int.le_max_left limits.maxEmptyPeriods (12 * 9999))
    (fun anchor ha => hpassing anchor _ (Int.le_max_right _ _) ha)
    hx.not_givesUp hy.not_givesUp hx.expands hx.not_cut hy.expands hy.not_cut

/--
**The lists of a rule say the same whether they generate or filter.** Where every period counts and
no places are picked, a monthly rule gives what the daily one gives, if it lists days, none of them
with a position, and the event does not start in the second pass of an hour; and a yearly rule gives
what the monthly one gives, if it lists months.
-/
theorem frequencies_agree [ZoneDatabase] (hz : e.calendarZone.IsOrderly) (hi : rule.interval = 1)
    (hset : rule.setPositions = []) :
    (rule.hasPositions = false → rule.days ≠ [] ∨ rule.monthDays ≠ [] →
      (∀ anchor, e.start.inZone e.calendarZone = .ok anchor → anchor.wall.pass = .first) →
      e.FrequenciesAgree rule limits q .daily .monthly) ∧
    (rule.months ≠ [] → e.FrequenciesAgree rule limits q .monthly .yearly) := by
  refine ⟨fun hpositions hlists hfirst => ?_, fun hmonths => ?_⟩
  · exact frequenciesAgree_of_passing hz fun anchor N hN ha =>
      Series.passing_monthly hN hi hset hpositions hlists (hfirst anchor ha)
  · exact frequenciesAgree_of_passing hz fun anchor N hN _ =>
      Series.passing_yearly hN hi hset hmonths

/-- The first and the last days of January and March, three of them. -/
def edgesOfMonths : Rule :=
  { Rule.every .daily with
    count := some 3
    byMonthDay := some [1, -1]
    byMonth := some [1, 3]
    count_pos := earlyMondaysAndWednesdays.count_pos, byMonthDay_valid := by decide
    byMonth_valid := endsOfMonths.byMonth_valid }

/-- Mornings on these days, by a frequency. -/
def edgeMornings (f : Frequency) : Event :=
  (newYearMornings edgesOfMonths).withFrequency edgesOfMonths f

/-- By months and by years the count is used up at a cursor that is there. -/
theorem not_givesUp_edgeMornings (f : Frequency) : ¬(edgeMornings f).GivesUp
    .standard spring := by
  have hover : ∀ n, f = .monthly ∧ n = 5 ∨ f = .yearly ∧ n = 3 → ∃ w, (edgeMornings f).walk
      (edgesOfMonths.withFrequency f) .standard ⟨spring.start, spring.finish, 366⟩ = .ok w ∧
      w.IsOver n ∧ (w.series.cursorAt n).isSome := by
    rintro n (⟨rfl, rfl⟩ | ⟨rfl, rfl⟩) <;> exact exists_ok_of_any (by decide +kernel)
  cases f with
  | daily => exact not_givesUp_of_not_periodic rfl (Or.inl rfl)
  | weekly => exact not_givesUp_of_not_periodic rfl (Or.inr rfl)
  | monthly =>
    obtain ⟨w, hw, hn, hcursor⟩ := hover 5 (Or.inl ⟨rfl, rfl⟩)
    exact not_givesUp_of_isOver rfl rfl hw hn hcursor
  | yearly =>
    obtain ⟨w, hw, hn, hcursor⟩ := hover 3 (Or.inr ⟨rfl, rfl⟩)
    exact not_givesUp_of_isOver rfl rfl hw hn hcursor

/-- The same three mornings by every day, by months and by years. -/
theorem edgesOfMonths_agree : ∃ x y z,
    (edgeMornings .daily).IsWhole .standard spring x ∧
    (edgeMornings .monthly).IsWhole .standard spring y ∧
    (edgeMornings .yearly).IsWhole .standard spring z ∧
    x.occurrences.map (fun o => o.start.wall.date) =
      [.near 2024 1 1, .near 2024 1 31, .near 2024 3 1] ∧
    y = x.withRule (edgesOfMonths.withFrequency .monthly) ∧
    z = y.withRule (edgesOfMonths.withFrequency .yearly) := by
  obtain ⟨x, hx, hcut, hdates⟩ : ∃ x, (edgeMornings .daily).expand .standard spring = .ok x ∧
      x.cutShort = false ∧ x.occurrences.map (fun o => o.start.wall.date) =
        [.near 2024 1 1, .near 2024 1 31, .near 2024 3 1] := exists_ok_of_any (by decide +kernel)
  obtain ⟨y, hy, hcut'⟩ : ∃ y, (edgeMornings .monthly).expand .standard spring = .ok y ∧
      y.cutShort = false := exists_ok_of_any (by decide +kernel)
  obtain ⟨z, hz, hcut''⟩ : ∃ z, (edgeMornings .yearly).expand .standard spring = .ok z ∧
      z.cutShort = false := exists_ok_of_any (by decide +kernel)
  have hx : (edgeMornings .daily).IsWhole .standard spring x :=
    ⟨hx, hcut, not_givesUp_edgeMornings _⟩
  have hy : (edgeMornings .monthly).IsWhole .standard spring y :=
    ⟨hy, hcut', not_givesUp_edgeMornings _⟩
  have hz : (edgeMornings .yearly).IsWhole .standard spring z :=
    ⟨hz, hcut'', not_givesUp_edgeMornings _⟩
  obtain ⟨anchor, ha, hfirst⟩ : ∃ anchor, (newYearMornings edgesOfMonths).start.inZone
      (newYearMornings edgesOfMonths).calendarZone = .ok anchor ∧ anchor.wall.pass = .first :=
    exists_ok_of_any (by decide +kernel)
  have hagree := @frequencies_agree (newYearMornings edgesOfMonths) edgesOfMonths .standard spring _
    (by decide +kernel) rfl rfl
  refine ⟨x, y, z, hx, hy, hz, hdates, ?_, hagree.2 (by decide) y z hy hz⟩
  exact hagree.1 (by decide) (by decide)
    (fun a h => by cases ha.symm.trans h; exact hfirst) x y hx hy

end Event

end RecurringEvents
