import RecurringEvents.Proofs.Expansion.Patience
import Mathlib.Algebra.Group.Basic
import Mathlib.Algebra.Group.Int.Defs

/-!
# Days and weeks

A daily cursor comes to every day, a weekly one only to the listed weekdays, in weeks that begin
with the week start. Both drop the pass of the anchor with the first step, so a cursor is told by
its date.

* `Series.placeOn`, `Series.isCursor_of_reaches`: the cursors of a series of days or weeks, by their
  dates.
* `Series.isCursor_daily_iff`, `Series.isCursor_weekly_iff`: which dates these are.
* `Event.weekly_eq_daily`: a weekly rule gives what the daily one gives that is filtered by the same
  weekdays.
-/

namespace RecurringEvents

theorem Wall.exists_addDays? {c : Wall} {date : Date} {days : Int}
    (h0 : 0 ≤ days) (hle : c.date.dayNumber + days ≤ date.dayNumber) :
    ∃ d, c.addDays? days = some d := by
  have h1 := c.date.dayNumber_pos
  have h2 := date.dayNumber_le
  have h3 := c.time.nonneg
  have h4 := c.time.lt
  refine exists_ofCount? ?_ ?_
  · simp only [firstCount, count, epochDayNumber, dayMicros]
    omega
  · simp only [endCount, count, epochDayNumber, dayMicros, Date.lastDayNumber] at *
    omega

theorem Date.number_weekday (d : Date) : d.weekday.number = (d.dayNumber + 6) % 7 :=
  Weekday.number_ofNumber _

namespace Series

variable {s : Series} {c d : Wall} {n : Nat}

/-! ## Cursors by their dates -/

/-- What a cursor that is moved by days is on a date: the anchor itself, or a wall time of the first
pass. -/
def placeOn (s : Series) (d : Date) : Wall :=
  if d = s.anchor.date then s.anchor else ⟨d, s.anchor.time, .first⟩

theorem eq_placeOn_of_isCursor (hp : s.isPeriodic = false) (h : s.IsCursor c) :
    c = s.placeOn c.date := by
  obtain ⟨n, hc⟩ := h
  have htime := time_of_cursorAt hc
  have hpass := pass_of_cursorAt hc
  have hfirst : s.cursorAt 0 = some s.anchor := by rw [cursorAt, firstCursor, hp]; rfl
  cases n with
  | zero =>
    cases hfirst.symm.trans hc
    exact (if_pos rfl).symm
  | succ n =>
    have hlater := later_of_cursorAt (Nat.succ_pos n) hfirst hc
    rw [placeOn, if_neg fun hdate => by rw [hdate] at hlater; exact Int.lt_irrefl _ hlater]
    rw [hp, if_neg (by simp)] at hpass
    obtain ⟨date, time, pass⟩ := c
    cases htime
    cases hpass
    rfl

theorem anchor_le_of_isCursor (h : s.IsCursor c) :
    s.anchor.date.dayNumber ≤ c.date.dayNumber := by
  obtain ⟨n, hc⟩ := h
  exact anchor_le_of_cursorAt hc

/-- **Where no step passes over a date, the series comes to it.** -/
theorem isCursor_of_reaches (hp : s.isPeriodic = false) (hc : c = s.placeOn c.date)
    (hle : s.anchor.date.dayNumber ≤ c.date.dayNumber)
    (hstep : ∀ b, s.IsCursor b → b.date.dayNumber < c.date.dayNumber → ∃ days, 0 ≤ days ∧
      s.step b = b.addDays? days ∧ b.date.dayNumber + days ≤ c.date.dayNumber) : s.IsCursor c := by
  have hfirst : s.firstCursor = some s.anchor := by rw [firstCursor, hp]; rfl
  obtain ⟨d, hd, hdate⟩ := exists_cursorAt_of_reaches hfirst hle fun b hb hlt => by
    obtain ⟨days, h0, hdays, hreach⟩ := hstep b hb hlt
    obtain ⟨d, hd⟩ := Wall.exists_addDays? h0 hreach
    have hmoved := (Wall.addDays?_eq_some hd).1
    exact ⟨d, hdays.trans hd, by omega⟩
  rw [hc, ← hdate, ← eq_placeOn_of_isCursor hp hd]
  exact hd

/-! ## Days -/

/-- **A daily cursor comes to the days that are some intervals after the anchor.** -/
theorem isCursor_daily_iff (hf : s.rule.frequency = .daily) :
    s.IsCursor c ↔ c = s.placeOn c.date ∧ s.anchor.date.dayNumber ≤ c.date.dayNumber ∧
      s.rule.interval ∣ c.date.dayNumber - s.anchor.date.dayNumber := by
  have hp : s.isPeriodic = false := by simp [isPeriodic, hf]
  have hstep : ∀ b, s.step b = b.addDays? s.rule.interval := fun b => by rw [step, hf]
  have hdvd : ∀ n b, s.cursorAt n = some b →
      s.rule.interval ∣ b.date.dayNumber - s.anchor.date.dayNumber := by
    intro n
    induction n with
    | zero =>
      intro b hb
      rw [cursorAt, firstCursor, hp] at hb
      cases hb
      rw [Int.sub_self]
      exact Int.dvd_zero _
    | succ n ih =>
      intro b hb
      obtain ⟨a, ha, hmoved⟩ := Option.bind_eq_some_iff.1 hb
      rw [hstep] at hmoved
      rw [(Wall.addDays?_eq_some hmoved).1, add_sub_right_comm]
      exact Int.dvd_add (ih a ha) (Int.dvd_refl _)
  constructor
  · intro h
    obtain ⟨n, hc⟩ := id h
    exact ⟨eq_placeOn_of_isCursor hp h, anchor_le_of_isCursor h, hdvd n c hc⟩
  · rintro ⟨hc, hle, hcdvd⟩
    refine isCursor_of_reaches hp hc hle fun b hb hlt => ?_
    obtain ⟨n, hn⟩ := hb
    -- what is left is whole intervals, too
    have hleft : s.rule.interval ∣ c.date.dayNumber - b.date.dayNumber := by
      have := Int.dvd_sub hcdvd (hdvd n b hn)
      rwa [sub_sub_sub_cancel_right] at this
    have hreach := Int.le_of_dvd (by omega) hleft
    exact ⟨_, Int.le_trans Int.one_nonneg s.rule.interval_pos, hstep b, by omega⟩

/-! ## Weeks -/

/-- The number of the first day of the week of a day. -/
def weekStartOf (s : Series) (d : Date) : Int := d.dayNumber - s.weekPlace d

/-- Weeks begin whole weeks apart. -/
theorem weekStartOf_dvd (s : Series) (d d' : Date) : 7 ∣ s.weekStartOf d - s.weekStartOf d' := by
  simp only [weekStartOf, weekPlace, Date.number_weekday]
  omega

/-- The listed weekdays are those whose places are listed. -/
theorem weekPlace_mem_iff {date : Date} :
    s.weekPlace date ∈ s.weekOffsets ↔ ∃ e ∈ s.rule.days, e.day = date.weekday := by
  rw [mem_weekOffsets_iff]
  refine exists_congr fun e => and_congr_right fun _ => ?_
  rw [← Weekday.number_inj, weekPlace]
  have h0 := e.day.number_nonneg
  have h7 := e.day.number_lt
  have h0' := date.weekday.number_nonneg
  have h7' := date.weekday.number_lt
  omega

/-- Whether a day is in a week that is some intervals after that of the anchor. -/
def InCountedWeek (s : Series) (d : Date) : Prop :=
  7 * s.rule.interval ∣ s.weekStartOf d - s.weekStartOf s.anchor.date

/-- One step of a weekly cursor leads to a listed weekday of a counted week. -/
theorem weekStartOf_of_step (hdays : s.rule.days ≠ [])
    (h : c.addDays? (s.weeklyDays c) = some d) :
    (∃ e ∈ s.rule.days, e.day = d.date.weekday) ∧
      (s.weekStartOf d.date = s.weekStartOf c.date ∨
        s.weekStartOf d.date = s.weekStartOf c.date + 7 * s.rule.interval) := by
  have hdate := (Wall.addDays?_eq_some h).1
  refine ⟨exists_listed_of_weeklyDays hdays h, ?_⟩
  rcases weeklyDays_cases hdays c with ⟨o, ho, -, hmoved, -⟩ | ⟨o, ho, hmoved, -, -⟩
  · have := weekOffsets_bounds ho
    left
    simp only [weekStartOf, weekPlace, Date.number_weekday] at *
    omega
  · have := weekOffsets_bounds ho
    right
    simp only [weekStartOf, weekPlace, Date.number_weekday] at *
    omega

/-- A weekly cursor does not pass over a listed weekday of a counted week. -/
theorem weeklyDays_le {date : Date} (hdays : s.rule.days ≠ []) (hc : s.InCountedWeek c.date)
    (hlisted : s.weekPlace date ∈ s.weekOffsets) (hdate : s.InCountedWeek date)
    (hlt : c.date.dayNumber < date.dayNumber) :
    c.date.dayNumber + s.weeklyDays c ≤ date.dayNumber := by
  have hplace : ∀ d, 0 ≤ s.weekPlace d ∧ s.weekPlace d < 7 := fun d =>
    ⟨Int.emod_nonneg _ (by decide), Int.emod_lt_of_pos _ (by decide)⟩
  have h1 := hplace c.date
  have h2 := hplace date
  by_cases hweek : s.weekStartOf date = s.weekStartOf c.date
  · -- in the same week the place is a later one
    have hlater : s.weekPlace c.date < s.weekPlace date := by
      unfold weekStartOf at hweek
      omega
    rcases weeklyDays_cases hdays c with ⟨o, -, -, hmoved, hleast⟩ | ⟨o, -, -, hnone, -⟩
    · have := hleast _ hlisted hlater
      unfold weekStartOf at hweek
      omega
    · have := hnone _ hlisted
      omega
  · -- a later week that is counted is the next interval at the earliest
    have hgap : s.weekStartOf c.date + 7 * s.rule.interval ≤ s.weekStartOf date := by
      have hdvd : 7 * s.rule.interval ∣ s.weekStartOf date - s.weekStartOf c.date := by
        have := Int.dvd_sub hdate hc
        rwa [sub_sub_sub_cancel_right] at this
      have hseven := s.weekStartOf_dvd date c.date
      have hpos : 0 < s.weekStartOf date - s.weekStartOf c.date := by
        unfold weekStartOf at *
        omega
      have := Int.le_of_dvd hpos hdvd
      omega
    have hi := s.rule.interval_pos
    rcases weeklyDays_cases hdays c with ⟨o, ho, -, hmoved, -⟩ | ⟨o, -, hmoved, -, hleast⟩
    · have := weekOffsets_bounds ho
      unfold weekStartOf at hgap
      omega
    · have := hleast _ hlisted
      unfold weekStartOf at hgap
      omega

/-- **After the anchor a weekly cursor comes to the listed weekdays of every counted week.** -/
theorem isCursor_weekly_iff (hf : s.rule.frequency = .weekly) (hdays : s.rule.days ≠ []) :
    s.IsCursor c ↔ c = s.placeOn c.date ∧ (c.date = s.anchor.date ∨
      (s.anchor.date.dayNumber < c.date.dayNumber ∧
        (∃ e ∈ s.rule.days, e.day = c.date.weekday) ∧ s.InCountedWeek c.date)) := by
  have hp : s.isPeriodic = false := by simp [isPeriodic, hf]
  have hfirst : s.cursorAt 0 = some s.anchor := by rw [cursorAt, firstCursor, hp]; rfl
  have hstep : ∀ b, s.step b = b.addDays? (s.weeklyDays b) := fun b => by rw [step, hf]
  have hweek : ∀ n b, s.cursorAt n = some b → s.InCountedWeek b.date := by
    intro n
    induction n with
    | zero =>
      intro b hb
      cases hfirst.symm.trans hb
      rw [InCountedWeek, Int.sub_self]
      exact Int.dvd_zero _
    | succ n ih =>
      intro b hb
      obtain ⟨a, ha, hmoved⟩ := Option.bind_eq_some_iff.1 hb
      rw [hstep] at hmoved
      have hcounted := ih a ha
      unfold InCountedWeek at *
      rcases (weekStartOf_of_step hdays hmoved).2 with heq | heq
      · rwa [heq]
      · rw [heq, add_sub_right_comm]
        exact Int.dvd_add hcounted (Int.dvd_refl _)
  constructor
  · intro h
    refine ⟨eq_placeOn_of_isCursor hp h, ?_⟩
    obtain ⟨n, hc⟩ := h
    cases n with
    | zero =>
      cases hfirst.symm.trans hc
      exact Or.inl rfl
    | succ n =>
      obtain ⟨b, -, hmoved⟩ := Option.bind_eq_some_iff.1 hc
      rw [hstep] at hmoved
      exact Or.inr ⟨later_of_cursorAt (Nat.succ_pos n) hfirst hc,
        (weekStartOf_of_step hdays hmoved).1, hweek _ c hc⟩
  · rintro ⟨hc, hdate | ⟨hlt, hlisted, hcounted⟩⟩
    · rw [hc, hdate, placeOn, if_pos rfl]
      exact ⟨0, hfirst⟩
    · refine isCursor_of_reaches hp hc (Int.le_of_lt hlt) fun b hreached hbc => ?_
      obtain ⟨n, hb⟩ := hreached
      have hpos := s.weeklyDays_pos b
      exact ⟨_, by omega, hstep b,
        weeklyDays_le hdays (hweek n b hb) (weekPlace_mem_iff.2 hlisted) hcounted hbc⟩

end Series

/-! ## A weekly rule and a daily one -/

/-- The rule with another frequency. -/
def Rule.withFrequency (r : Rule) (f : Frequency) : Rule := { r with frequency := f }

/-- The event with a rule of another frequency. -/
def Event.withFrequency (e : Event) (rule : Rule) (f : Frequency) : Event :=
  e.withRule (some (rule.withFrequency f))

/-- **Where each week counts, the same listed weekdays pass** whether the cursor moves by days or by
weeks. -/
theorem Series.passing_weekly {rule : Rule} (hi : rule.interval = 1) (hdays : rule.days ≠ [])
    (hplain : rule.hasPositions = false) (anchor : Wall) (N : Int) :
    (⟨rule.withFrequency .daily, anchor, N⟩ : Series).passing
      = (⟨rule.withFrequency .weekly, anchor, N⟩ : Series).passing := by
  refine passing_eq_of_mem_iff fun c => ?_
  have hone : (rule.withFrequency .weekly).interval = 1 := hi
  have hpasses : (rule.withFrequency .daily).passes c = (rule.withFrequency .weekly).passes c := rfl
  have hplace : (⟨rule.withFrequency .daily, anchor, N⟩ : Series).placeOn c.date
      = (⟨rule.withFrequency .weekly, anchor, N⟩ : Series).placeOn c.date := rfl
  have hweek : (⟨rule.withFrequency .weekly, anchor, N⟩ : Series).InCountedWeek c.date := by
    rw [InCountedWeek, hone]
    exact weekStartOf_dvd _ _ _
  rw [isCursor_daily_iff rfl, isCursor_weekly_iff rfl hdays, hpasses, hplace]
  constructor
  · rintro ⟨⟨hc, hle, -⟩, hp⟩
    refine ⟨⟨hc, ?_⟩, hp⟩
    rcases Int.lt_or_eq_of_le hle with hlt | heq
    · have hlisted := (Rule.passes_iff.1 hp).2.2.resolve_left hdays
      exact Or.inr ⟨hlt, hlisted.resolve_left (Bool.eq_false_iff.1 hplain), hweek⟩
    · exact Or.inl (Date.dayNumber_inj heq.symm)
  · rintro ⟨⟨hc, hdate⟩, hp⟩
    refine ⟨⟨hc, ?_, (show (rule.withFrequency .daily).interval = 1 from hi) ▸ Int.one_dvd _⟩, hp⟩
    rcases hdate with hdate | ⟨hlt, -⟩
    · exact Int.le_of_eq (congrArg Date.dayNumber hdate.symm)
    · exact Int.le_of_lt hlt

namespace Event

variable {e : Event} {rule : Rule} {limits : Limits} {q : Query} {x y : Expansion}

/--
**A weekly rule gives what the daily rule gives** that lists the same weekdays without positions, if
every day and every week counts and neither expansion is cut short. The occurrences only carry the
other rule.
-/
theorem weekly_eq_daily [ZoneDatabase] (hz : e.calendarZone.IsOrderly) (hi : rule.interval = 1)
    (hdays : rule.days ≠ []) (hplain : rule.hasPositions = false)
    (hx : (e.withFrequency rule .daily).expand limits q = .ok x) (hcut : x.cutShort = false)
    (hy : (e.withFrequency rule .weekly).expand limits q = .ok y) (hcut' : y.cutShort = false) :
    y = x.withRule (rule.withFrequency .weekly) := by
  have hrule : (e.withFrequency rule .daily).rule = some (rule.withFrequency .daily) := rfl
  have hrule' : (e.withFrequency rule .weekly).rule = some (rule.withFrequency .weekly) := rfl
  exact expand_of_passing (e := e.withFrequency rule .daily) hz hrule rfl rfl rfl rfl
    (Int.le_refl _) (fun anchor _ => Series.passing_weekly hi hdays hplain anchor.wall _)
    (not_givesUp_of_not_periodic hrule (Or.inl rfl))
    (not_givesUp_of_not_periodic hrule' (Or.inr rfl)) hx hcut hy hcut'

/-- The first three Mondays and Wednesdays of the first half of a month. -/
def earlyMondaysAndWednesdays : Rule :=
  { Rule.every .daily with
    count := some 3
    byDay := some [.plain .monday, .plain .wednesday]
    byMonthDay := some [1, 2, 3, 4, 5, 6, 7, 8, 9, 10, 11, 12, 13, 14]
    weekStart := some .wednesday
    count_pos := by decide, byMonthDay_valid := by decide }

/-- Both give the same three mornings, although the cursors make different steps. -/
theorem mondaysAndWednesdays_weekly_eq_daily : ∃ x y,
    ((newYearMornings earlyMondaysAndWednesdays).withFrequency earlyMondaysAndWednesdays
      .daily).expand .standard spring = .ok x ∧ x.cutShort = false ∧
    ((newYearMornings earlyMondaysAndWednesdays).withFrequency earlyMondaysAndWednesdays
      .weekly).expand .standard spring = .ok y ∧ y.cutShort = false ∧
    x.occurrences.map (fun o => o.start.wall.date) =
      [.near 2024 1 1, .near 2024 1 3, .near 2024 1 8] ∧
    y = x.withRule (earlyMondaysAndWednesdays.withFrequency .weekly) := by
  obtain ⟨x, hx, hcut, hdates⟩ : ∃ x, ((newYearMornings
      earlyMondaysAndWednesdays).withFrequency earlyMondaysAndWednesdays .daily).expand .standard
        spring = .ok x ∧ x.cutShort = false ∧ x.occurrences.map (fun o => o.start.wall.date) =
        [.near 2024 1 1, .near 2024 1 3, .near 2024 1 8] :=
    exists_ok_of_any (by decide +kernel)
  obtain ⟨y, hy, hcut'⟩ : ∃ y, ((newYearMornings
      earlyMondaysAndWednesdays).withFrequency earlyMondaysAndWednesdays .weekly).expand .standard
        spring = .ok y ∧ y.cutShort = false :=
    exists_ok_of_any (by decide +kernel)
  exact ⟨x, y, hx, hcut, hy, hcut', hdates,
    weekly_eq_daily (by decide) rfl (by decide) (by decide) hx hcut hy hcut'⟩

end Event

end RecurringEvents
