import RecurringEvents.Proofs.Expansion.Cut
import RecurringEvents.Proofs.Expansion.SameSeries

/-!
# Lists that count as sets

A rule is read through its lists by asking whether an entry is in them, or whether they are empty:
where the cursor goes, which cursors pass the filters, and which candidates are picked. So neither
the order of a list nor how often an entry is there makes a difference.

* `Rule.SameLists`: rules that differ in nothing else.
* `Rule.SameLists.isCandidateDay`, `Rule.SameLists.pickPlaces`, `Rule.SameLists.passes`: what is
  read from the lists.
* `Rule.SameLists.sameSeries`: the series.
* `Event.expand_of_sameLists`: the expansions, also when they fail.
-/

namespace RecurringEvents

section

variable {α : Type} {l l' : List α}

/-- Whether some entry has a property depends on the entries only. -/
theorem any_eq_of_mem_iff (h : ∀ a, a ∈ l ↔ a ∈ l') (p : α → Bool) : l.any p = l'.any p := by
  rw [Bool.eq_iff_iff, List.any_eq_true, List.any_eq_true]
  exact exists_congr fun a => and_congr_left fun _ => h a

/-- Neither does it depend on anything else whether a list is empty. -/
theorem eq_nil_iff_of_mem_iff (h : ∀ a, a ∈ l ↔ a ∈ l') : l = [] ↔ l' = [] := by
  rw [List.eq_nil_iff_forall_not_mem, List.eq_nil_iff_forall_not_mem]
  exact forall_congr' fun a => not_congr (h a)

end

namespace Rule

/-- Whether two rules differ at most in the order of their lists and in how often an entry is
there. -/
structure SameLists (r s : Rule) : Prop where
  frequency : r.frequency = s.frequency
  interval : r.interval = s.interval
  count : r.count = s.count
  lastMoment : r.lastMoment = s.lastMoment
  weekStart : r.weekStart = s.weekStart
  exdates : r.exdates = s.exdates
  rdates : r.rdates = s.rdates
  days : ∀ e, e ∈ r.days ↔ e ∈ s.days
  monthDays : ∀ n, n ∈ r.monthDays ↔ n ∈ s.monthDays
  months : ∀ n, n ∈ r.months ↔ n ∈ s.months
  setPositions : ∀ n, n ∈ r.setPositions ↔ n ∈ s.setPositions

namespace SameLists

variable {r s : Rule}

/-! ## What is read from the lists -/

theorem months_contains (h : r.SameLists s) (n : Int) :
    r.months.contains n = s.months.contains n := by
  rw [Bool.eq_iff_iff, List.contains_iff_mem, List.contains_iff_mem]
  exact h.months n

theorem hasPositions (h : r.SameLists s) : r.hasPositions = s.hasPositions :=
  any_eq_of_mem_iff h.days _

theorem listsMonthDay (h : r.SameLists s) : r.listsMonthDay = s.listsMonthDay :=
  funext fun _ => funext fun _ => any_eq_of_mem_iff h.monthDays _

theorem listsWeekday (h : r.SameLists s) : r.listsWeekday = s.listsWeekday :=
  funext fun _ => funext fun _ => funext fun _ => any_eq_of_mem_iff h.days _

/-- The candidates among the days of a month are the same. -/
theorem isCandidateDay (h : r.SameLists s) : r.isCandidateDay = s.isCandidateDay := by
  funext anchorDay year month day
  have hdays := eq_nil_iff_of_mem_iff h.days
  have hmonthDays := eq_nil_iff_of_mem_iff h.monthDays
  simp only [Rule.isCandidateDay, ne_eq, hdays, hmonthDays, h.listsWeekday, h.listsMonthDay]

/-- The months in which they lie are the same, too, and in the same order. -/
theorem candidateMonths (h : r.SameLists s) : r.candidateMonths = s.candidateMonths := by
  funext anchorMonth p
  have hmonths := eq_nil_iff_of_mem_iff h.months
  simp only [Rule.candidateMonths, hmonths, funext h.months_contains, h.frequency]

/-- The same places are picked. -/
theorem pickPlaces {α : Type} (h : r.SameLists s) (cs : List α) :
    r.pickPlaces cs = s.pickPlaces cs := by
  have hpositions := eq_nil_iff_of_mem_iff h.setPositions
  have hplace : r.listsPlace = s.listsPlace :=
    funext fun _ => funext fun _ => any_eq_of_mem_iff h.setPositions _
  simp only [Rule.pickPlaces, hpositions, hplace]

/-- The same cursors pass the filters. -/
theorem passes (h : r.SameLists s) : r.passes = s.passes := by
  funext c
  have hdays := eq_nil_iff_of_mem_iff h.days
  have hmonthDays := eq_nil_iff_of_mem_iff h.monthDays
  have hmonths := eq_nil_iff_of_mem_iff h.months
  simp only [Rule.passes, hdays, hmonthDays, hmonths, h.months_contains, h.listsMonthDay,
    h.hasPositions, any_eq_of_mem_iff h.days]

/-! ## The series -/

variable {a : Wall} {n : Int}

theorem candidates (h : r.SameLists s) (p : Period) :
    (⟨r, a, n⟩ : Series).candidates p = (⟨s, a, n⟩ : Series).candidates p := by
  have hmonth : (⟨r, a, n⟩ : Series).monthCandidates = (⟨s, a, n⟩ : Series).monthCandidates := by
    funext year month
    simp only [Series.monthCandidates, h.isCandidateDay]
    rfl
  simp only [Series.candidates, hmonth, h.candidateMonths, h.pickPlaces]

theorem nextPeriod (h : r.SameLists s) (p : Period) :
    (⟨r, a, n⟩ : Series).nextPeriod p = (⟨s, a, n⟩ : Series).nextPeriod p := by
  simp only [Series.nextPeriod, h.frequency, h.interval]

/-- The search for a candidate in later periods finds the same. -/
theorem firstAfter (h : r.SameLists s) (k : Nat) (p : Period) :
    (⟨r, a, n⟩ : Series).firstAfter k p = (⟨s, a, n⟩ : Series).firstAfter k p := by
  induction k generalizing p with
  | zero => rfl
  | succ k ih => simp only [Series.firstAfter, h.nextPeriod, h.candidates, ih]

theorem candidateFrom (h : r.SameLists s) (p : Period) (wanted : Wall → Bool) :
    (⟨r, a, n⟩ : Series).candidateFrom p wanted = (⟨s, a, n⟩ : Series).candidateFrom p wanted := by
  simp only [Series.candidateFrom, h.candidates, h.firstAfter]

/-- A weekly cursor moves by the same days. -/
theorem weeklyDays (h : r.SameLists s) (c : Wall) :
    (⟨r, a, n⟩ : Series).weeklyDays c = (⟨s, a, n⟩ : Series).weeklyDays c := by
  have hoffsets : (⟨r, a, n⟩ : Series).weekOffsets = (⟨s, a, n⟩ : Series).weekOffsets := by
    simp only [Series.weekOffsets, h.weekStart, any_eq_of_mem_iff h.days]
  simp only [Series.weeklyDays, hoffsets, h.weekStart, h.interval]

/-- **The lists of a rule count as sets**: neither the series nor what is counted of it changes. -/
theorem sameSeries (h : r.SameLists s) : r.SameSeries s where
  firstCursor a n := by
    simp only [Series.firstCursor, Series.isPeriodic, Series.periodOf, h.frequency, h.candidateFrom]
  step a n := by
    funext c
    simp only [Series.step, Series.periodOf, h.frequency, h.interval, h.candidateFrom, h.weeklyDays]
  passes := h.passes
  count := h.count

end SameLists

end Rule

/-! ## The expansions -/

namespace Event

variable {e : Event} {rule rule' : Rule}

/--
**The lists of a rule count as sets.** If the entries of its lists are put in another order or
repeated, every expansion shows the same occurrences and is cut short alike, or it fails for the
same reason; the occurrences only carry the other rule.
-/
theorem expand_of_sameLists [ZoneDatabase] (hrule : e.rule = some rule) (h : rule'.SameLists rule)
    (limits : Limits) (q : Query) :
    (e.withRule (some rule')).expand limits q
      = (e.expand limits q).map fun x => x.withRule rule' := by
  have hdays : rule'.excluded = rule.excluded := congrArg (fun l => l.getD []) h.exdates
  have hextras : rule'.extras = rule.extras := congrArg (fun l => l.getD []) h.rdates
  refine expand_of_seriesRun hrule hdays hextras fun c _ => ?_
  refine seriesRun_withRule h.sameSeries hdays fun w hw => Walk.stopsAlike_of_eq ?_
  rw [rule_of_walk hw]
  exact h.lastMoment

/-! ## An example -/

/-- The first and the last of the Mondays and Fridays of January and March, four of them. -/
def endsOfMonths : Rule :=
  { Rule.every .monthly with
    count := some 4
    byDay := some [.plain .monday, .plain .friday]
    byMonth := some [1, 3]
    bySetPos := some [1, -1]
    count_pos := by decide, byMonth_valid := by decide, bySetPos_valid := by decide }

/-- The same, with its lists the other way round and a Friday too many. -/
def endsOfMonthsAgain : Rule :=
  { endsOfMonths with
    byDay := some [.plain .friday, .plain .monday, .plain .friday]
    byMonth := some [3, 1, 1]
    bySetPos := some [-1, 1]
    byMonth_valid := by decide, bySetPos_valid := by decide }

theorem sameLists_endsOfMonths : endsOfMonthsAgain.SameLists endsOfMonths where
  frequency := rfl
  interval := rfl
  count := rfl
  lastMoment := rfl
  weekStart := rfl
  exdates := rfl
  rdates := rfl
  days e := by simp [endsOfMonthsAgain, endsOfMonths, Rule.days, or_comm]
  monthDays _ := Iff.rfl
  months n := by simp [endsOfMonthsAgain, endsOfMonths, Rule.months, or_comm]
  setPositions n := by simp [endsOfMonthsAgain, endsOfMonths, Rule.setPositions, or_comm]

/-- Both give the four mornings. -/
theorem endsOfMonths_as_set : ∃ x y,
    (newYearMornings endsOfMonths).expand .standard spring = .ok x ∧
    ((newYearMornings endsOfMonths).withRule (some endsOfMonthsAgain)).expand .standard spring
      = .ok y ∧
    x.occurrences.map (fun o => o.start.wall.date) =
      [.near 2024 1 1, .near 2024 1 29, .near 2024 3 1, .near 2024 3 29] ∧
    y = x.withRule endsOfMonthsAgain := by
  obtain ⟨x, hx, hdates⟩ : ∃ x, (newYearMornings endsOfMonths).expand .standard spring = .ok x ∧
      x.occurrences.map (fun o => o.start.wall.date) =
        [.near 2024 1 1, .near 2024 1 29, .near 2024 3 1, .near 2024 3 29] :=
    exists_ok_of_any (by decide +kernel)
  refine ⟨x, x.withRule endsOfMonthsAgain, hx, ?_, hdates, rfl⟩
  rw [expand_of_sameLists rfl sameLists_endsOfMonths, hx]
  rfl

end Event

end RecurringEvents
