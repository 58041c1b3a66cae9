import RecurringEvents.Proofs.Expansion.Progress

/-!
# Cursors and the filters of a rule

The cursors of a rule need not pass its filters: a daily cursor comes to every day, whatever the
weekdays that the rule lists. But months and years are searched for candidates, and a week for its
listed days, so where the filters ask for no more than that, every cursor after the first passes.

* `Rule.isCandidateDay_of_passes`: the days that pass are the candidate days.
* `Series.passes_of_mem_candidates`: the candidates of a month or a year.
* `Series.weeklyDays_cases`, `Series.exists_listed_of_weeklyDays`: how far a weekly cursor moves,
  and the weekday that it comes to.
* `Rule.keepsCursors`: rules whose filters ask for no more.
* `Series.passes_of_cursorAt`: all their cursors after the first.
-/

namespace RecurringEvents

/-- The element of an ordered list that is found comes before all others that would do. -/
theorem rel_of_find? {α : Type} {R : α → α → Prop} {p : α → Bool} {l : List α} {a b : α}
    (hl : l.Pairwise R) (h : l.find? p = some a) (hb : b ∈ l) (hp : p b = true) :
    a = b ∨ R a b := by
  obtain ⟨-, before, after, rfl, hnot⟩ := List.find?_eq_some_iff_append.1 h
  rcases List.mem_append.1 hb with hb | hb
  · have := hnot b hb
    rw [hp] at this
    cases this
  · rcases List.mem_cons.1 hb with rfl | hb
    · exact Or.inl rfl
    · have hrest := (List.pairwise_append.1 hl).2.1
      exact Or.inr ((List.pairwise_cons.1 hrest).1 b hb)

namespace Rule

/-- Whether the filters of a rule ask for no more than its frequency gives. -/
def keepsCursors (r : Rule) : Bool :=
  match r.frequency with
  | .daily => r.months = [] && r.monthDays = [] && (r.days = [] || r.hasPositions)
  | .weekly => r.months = [] && r.monthDays = []
  | .monthly => r.months = []
  | .yearly => true

variable {r : Rule} {w : Wall}

theorem passes_iff : r.passes w = true ↔
    (r.months = [] ∨ r.months.contains w.date.month = true) ∧
    (r.monthDays = [] ∨
      r.listsMonthDay (monthLength w.date.year w.date.month) w.date.day = true) ∧
    (r.days = [] ∨ r.hasPositions = true ∨ ∃ e ∈ r.days, e.day = w.date.weekday) := by
  simp only [passes, Bool.and_eq_true, Bool.or_eq_true, decide_eq_true_eq, List.any_eq_true,
    and_assoc, or_assoc]

theorem hasPositions_eq_false_iff : r.hasPositions = false ↔ ∀ e ∈ r.days, e.position = none := by
  simp only [hasPositions, List.any_eq_false, Bool.not_eq_true, Option.isSome_eq_false_iff,
    Option.isNone_iff_eq_none]

/-- A weekday that is listed without a position is listed on every such day of a month. -/
theorem listsWeekday_iff {d : Date} (hpositions : r.hasPositions = false) :
    r.listsWeekday d.year d.month d.day = true ↔ ∃ e ∈ r.days, e.day = d.weekday := by
  rw [Rule.listsWeekday, List.any_eq_true]
  refine exists_congr fun e => and_congr_right fun he => ?_
  rw [hasPositions_eq_false_iff.1 hpositions e he, decide_eq_true_eq]
  exact eq_comm

/-- A candidate day passes the filters of the days. -/
theorem passes_of_isCandidateDay {anchorDay : Int}
    (hmonth : r.months = [] ∨ r.months.contains w.date.month = true)
    (h : r.isCandidateDay anchorDay w.date.year w.date.month w.date.day = true) :
    r.passes w = true := by
  refine passes_iff.2 ⟨hmonth, ?_⟩
  unfold isCandidateDay at h
  simp only at h
  split at h
  · next hdays =>
    obtain ⟨hweekday, hmonthDay⟩ := Bool.and_eq_true_iff.1 h
    refine ⟨by simpa using hmonthDay, Or.inr ?_⟩
    cases hp : r.hasPositions with
    | true => exact Or.inl rfl
    | false => exact Or.inr ((listsWeekday_iff hp).1 hweekday)
  · next hdays =>
    rw [ne_eq, Classical.not_not] at hdays
    split at h
    · exact ⟨Or.inr h, Or.inl hdays⟩
    · next hnone =>
      rw [ne_eq, Classical.not_not] at hnone
      exact ⟨Or.inl hnone, Or.inl hdays⟩

/-- **A day that passes the filters is a candidate day**, if days are listed and none of them has a
position. -/
theorem isCandidateDay_of_passes {anchorDay : Int} (hpositions : r.hasPositions = false)
    (hlists : r.days ≠ [] ∨ r.monthDays ≠ []) (h : r.passes w = true) :
    r.isCandidateDay anchorDay w.date.year w.date.month w.date.day = true := by
  obtain ⟨-, hmonthDay, hweekday⟩ := passes_iff.1 h
  unfold isCandidateDay
  simp only
  split
  · next hdays =>
    have hlisted := (hweekday.resolve_left hdays).resolve_left (Bool.eq_false_iff.1 hpositions)
    rw [(listsWeekday_iff hpositions).2 hlisted]
    simpa using hmonthDay
  · next hdays =>
    have hmonthDays := hlists.resolve_left hdays
    rw [if_pos hmonthDays]
    exact hmonthDay.resolve_left hmonthDays

end Rule

namespace Series

variable {s : Series} {p : Period} {c d : Wall} {n : Nat}

/-! ## Months and years -/

/-- **The candidates of a period pass the filters**, if a monthly rule lists no months. -/
theorem passes_of_mem_candidates (hmonths : s.rule.frequency = .monthly → s.rule.months = [])
    (h : c ∈ s.candidates p) : s.rule.passes c = true := by
  obtain ⟨m, hm, hc⟩ := List.mem_flatMap.1 (Rule.mem_of_mem_pickPlaces h)
  obtain ⟨day, hday, hon⟩ := List.mem_filterMap.1 hc
  obtain ⟨d, hd, rfl⟩ := Option.map_eq_some_iff.1 hon
  obtain ⟨hy, hmonth, hd⟩ := Date.of?_eq_some_iff.1 hd
  have hcandidate := (List.mem_filter.1 hday).2
  rw [← hy, ← hmonth, ← hd] at hcandidate
  refine Rule.passes_of_isCandidateDay ?_ hcandidate
  unfold Rule.candidateMonths at hm
  split at hm
  · next hf => exact Or.inl (hmonths hf)
  · split at hm
    · next hnone => exact Or.inl hnone
    · -- a year is searched in its listed months only
      have := (List.mem_filter.1 hm).2
      rw [← hmonth] at this
      exact Or.inr this

/-- What is found after a period is a candidate. -/
theorem exists_candidate_of_firstAfter (h : s.firstAfter n p = some c) :
    ∃ p, c ∈ s.candidates p := by
  induction n generalizing p with
  | zero => cases h
  | succ n ih =>
    unfold firstAfter at h
    simp only at h
    split at h
    · cases h
    · split at h
      · next a as ha =>
        cases h
        exact ⟨_, ha ▸ List.mem_cons_self⟩
      · exact ih h

/-- What is found from a period on is a candidate. -/
theorem exists_candidate_of_candidateFrom {wanted : Wall → Bool}
    (h : s.candidateFrom p wanted = some c) : ∃ p, c ∈ s.candidates p := by
  unfold candidateFrom at h
  split at h
  · next hd =>
    cases h
    exact ⟨p, List.mem_of_find?_eq_some hd⟩
  · exact exists_candidate_of_firstAfter h

/-! ## Weeks -/

/-- Every listed weekday has a place in the week. -/
theorem mem_weekOffsets_iff {o : Int} : o ∈ s.weekOffsets ↔
    ∃ e ∈ s.rule.days, (e.day.number - (s.rule.weekStart.getD .sunday).number) % 7 = o := by
  unfold weekOffsets
  simp only [List.mem_filter, List.any_eq_true, decide_eq_true_eq, List.mem_cons, List.not_mem_nil,
    or_false]
  constructor
  · rintro ⟨-, h⟩
    exact h
  · rintro ⟨e, he, rfl⟩
    exact ⟨by omega, e, he, rfl⟩

/-- The place of a day in its week. -/
def weekPlace (s : Series) (d : Date) : Int :=
  (d.weekday.number - (s.rule.weekStart.getD .sunday).number) % 7

theorem pairwise_weekOffsets (s : Series) : s.weekOffsets.Pairwise (· < ·) :=
  List.Pairwise.filter _ (by decide)

/-- **How far a weekly cursor moves**: to the next listed place of its week, or from the last one to
the first one of a later week. -/
theorem weeklyDays_cases (hdays : s.rule.days ≠ []) (c : Wall) :
    (∃ o ∈ s.weekOffsets, s.weekPlace c.date < o ∧ s.weeklyDays c = o - s.weekPlace c.date ∧
      ∀ o' ∈ s.weekOffsets, s.weekPlace c.date < o' → o ≤ o') ∨
    (∃ o ∈ s.weekOffsets, s.weeklyDays c = 7 * s.rule.interval - s.weekPlace c.date + o ∧
      (∀ o' ∈ s.weekOffsets, o' ≤ s.weekPlace c.date) ∧ ∀ o' ∈ s.weekOffsets, o ≤ o') := by
  have hsorted := s.pairwise_weekOffsets
  unfold weeklyDays
  simp only
  rw [show (c.date.weekday.number - (s.rule.weekStart.getD .sunday).number) % 7
    = s.weekPlace c.date from rfl]
  cases hw : s.weekOffsets with
  | nil =>
    obtain ⟨e, es, he⟩ := List.exists_cons_of_ne_nil hdays
    have hmem := mem_weekOffsets_iff.2 ⟨e, he ▸ List.mem_cons_self, rfl⟩
    rw [hw] at hmem
    cases hmem
  | cons first rest =>
    rw [hw] at hsorted
    simp only
    split
    · next o ho =>
      refine Or.inl ⟨o, List.mem_of_find?_eq_some ho, by simpa using List.find?_some ho, rfl,
        fun o' ho' hlt => ?_⟩
      rcases rel_of_find? hsorted ho ho' (by simpa using hlt) with rfl | hle
      · exact Int.le_refl _
      · exact Int.le_of_lt hle
    · next hnone =>
      refine Or.inr ⟨first, List.mem_cons_self, by omega, fun o' ho' => ?_, fun o' ho' => ?_⟩
      · simpa using List.find?_eq_none.1 hnone o' ho'
      · rcases List.mem_cons.1 ho' with rfl | ho'
        · exact Int.le_refl _
        · exact Int.le_of_lt ((List.pairwise_cons.1 hsorted).1 o' ho')

/-- **A weekly cursor comes to a listed weekday.** -/
theorem exists_listed_of_weeklyDays (hdays : s.rule.days ≠ [])
    (h : c.addDays? (s.weeklyDays c) = some d) : ∃ e ∈ s.rule.days, e.day = d.date.weekday := by
  obtain ⟨o, ho, k, hk⟩ : ∃ o ∈ s.weekOffsets, ∃ k,
      s.weeklyDays c = o - s.weekPlace c.date + 7 * k := by
    rcases weeklyDays_cases hdays c with ⟨o, ho, -, hmoved, -⟩ | ⟨o, ho, hmoved, -, -⟩
    · exact ⟨o, ho, 0, by omega⟩
    · exact ⟨o, ho, s.rule.interval, by omega⟩
  obtain ⟨e, he, hplace⟩ := mem_weekOffsets_iff.1 ho
  have hdate := (Wall.addDays?_eq_some h).1
  refine ⟨e, he, Weekday.number_inj.1 ?_⟩
  have h0 := e.day.number_nonneg
  have h7 := e.day.number_lt
  simp only [weekPlace, Date.weekday, weekdayOfDayNumber, Weekday.number_ofNumber] at hk ⊢
  omega

/-! ## All cursors -/

/-- **Every cursor after the first passes the filters** of a rule that asks for no more than its
frequency gives. -/
theorem passes_of_cursorAt (h : s.rule.keepsCursors = true) (hc : s.cursorAt (n + 1) = some c) :
    s.rule.passes c = true := by
  obtain ⟨b, -, hstep⟩ := Option.bind_eq_some_iff.1 hc
  unfold Rule.keepsCursors at h
  unfold step at hstep
  cases hf : s.rule.frequency with
  | daily =>
    simp only [hf, Bool.and_eq_true, Bool.or_eq_true, decide_eq_true_eq] at h
    obtain ⟨⟨hmonths, hmonthDays⟩, hdays⟩ := h
    exact Rule.passes_iff.2 ⟨Or.inl hmonths, Or.inl hmonthDays, hdays.imp_right Or.inl⟩
  | weekly =>
    simp only [hf, Bool.and_eq_true, decide_eq_true_eq] at h hstep
    refine Rule.passes_iff.2 ⟨Or.inl h.1, Or.inl h.2, ?_⟩
    by_cases hdays : s.rule.days = []
    · exact Or.inl hdays
    · exact Or.inr (Or.inr (exists_listed_of_weeklyDays hdays hstep))
  | monthly =>
    simp only [hf, decide_eq_true_eq] at h hstep
    obtain ⟨p, hp⟩ := exists_candidate_of_candidateFrom hstep
    exact passes_of_mem_candidates (fun _ => h) hp
  | yearly =>
    simp only [hf] at hstep
    obtain ⟨p, hp⟩ := exists_candidate_of_candidateFrom hstep
    exact passes_of_mem_candidates (fun hm => by rw [hf] at hm; cases hm) hp

end Series

end RecurringEvents
