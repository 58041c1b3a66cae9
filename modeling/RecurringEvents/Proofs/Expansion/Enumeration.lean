import RecurringEvents.Proofs.Expansion.Candidates
import RecurringEvents.Proofs.Expansion.Filter
import Mathlib.Data.List.Dedup

/-!
# Candidates as sorted sets

The candidates of a period are found by looking through all days of a month, all months of a year,
all places among the candidates and all places in a week. They may as well be put together from what
the rule lists. Every entry adds its days, those of a weekday in steps of seven, and only those are
left that are also at a listed place of the month; the listed months, the picked candidates and the
places of the listed weekdays are sets, too. Both ways lead to the same lists, once these sets are
sorted.

* `ascending`: a sorted set.
* `Rule.candidateDays_eq`, `Rule.candidateMonths_eq`, `Rule.pickPlaces_eq`: the parts of a period.
* `Series.candidates_eq_gathered`: the candidates of a period.
* `Series.weekOffsets_eq`: the places in a week.
-/

namespace RecurringEvents

open Series (daysOf IsEarlier)

/-! ## Sorted sets -/

/-- The elements of a list, each of them once, in the order of their keys. -/
def ascending {α : Type} [DecidableEq α] (key : α → Int) (l : List α) : List α :=
  l.dedup.mergeSort fun a b => key a ≤ key b

/-- **A list with increasing keys is the sorted set of its elements.** -/
theorem ascending_eq {α : Type} [DecidableEq α] {key : α → Int} {l s : List α}
    (hs : s.Pairwise fun a b => key a < key b) (hmem : ∀ a, a ∈ s ↔ a ∈ l) :
    ascending key l = s := by
  have hkeys : (s.map key).Nodup := (hs.map key fun _ _ => id).imp Int.ne_of_lt
  have hsorted : (ascending key l).Pairwise fun a b => decide (key a ≤ key b) = true :=
    List.pairwise_mergeSort (by simpa using fun a b c => Int.le_trans)
      (by simpa using fun a b => Int.le_total (key a) (key b)) _
  have hperm : (ascending key l).Perm s :=
    (List.mergeSort_perm _ _).trans
      ((List.perm_ext_iff_of_nodup (List.nodup_dedup l) hkeys.of_map).2
        fun a => List.mem_dedup.trans (hmem a).symm)
  -- elements with one key are one element
  refine hperm.eq_of_pairwise (fun a b ha hb hab hba => ?_) hsorted
    (hs.imp fun h => decide_eq_true (Int.le_of_lt h))
  exact List.inj_on_of_nodup_map hkeys (hperm.subset ha) hb
    (Int.le_antisymm (of_decide_eq_true hab) (of_decide_eq_true hba))

/-- The numbers from one to another in steps. -/
def inSteps (step first last : Int) : List Int :=
  (List.range ((last - first) / step + 1).toNat).map fun (i : Nat) => first + step * i

/-! ## Days -/

/-- The days of a month that an entry adds: every seventh day from the first one on its weekday, or
the one at its position if there is one. -/
def DayEntry.daysIn (e : DayEntry) (year month : Int) : List Int :=
  match e.position with
  | some n => (nthWeekday year month e.day n).toList
  | none => inSteps 7 (firstOf year month e.day) (monthLength year month)

/-- In steps of seven from the first day on a weekday one comes to all of them. -/
theorem inSteps_seven (year month : Int) (w : Weekday) :
    inSteps 7 (firstOf year month w) (monthLength year month) = weekdaysOf year month w :=
  (weekdaysOf_eq year month w).symm

namespace Rule

variable {r : Rule} {year month day anchorDay anchorMonth : Int} {p : Period}

/-- The days at the listed places of a month. -/
def placedDays (r : Rule) (lastDay : Int) : List Int := r.monthDays.filterMap (monthDay? lastDay)

/-- The candidate days of a month. They are those that the entries add, and of these the ones at
listed places if there are any; without entries, those at listed places; and if nothing is listed,
the day of the anchor, or the last one of a month that is too short. -/
def gatheredDays (r : Rule) (anchorDay year month : Int) : List Int :=
  let placed := r.placedDays (monthLength year month)
  if r.days ≠ [] then
    let days := r.days.flatMap fun e => e.daysIn year month
    ascending id (if r.monthDays = [] then days else days ∩ placed)
  else if r.monthDays ≠ [] then ascending id placed
  else [min anchorDay (monthLength year month)]

/-- The entries add the days of the month on which a listed weekday falls. -/
theorem exists_mem_daysIn_iff : (∃ e ∈ r.days, day ∈ e.daysIn year month) ↔
    day ∈ daysOf year month ∧ r.listsWeekday year month day = true := by
  rw [listsWeekday, List.any_eq_true, ← exists_and_left]
  refine exists_congr fun e => ?_
  rw [and_left_comm]
  refine and_congr_right fun _ => ?_
  unfold DayEntry.daysIn
  cases hn : e.position with
  | none =>
    simp only [inSteps_seven]
    exact List.mem_filter
  | some n =>
    simp only [Option.mem_toList, decide_eq_true_eq]
    refine ⟨fun h => ⟨?_, h⟩, And.right⟩
    rw [nthWeekday_eq_placed? (e.valid n hn).1] at h
    exact (List.mem_filter.1 (mem_of_placed? h)).1

theorem mem_placedDays_iff : day ∈ r.placedDays (monthLength year month) ↔
    day ∈ daysOf year month ∧ r.listsMonthDay (monthLength year month) day = true := by
  rw [placedDays, List.mem_filterMap, listsMonthDay, List.any_eq_true, mem_daysOf_iff]
  simp only [decide_eq_true_eq]
  refine ⟨fun h => ⟨?_, h⟩, And.right⟩
  obtain ⟨n, -, h⟩ := h
  obtain ⟨hday, hplace⟩ := Option.ite_none_right_eq_some.1 h
  exact Option.some.inj hplace ▸ hday

/-- **The candidate days of a month are gathered from the listed entries and places.** -/
theorem candidateDays_eq (hanchor : 1 ≤ anchorDay) :
    (daysOf year month).filter (r.isCandidateDay anchorDay year month)
      = r.gatheredDays anchorDay year month := by
  have hsorted : ((daysOf year month).filter (r.isCandidateDay anchorDay year month)).Pairwise
      fun a b => id a < id b := (pairwise_daysOf year month).filter _
  unfold gatheredDays
  by_cases hdays : r.days = []
  · rw [if_neg (not_not.2 hdays)]
    by_cases hplaces : r.monthDays = []
    · rw [if_neg (not_not.2 hplaces)]
      refine List.Pairwise.eq_of_mem_iff hsorted (List.pairwise_singleton _ _) fun day => ?_
      have hlength := monthLength_ge year month
      simp only [List.mem_filter, mem_daysOf_iff, isCandidateDay, hdays, hplaces, ne_eq,
        not_true_eq_false, if_false, decide_eq_true_eq, List.mem_singleton]
      omega
    · rw [if_pos hplaces]
      refine (ascending_eq hsorted fun day => ?_).symm
      rw [mem_placedDays_iff, List.mem_filter, isCandidateDay, if_neg (not_not.2 hdays),
        if_pos hplaces]
  · rw [if_pos hdays]
    refine (ascending_eq hsorted fun day => ?_).symm
    rw [List.mem_filter, isCandidateDay, if_pos hdays, Bool.and_eq_true, ← and_assoc,
      ← exists_mem_daysIn_iff]
    by_cases hplaces : r.monthDays = []
    · simp [hplaces]
    · rw [if_neg hplaces, List.mem_inter_iff, List.mem_flatMap, mem_placedDays_iff,
        Bool.or_eq_true, decide_eq_true_eq, or_iff_right hplaces]
      refine and_congr_right fun hentry => (and_iff_right ?_).symm
      exact (exists_mem_daysIn_iff.1 hentry).1

/-! ## Months and places -/

/-- The months in which candidates lie, as they are listed. -/
def gatheredMonths (r : Rule) (anchorMonth : Int) (p : Period) : List Int :=
  if r.frequency = .monthly then [p.month]
  else ascending id (if r.months = [] then [anchorMonth] else r.months)

/-- **The months in which candidates lie are the listed ones**, or that of the anchor. -/
theorem candidateMonths_eq : r.candidateMonths anchorMonth p = r.gatheredMonths anchorMonth p := by
  unfold candidateMonths gatheredMonths
  split
  · rfl
  · split
    · exact (ascending_eq (List.pairwise_singleton _ _) fun _ => Iff.rfl).symm
    · refine (ascending_eq (List.Pairwise.filter _ (by decide)) fun m => ?_).symm
      rw [List.mem_filter, List.contains_iff_mem]
      refine and_iff_right_of_imp fun hm => ?_
      obtain ⟨h1, h12⟩ : IsMonth m := r.bare.byMonth_valid r.months rfl m hm
      simp only [List.mem_cons, List.not_mem_nil, or_false]
      omega

/-- The candidate at a place, found by its index. -/
def candidateAt? (cs : List Wall) (place : Int) : Option Wall :=
  let index := if 0 < place then place - 1 else cs.length + place
  if 0 ≤ index then cs[index.toNat]? else none

/-- The candidates at the listed places; all of them if none is listed. -/
def gatheredPlaces (r : Rule) (cs : List Wall) : List Wall :=
  if r.setPositions = [] then cs
  else ascending Wall.count (r.setPositions.filterMap (candidateAt? cs))

theorem candidateAt?_eq_placed? {cs : List Wall} {place : Int} (h : place ≠ 0) :
    candidateAt? cs place = placed? cs place := by
  refine Option.ext fun c => ?_
  rw [placed?_eq_some_iff h, candidateAt?, Option.ite_none_right_eq_some]
  constructor
  · rintro ⟨hindex, hc⟩
    exact ⟨_, hc, (Int.toNat_of_nonneg hindex).symm⟩
  · rintro ⟨i, hc, hi⟩
    rw [hi]
    exact ⟨Int.natCast_nonneg i, hc⟩

theorem count_lt_of_isEarlier {c d : Wall} (h : IsEarlier c d) : c.count < d.count := by
  have hc := c.time.lt
  have hd := d.time.nonneg
  simp only [IsEarlier, Wall.count, dayMicros] at *
  omega

/-- **The picked candidates are those at the listed places.** -/
theorem pickPlaces_eq {cs : List Wall} (hcs : cs.Pairwise IsEarlier) :
    r.pickPlaces cs = r.gatheredPlaces cs := by
  unfold gatheredPlaces
  split
  · next hnone => rw [pickPlaces, if_pos hnone]
  · next hlisted =>
    refine (ascending_eq ((hcs.sublist (r.pickPlaces_sublist cs)).imp count_lt_of_isEarlier)
      fun c => ?_).symm
    rw [mem_pickPlaces_iff, if_neg hlisted, List.mem_filterMap]
    refine exists_congr fun n => and_congr_right fun hn => ?_
    rw [candidateAt?_eq_placed? (ne_zero_of_mem_setPositions hn)]

end Rule

/-! ## Series -/

namespace Series

variable {s : Series}

/-- The candidates of a period, gathered from what the rule lists. -/
def gathered (s : Series) (p : Period) : List Wall :=
  s.rule.gatheredPlaces ((s.rule.gatheredMonths s.anchor.date.month p).flatMap fun m =>
    (s.rule.gatheredDays s.anchor.date.day p.year m).filterMap fun day =>
      (Date.of? p.year m day).map s.on)

/-- **The candidates of a period are those that are gathered from what the rule lists.** -/
theorem candidates_eq_gathered (s : Series) (p : Period) : s.candidates p = s.gathered p := by
  obtain ⟨-, -, -, -, hanchor, -⟩ := s.anchor.date.valid
  have hmonth : ∀ m, s.monthCandidates p.year m =
      (s.rule.gatheredDays s.anchor.date.day p.year m).filterMap fun day =>
        (Date.of? p.year m day).map s.on := fun m => by
    rw [monthCandidates, Rule.candidateDays_eq hanchor]
  have hall := s.pairwise_allCandidates p
  have hcandidates : s.candidates p = s.rule.pickPlaces (s.allCandidates p) := rfl
  rw [hcandidates, Rule.pickPlaces_eq hall, allCandidates, Rule.candidateMonths_eq, gathered,
    funext hmonth]

/-- **The places in a week are those of the listed weekdays**, each of them once. -/
theorem weekOffsets_eq : s.weekOffsets = ascending id
    (s.rule.days.map fun e => (e.day.number - (s.rule.weekStart.getD .sunday).number) % 7) :=
  (ascending_eq s.pairwise_weekOffsets fun _ => by rw [mem_weekOffsets_iff, List.mem_map]).symm

end Series

end RecurringEvents
