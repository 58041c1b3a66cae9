import RecurringEvents.Proofs.Expansion.LastMoment
import Mathlib.Data.List.Sort

/-!
# The cursors that pass

A walk counts the cursors that pass the filters of its rule, and only these give occurrences. Two
walks that come to the same passing cursors may make different steps between them. If neither of
them is cut short, both end after the same number of passing cursors, whether because of the count,
the last moment or the range, so they give the same.

* `Series.passing`, `Series.passing_eq_of_mem_iff`: the passing cursors of a series.
* `Series.exists_cursorAt_of_reaches`: a date that no step passes over.
* `Walk.FinishesAt`: where a walk ends that is not cut short.
* `Walk.madeBefore_eq_filterMap`: what a walk gives, from its passing cursors.
* `Walk.CountsAlike.madeBefore`: two walks with the same passing cursors.
-/

namespace RecurringEvents

/-! ## The passing cursors of a series -/

namespace Series

variable {s t : Series} {c d : Wall} {n k : Nat}

/-- Whether a wall time is one of the cursors. -/
def IsCursor (s : Series) (c : Wall) : Prop := ∃ n, s.cursorAt n = some c

/-- The cursors that pass the filters. -/
def passing (s : Series) : List Wall := s.cursors.filter s.rule.passes

theorem mem_cursors_iff : c ∈ s.cursors ↔ s.IsCursor c := by
  simp only [List.mem_iff_getElem?, getElem?_cursors, IsCursor]

theorem mem_passing_iff : c ∈ s.passing ↔ s.IsCursor c ∧ s.rule.passes c = true := by
  rw [passing, List.mem_filter, mem_cursors_iff]

/-- Whether a wall time is on an earlier date than another one. -/
def IsEarlier (c d : Wall) : Prop := c.date.dayNumber < d.date.dayNumber

instance : Std.Irrefl IsEarlier := ⟨fun _ => Int.lt_irrefl _⟩

instance : Std.Antisymm IsEarlier := ⟨fun _ _ h h' => absurd h (Int.not_lt.2 (Int.le_of_lt h'))⟩

/-- The cursors are on later and later dates. -/
theorem pairwise_cursors (s : Series) : s.cursors.Pairwise IsEarlier := by
  refine List.pairwise_iff_getElem.2 fun i j hi hj hij => ?_
  refine later_of_cursorAt (s := s) hij ?_ ?_
  · rw [← getElem?_cursors, List.getElem?_eq_getElem hi]
  · rw [← getElem?_cursors, List.getElem?_eq_getElem hj]

/-- **Two series that come to the same passing cursors come to them in the same order.** -/
theorem passing_eq_of_mem_iff
    (h : ∀ c, s.IsCursor c ∧ s.rule.passes c = true ↔ t.IsCursor c ∧ t.rule.passes c = true) :
    s.passing = t.passing :=
  List.Pairwise.eq_of_mem_iff (s.pairwise_cursors.filter _) (t.pairwise_cursors.filter _)
    fun c => mem_passing_iff.trans ((h c).trans mem_passing_iff.symm)

theorem filter_take_cursors (s : Series) (n : Nat) :
    (s.cursors.take n).filter s.rule.passes = s.passing.take (s.passedBefore n) := by
  have hprefix : (s.cursors.take n).filter s.rule.passes <+: s.passing :=
    (List.take_prefix n s.cursors).filter _
  rw [passedBefore, List.countP_eq_length_filter]
  exact List.prefix_iff_eq_take.1 hprefix

/-- What a cursor that passes is among the passing ones. -/
theorem getElem?_passing (hc : s.cursorAt n = some c) (hp : s.rule.passes c = true) :
    s.passing[s.passedBefore n]? = some c := by
  have htake := s.filter_take_cursors (n + 1)
  rw [passedBefore_succ hc, if_pos hp, List.take_add_one, getElem?_cursors, hc,
    List.filter_append, filter_take_cursors, List.take_add_one] at htake
  have hlast := List.append_cancel_left htake
  cases hget : s.passing[s.passedBefore n]? with
  | none =>
    rw [hget] at hlast
    simp [hp] at hlast
  | some d =>
    rw [hget] at hlast
    simpa [hp] using hlast.symm

theorem passedBefore_of_none (h : s.cursorAt n = none) :
    s.passedBefore (n + 1) = s.passedBefore n := by
  rw [passedBefore, passedBefore, List.take_add_one, getElem?_cursors, h, Option.toList_none,
    List.append_nil]

/-- Every number of passing cursors up to one is reached at a passing cursor. -/
theorem exists_passes_of_lt (h : k < s.passedBefore n) :
    ∃ j < n, ∃ c, s.cursorAt j = some c ∧ s.rule.passes c = true ∧ s.passedBefore j = k := by
  induction n with
  | zero => exact absurd h (Nat.not_lt_zero k)
  | succ n ih =>
    cases hc : s.cursorAt n with
    | none =>
      rw [passedBefore_of_none hc] at h
      obtain ⟨j, hj, hrest⟩ := ih h
      exact ⟨j, Nat.lt_succ_of_lt hj, hrest⟩
    | some c =>
      rw [passedBefore_succ hc] at h
      by_cases hlt : k < s.passedBefore n
      · obtain ⟨j, hj, hrest⟩ := ih hlt
        exact ⟨j, Nat.lt_succ_of_lt hj, hrest⟩
      · by_cases hp : s.rule.passes c = true
        · rw [if_pos hp] at h
          exact ⟨n, Nat.lt_succ_self n, c, hc, hp, by omega⟩
        · rw [if_neg hp] at h
          omega

/-- A passing cursor that is not among those before the `n`-th cursor does not come before it. -/
theorem exists_cursorAt_of_passing (h : s.passing[s.passedBefore n]? = some c) :
    ∃ m, n ≤ m ∧ s.cursorAt m = some c := by
  have hsplit : s.passing = s.passing.take (s.passedBefore n)
      ++ (s.cursors.drop n).filter s.rule.passes := by
    rw [← filter_take_cursors, ← List.filter_append, List.take_append_drop, passing]
  have hlength : (s.passing.take (s.passedBefore n)).length = s.passedBefore n := by
    rw [← filter_take_cursors, ← List.countP_eq_length_filter, passedBefore]
  rw [hsplit, List.getElem?_append_right (Nat.le_of_eq hlength), hlength, Nat.sub_self] at h
  obtain ⟨hmem, -⟩ := List.mem_filter.1 (List.mem_of_getElem? h)
  obtain ⟨i, hi⟩ := List.mem_iff_getElem?.1 hmem
  rw [List.getElem?_drop, getElem?_cursors] at hi
  exact ⟨n + i, Nat.le_add_right n i, hi⟩

theorem exists_cursorAt_of_le (hnk : n ≤ k) (h : s.cursorAt k = some c) :
    ∃ d, s.cursorAt n = some d := by
  rw [← getElem?_cursors] at h
  have hlt := (List.getElem?_eq_some_iff.1 h).1
  rw [← getElem?_cursors, List.getElem?_eq_getElem (Nat.lt_of_le_of_lt hnk hlt)]
  exact ⟨_, rfl⟩

/-- **A date that the first cursor is not after and that no step passes over is the date of a
cursor.** -/
theorem exists_cursorAt_of_reaches {date : Date} (hc : s.firstCursor = some c)
    (hle : c.date.dayNumber ≤ date.dayNumber)
    (hstep : ∀ c, s.IsCursor c → c.date.dayNumber < date.dayNumber →
      ∃ d, s.step c = some d ∧ d.date.dayNumber ≤ date.dayNumber) :
    ∃ d, s.IsCursor d ∧ d.date = date := by
  -- as long as the date is not met, every cursor is at least a day later than the one before it
  have hahead : ∀ k : Nat, (∃ d, s.IsCursor d ∧ d.date = date) ∨
      ∃ d, s.cursorAt k = some d ∧ c.date.dayNumber + k ≤ d.date.dayNumber ∧
        d.date.dayNumber ≤ date.dayNumber := by
    intro k
    induction k with
    | zero => exact Or.inr ⟨c, hc, by omega, hle⟩
    | succ k ih =>
      rcases ih with hmet | ⟨d, hd, hlow, hhigh⟩
      · exact Or.inl hmet
      · rcases Int.lt_or_eq_of_le hhigh with hlt | heq
        · obtain ⟨d', hd', hle'⟩ := hstep d ⟨k, hd⟩ hlt
          have hnext : s.cursorAt (k + 1) = some d' := by rw [cursorAt, hd, Option.bind_some, hd']
          have hlater := later_of_cursorAt (Nat.lt_succ_self k) hd hnext
          exact Or.inr ⟨d', hnext, by omega, hle'⟩
        · exact Or.inl ⟨d, ⟨k, hd⟩, Date.dayNumber_inj heq⟩
  refine (hahead (date.dayNumber - c.date.dayNumber + 1).toNat).resolve_right ?_
  rintro ⟨d, -, hlow, hhigh⟩
  omega

end Series

/-! ## What a walk gives -/

namespace Walk

variable {w v : Walk} {rule : Rule} {c : Wall} {n k : Nat}

/-- What a passing cursor gives. -/
def givenAt? (w : Walk) (c : Wall) : Option Occurrence :=
  match Moment.localize c w.zone with
  | .ok start =>
    if w.isShown c start then (w.event.occurrenceAt w.zone true start).toOption else none
  | .error _ => none

theorem madeAt?_eq (w : Walk) (n : Nat) : w.madeAt? n =
    (w.series.cursorAt n).bind fun c => if w.rule.passes c then w.givenAt? c else none := by
  unfold madeAt? givenAt?
  congr 1
  funext c
  cases Moment.localize c w.zone with
  | error err => exact (ite_self none).symm
  | ok start =>
    cases w.rule.passes c with
    | true => simp only [Bool.true_and, if_true]
    | false => simp only [Bool.false_and, Bool.false_eq_true, if_false]

/-- **A walk gives what its passing cursors give**, as far as it comes. -/
theorem madeBefore_eq_filterMap (w : Walk) (n : Nat) : w.madeBefore n =
    (w.series.passing.take (w.series.passedBefore n)).filterMap w.givenAt? := by
  rw [← Series.filter_take_cursors]
  induction n with
  | zero => rfl
  | succ n ih =>
    rw [madeBefore_succ, ih, List.take_add_one, List.filter_append, List.filterMap_append,
      Series.getElem?_cursors, madeAt?_eq]
    cases w.series.cursorAt n with
    | none => rfl
    | some c =>
      have hrule : w.series.rule = w.rule := rfl
      cases hp : w.rule.passes c with
      | true =>
        cases hg : w.givenAt? c <;> simp [hrule, hp, hg]
      | false => simp [hrule, hp]

theorem givenAt?_withRule (w : Walk) (rule : Rule) (c : Wall) :
    (w.withRule rule).givenAt? c = (w.givenAt? c).map fun o => o.withRule (some rule) := by
  unfold givenAt?
  have hzone : (w.withRule rule).zone = w.zone := rfl
  have hshown : ∀ start, (w.withRule rule).isShown c start = w.isShown c start := fun _ => rfl
  simp only [hzone, hshown]
  split
  · next start _ =>
    split
    · rw [withRule, Event.occurrenceAt_withRule]
      cases w.event.occurrenceAt w.zone true start <;> rfl
    · rfl
  · rfl

/-! ## Where a walk ends -/

/-- A walk that is not cut short ends at the `n`-th cursor: this is gone, or it is past what is
asked for, or the count of the rule is used up. -/
structure FinishesAt (w : Walk) (n : Nat) : Prop where
  visits : w.Visits n
  ends : ∀ c, w.series.cursorAt n = some c → ∃ start, Moment.localize c w.zone = .ok start ∧
    (w.isPast start = true ∨ ∃ k ∈ w.rule.count, k ≤ (w.series.passedBefore n : Int))

/-- Where a move finishes a walk, the walk ends. -/
theorem Reached.finishesAt {p : Progress} (h : w.Reached p)
    (hmove : w.move p = .stop (.finished false)) : w.FinishesAt p.steps := by
  refine ⟨h.visits, fun c hc => ?_⟩
  rw [← h.cursor] at hc
  rcases move_eq_stop hmove with ⟨hnone, -⟩ | ⟨d, hd, ⟨err, -, hend⟩ | ⟨start, hs, hstop⟩⟩
  · rw [hnone] at hc
    cases hc
  · cases hend
  · cases hc.symm.trans hd
    rcases hstop with hstop | ⟨-, -, -, err, -, hend⟩
    · exact ⟨start, hs, (of_stops?_eq_finished hstop).imp_right h.isCounted_iff.1⟩
    · cases hend

/-- **A run that finishes without being cut short has given what the cursors before its end
give.** -/
theorem exists_finishesAt_of_run (hend : w.run.ending = .finished false) :
    ∃ n, w.FinishesAt n ∧ w.run.occurrences = w.madeBefore n := by
  obtain ⟨p, hp, hmove, hmade⟩ := w.exists_stop_of_run
  exact ⟨p.steps, hp.finishesAt (hend ▸ hmove), hmade⟩

/-! ## Two walks -/

/-- Two walks with the same passing cursors that are past the same starts, and count up to the same
number. -/
structure CountsAlike (w v : Walk) : Prop where
  zone : w.zone = v.zone
  isPast : w.isPast = v.isPast
  count : w.rule.count = v.rule.count
  passing : w.series.passing = v.series.passing

theorem CountsAlike.symm (h : w.CountsAlike v) : v.CountsAlike w :=
  ⟨h.zone.symm, h.isPast.symm, h.count.symm, h.passing.symm⟩

/-- Where one walk is over, the other one has not passed more cursors. -/
theorem CountsAlike.passedBefore_le (h : w.CountsAlike v) (hz : w.zone.IsOrderly)
    (hw : w.FinishesAt n) (hv : v.FinishesAt k) :
    v.series.passedBefore k ≤ w.series.passedBefore n := by
  refine Nat.not_lt.1 fun hlt => ?_
  -- the other one goes on from the next passing cursor
  obtain ⟨j, hj, c, hc, hp, hcount⟩ := Series.exists_passes_of_lt hlt
  obtain ⟨c', start, hgo⟩ := hv.visits j hj
  cases hc.symm.trans hgo.cursor
  have hnext := Series.getElem?_passing hc hp
  rw [hcount, ← h.passing] at hnext
  obtain ⟨m, hnm, hm⟩ := Series.exists_cursorAt_of_passing hnext
  obtain ⟨d, hd⟩ := Series.exists_cursorAt_of_le hnm hm
  obtain ⟨last, hlast, hpast | ⟨i, hi, hle⟩⟩ := hw.ends d hd
  · have hlocal : Moment.localize c w.zone = .ok start := h.zone ▸ hgo.localized
    have hlater := isPast_of_noLater (Series.noLater_of_cursorAt hz hnm hd hm hlast hlocal) hpast
    rw [h.isPast, hgo.not_past] at hlater
    cases hlater
  · have := hgo.under_count i (h.count ▸ hi)
    omega

/-- **Two walks that count alike give the same**, of which each only carries its rule. -/
theorem CountsAlike.madeBefore (h : w.CountsAlike (w.withRule rule)) (hz : w.zone.IsOrderly)
    (hw : w.FinishesAt n) (hv : (w.withRule rule).FinishesAt k) :
    (w.withRule rule).madeBefore k = (w.madeBefore n).map fun o => o.withRule (some rule) := by
  have hsame : (w.withRule rule).series.passedBefore k = w.series.passedBefore n :=
    Nat.le_antisymm (h.passedBefore_le hz hw hv) (h.symm.passedBefore_le hz hv hw)
  rw [madeBefore_eq_filterMap, madeBefore_eq_filterMap, hsame, ← h.passing, List.map_filterMap]
  exact congrArg (List.filterMap · _) (funext (w.givenAt?_withRule rule))

end Walk

end RecurringEvents
