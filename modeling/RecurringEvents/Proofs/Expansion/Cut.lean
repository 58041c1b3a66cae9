import RecurringEvents.Proofs.Expansion.Filter
import RecurringEvents.Proofs.Expansion.Limits
import RecurringEvents.Proofs.Expansion.Order
import RecurringEvents.Proofs.Expansion.Merge

/-!
# Series that are cut short

A walk tests its limits at a cursor before it looks whether the cursor passes the filters. So an
expansion is reported as cut short exactly if the walk without limits goes on from a cursor at which
a limit is used up, whether that cursor and those after it pass or not. Where every cursor passes,
the one that is left out counts.

* `Walk.unlimited`: the walk without limits.
* `Walk.LeavesOut`: a cursor that a limit leaves out.
* `Walk.EndsAt.cut_iff`: when a walk is cut short.
* `Event.leavesOut_of_expand`: the expansion.
-/

namespace RecurringEvents

/-! ## Without limits -/

theorem Series.length_cursorsFrom (s : Series) (n : Nat) (o : Option Wall) :
    (s.cursorsFrom n o).length ≤ n := by
  induction n generalizing o with
  | zero => exact Nat.le_refl 0
  | succ n ih =>
    cases o with
    | none => exact Nat.zero_le _
    | some c => exact Nat.succ_le_succ (ih (s.step c))

/-- A series has fewer cursors than there are dates. -/
theorem Series.lt_of_cursorAt {s : Series} {n : Nat} {c : Wall} (h : s.cursorAt n = some c) :
    (n : Int) < Date.lastDayNumber := by
  rw [← getElem?_cursors] at h
  obtain ⟨hlt, -⟩ := List.getElem?_eq_some_iff.1 h
  have hlength := s.length_cursorsFrom Date.lastDayNumber.toNat s.firstCursor
  have hpos : (0 : Int) ≤ Date.lastDayNumber := by decide
  unfold cursors at hlt
  omega

theorem Series.passedBefore_le (s : Series) (n : Nat) : s.passedBefore n ≤ n :=
  Nat.le_trans List.countP_le_length (List.length_take_le n _)

namespace Walk

instance (w : Walk) (n : Nat) : Decidable (w.IsSpent n) := inferInstanceAs (Decidable (_ ∨ _))

instance (w : Walk) (n : Nat) : Decidable (w.IsOver n) :=
  decidable_of_iff (∀ c ∈ w.series.cursorAt n, ∀ start ∈ (Moment.localize c w.zone).toOption,
      w.isPast start = true ∨ ∃ k ∈ w.rule.count, k ≤ (w.series.passedBefore n : Int))
    ⟨fun h c start hc hs => h c hc start (by rw [hs]; rfl), fun h c hc start hs => by
      cases hlocal : Moment.localize c w.zone with
      | error err => rw [hlocal] at hs; cases hs
      | ok m => rw [hlocal] at hs; cases hs; exact h c start hc hlocal⟩

variable {w : Walk} {n m : Nat} {c d : Wall} {start : Moment} {cut : Bool}

/-- The walk with limits that no series uses up. -/
def unlimited (w : Walk) : Walk := w.withLimits Date.lastDayNumber Date.lastDayNumber

/-- **Without limits a walk goes on where it is not past what is asked for and has not counted
enough.** -/
theorem goesOn_unlimited_iff : w.unlimited.GoesOn n c start ↔
    w.series.cursorAt n = some c ∧ Moment.localize c w.zone = .ok start ∧ w.isPast start = false ∧
      ∀ k ∈ w.rule.count, (w.series.passedBefore n : Int) < k := by
  constructor
  · intro h
    exact ⟨h.cursor, h.localized, h.not_past, h.under_count⟩
  · rintro ⟨hc, hs, hpast, hcount⟩
    have hlt := Series.lt_of_cursorAt hc
    have hle := w.series.passedBefore_le n
    have hcap : (w.series.passedBefore n : Int) < Date.lastDayNumber := by omega
    exact ⟨hc, hs, hpast, hcount, hcap, hlt⟩

theorem GoesOn.unlimited (h : w.GoesOn n c start) : w.unlimited.GoesOn n c start :=
  goesOn_unlimited_iff.2 ⟨h.cursor, h.localized, h.not_past, h.under_count⟩

/-- A limit leaves out the `n`-th cursor: it is used up there, and without limits the walk would
come to this cursor and go on. -/
structure LeavesOut (w : Walk) (n : Nat) (c : Wall) (start : Moment) : Prop where
  visits : w.unlimited.Visits n
  goes_on : w.unlimited.GoesOn n c start
  spent : w.IsSpent n

/-- What is left out comes before the series is over. -/
theorem LeavesOut.lt_of_isOver (h : w.LeavesOut n c start) (hover : w.IsOver m) : n < m := by
  refine Nat.not_le.1 fun hle => ?_
  rcases Nat.eq_or_lt_of_le hle with rfl | hlt
  · exact h.goes_on.not_over.1 hover
  · obtain ⟨d, later, hgo⟩ := h.visits m hlt
    exact hgo.not_over.1 hover

/-- **A walk is cut short exactly if a limit leaves out a cursor.** -/
theorem EndsAt.cut_iff (h : w.EndsAt n cut) :
    cut = true ↔ ∃ m c start, w.LeavesOut m c start := by
  have hvisits : w.unlimited.Visits n := fun m hm => by
    obtain ⟨c, start, hgo⟩ := h.visits m hm
    exact ⟨c, start, hgo.unlimited⟩
  constructor
  · intro hcut
    have hnot : ¬w.IsOver n := fun hover => by
      rw [h.over_iff.1 hover] at hcut
      cases hcut
    simp only [IsOver, Classical.not_forall, not_or, not_exists, not_and] at hnot
    obtain ⟨c, start, hc, hs, hpast, hcount⟩ := hnot
    refine ⟨n, c, start, hvisits, goesOn_unlimited_iff.2 ⟨hc, hs, by simpa using hpast, ?_⟩,
      h.spent hcut⟩
    exact fun k hk => Int.not_le.1 (hcount k hk)
  · rintro ⟨m, c, start, hleft⟩
    refine Bool.not_eq_false _ ▸ fun hcut => ?_
    -- the walk has gone on from every cursor before the end of the series
    obtain ⟨d, later, hgo⟩ := h.visits m (hleft.lt_of_isOver (h.over_iff.2 hcut))
    exact hgo.not_over.2 hleft.spent

/-- Where a rule keeps its cursors, the one that is left out passes the filters. -/
theorem LeavesOut.passes (h : w.LeavesOut n c start) (hkeeps : w.rule.keepsCursors = true)
    (hcap : 1 ≤ w.cap) (hsteps : 1 ≤ w.maxIterations) : w.rule.passes c = true := by
  cases n with
  | zero =>
    -- nothing is used up at the first cursor
    rcases h.spent with hspent | hspent
    · have hnone : w.series.passedBefore 0 = 0 := rfl
      omega
    · omega
  | succ n => exact Series.passes_of_cursorAt hkeeps h.goes_on.cursor

end Walk

/-- A weekday without a position. -/
def DayEntry.plain (d : Weekday) : DayEntry := { day := d, valid := noPosition_valid }

namespace Event

variable {e : Event} {rule : Rule} {limits : Limits} {q : Query} {x : Expansion}

/-- An expansion of a rule is cut short if its series is. -/
theorem exists_run_of_expand [ZoneDatabase] (hrule : e.rule = some rule)
    (h : e.expand limits q = .ok x) :
    ∃ c w, q.check limits = .ok c ∧ e.walk rule limits c = .ok w ∧
      w.run.ending = .finished x.cutShort := by
  by_cases hx : rule.extras = []
  · obtain ⟨c, w, hc, hw, hrun⟩ := exists_walk_of_expand hrule hx h
    exact ⟨c, w, hc, hw, congrArg Run.ending hrun⟩
  · obtain ⟨c, w, -, hc, hw, -, hend, -⟩ := exists_extras_of_expand hrule hx h
    exact ⟨c, w, hc, hw, hend⟩

/--
**An expansion is cut short exactly if a limit leaves out a cursor** to which the walk without
limits would come and from which it would go on. If the rule keeps its cursors and a step may be
made, this cursor passes the filters.
-/
theorem leavesOut_of_expand [ZoneDatabase] (hrule : e.rule = some rule)
    (h : e.expand limits q = .ok x) :
    ∃ c w, q.check limits = .ok c ∧ e.walk rule limits c = .ok w ∧
      (x.cutShort = true ↔ ∃ n d start, w.LeavesOut n d start) ∧
      (rule.keepsCursors = true → 1 ≤ limits.maxIterations → x.cutShort = true →
        ∃ n d start, w.LeavesOut n d start ∧ rule.passes d = true) := by
  obtain ⟨c, w, hc, hw, hend⟩ := exists_run_of_expand hrule h
  obtain ⟨n, hends, -⟩ := Walk.exists_endsAt_of_run hend
  have hcap := (Query.check_eq_ok hc).2.2.2
  refine ⟨c, w, hc, hw, hends.cut_iff, fun hkeeps hsteps hcut => ?_⟩
  obtain ⟨anchor, days, window, -, -, -, rfl⟩ := walk_eq_ok_iff.1 hw
  obtain ⟨m, d, start, hleft⟩ := hends.cut_iff.1 hcut
  exact ⟨m, d, start, hleft, hleft.passes hkeeps hcap hsteps⟩

/-! ## Examples -/

/-- Every Monday, as a rule for every day. -/
def everyMonday : Rule :=
  { Rule.every .daily with byDay := some [{ day := .monday, valid := noPosition_valid }] }

/-- Mornings from the first of January 2024 on, a Monday, by a rule. -/
def newYearMornings (rule : Rule) : Event where
  id := "e"
  start := .ofUtc ⟨.near 2024 1 1, .ofMinutes 540, .first⟩
  finish := .ofUtc ⟨.near 2024 1 1, .ofMinutes 600, .first⟩
  rule := some rule
  finish_after_start := by decide +kernel

/-- The days up to the next Sunday, with a cap of one. -/
def firstWeek : Query where
  start := .ofUtc ⟨.near 2024 1 1, .midnight, .first⟩
  finish := .ofUtc ⟨.near 2024 1 7, .midnight, .first⟩
  cap := some 1

/-- The spring of 2024, with the cap of the limits. -/
def spring : Query where
  start := .ofUtc ⟨.near 2024 1 1, .midnight, .first⟩
  finish := .ofUtc ⟨.near 2024 6 1, .midnight, .first⟩

/-- The series of Mondays is over at its seventh cursor, nothing is used up at the first, and none
of those in between is a Monday. -/
theorem exists_walk_everyMonday : ∃ w, (newYearMornings everyMonday).walk everyMonday .standard
    ⟨firstWeek.start, firstWeek.finish, 1⟩ = .ok w ∧ w.IsOver 6 ∧ ¬w.IsSpent 0 ∧
      ∀ n < 5, ∀ d ∈ w.series.cursorAt (n + 1), everyMonday.passes d = false :=
  exists_ok_of_any (by decide +kernel)

/-- There is one Monday in these days, and the cap of one is enough for it. But the walk comes to
Tuesday with the cap used up, so the expansion is reported as cut short, although no cursor that is
left out is a Monday. -/
theorem everyMonday_cut : ∃ x c w,
    (newYearMornings everyMonday).expand .standard firstWeek = .ok x ∧ x.cutShort = true ∧
    firstWeek.check .standard = .ok c ∧
    (newYearMornings everyMonday).walk everyMonday .standard c = .ok w ∧
    ∀ n d start, w.LeavesOut n d start → everyMonday.passes d = false := by
  obtain ⟨x, hx, hcut⟩ :
      ∃ x, (newYearMornings everyMonday).expand .standard firstWeek = .ok x ∧ x.cutShort = true :=
    exists_ok_of_any (by decide +kernel)
  have hc : firstWeek.check .standard = .ok ⟨firstWeek.start, firstWeek.finish, 1⟩ := rfl
  obtain ⟨w, hw, hover, hfree, hdays⟩ := exists_walk_everyMonday
  refine ⟨x, _, w, hx, hcut, hc, hw, fun n d start hleft => ?_⟩
  cases n with
  | zero => exact absurd hleft.spent hfree
  | succ n => exact hdays n (by have := hleft.lt_of_isOver hover; omega) d hleft.goes_on.cursor

/-- The rule for every day keeps its cursors, so a day was left out indeed. -/
theorem everyDay_cut :
    ∃ x c w, (newYearMornings (.every .daily)).expand .standard firstWeek = .ok x ∧
      x.cutShort = true ∧ firstWeek.check .standard = .ok c ∧
    (newYearMornings (.every .daily)).walk (.every .daily) .standard c = .ok w ∧
    ∃ n d start, w.LeavesOut n d start ∧ (Rule.every .daily).passes d = true := by
  obtain ⟨x, hx, hcut⟩ : ∃ x, (newYearMornings (.every .daily)).expand .standard firstWeek = .ok x ∧
      x.cutShort = true := exists_ok_of_any (by decide +kernel)
  obtain ⟨c, w, hc, hw, -, hpasses⟩ := leavesOut_of_expand rfl hx
  exact ⟨x, c, w, hx, hcut, hc, hw, hpasses rfl (by decide) hcut⟩

end Event

end RecurringEvents
