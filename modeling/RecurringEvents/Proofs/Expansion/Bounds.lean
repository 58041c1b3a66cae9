import Mathlib.Data.Finset.Card
import RecurringEvents.Proofs.Expansion.Added
import RecurringEvents.Proofs.Expansion.Course
import RecurringEvents.Proofs.Expansion.Selection

/-!
# The work of a walk is bounded

A walk counts its steps, the cursors that pass the filters, and what it collects. At every point of
it it has collected no more than it has counted and counted no more than it has stepped, and neither
limit is overrun. A walk that is cut short has used up the cap or the steps. So an expansion has no
more occurrences than its limits allow, and one more for every wall time at which an added value
lies.

* `Walk.ComesTo`, `Walk.IsPoint`: the points of a walk.
* `Walk.IsBounded.move`: what one move keeps.
* `Walk.IsPoint.isBounded`: the bounds at every point.
* `Walk.exists_end_of_run`: where a run ends.
* `Event.length_extrasIn_le`: how many occurrences are added.
* `Event.bounds_of_expand`: the expansion.
-/

namespace RecurringEvents

namespace Walk

variable {w : Walk} {p q : Progress}

/-! ## The points of a walk -/

/-- The progress with which a walk looks at its cursors, one after the other. -/
inductive ComesTo (w : Walk) : Progress → Prop
  | start : ComesTo w { cursor := w.series.firstCursor }
  | move {p q : Progress} (h : ComesTo w p) (hmove : w.move p = .next q) : ComesTo w q

/-- All points of a walk: where it looks at a cursor, where it has counted the step that it makes
from there, and where it has counted the cursor as well but not yet collected its occurrence. -/
inductive IsPoint (w : Walk) : Progress → Prop
  | between {p : Progress} (h : ComesTo w p) : IsPoint w p
  | stepped {p : Progress} {c : Wall} {start : Moment} (h : ComesTo w p) (hc : p.cursor = some c)
      (hs : Moment.localize c w.zone = .ok start) (hgo : w.stops? p start = none) :
      IsPoint w { p with steps := p.steps + 1 }
  | counted {p : Progress} {c : Wall} {start : Moment} (h : ComesTo w p) (hc : p.cursor = some c)
      (hs : Moment.localize c w.zone = .ok start) (hgo : w.stops? p start = none)
      (hp : w.rule.passes c = true) :
      IsPoint w { p with steps := p.steps + 1, budget := p.budget + 1 }

/-- The bounds on what a walk has collected, counted and stepped. -/
structure IsBounded (w : Walk) (p : Progress) : Prop where
  collected_le : p.collected.length ≤ p.budget
  budget_le : p.budget ≤ p.steps
  steps_le : (p.steps : Int) ≤ w.maxIterations
  le_cap : (p.budget : Int) ≤ w.cap
  le_count : ∀ n ∈ w.rule.count, (p.budget : Int) ≤ n

/-- At the start nothing is counted. -/
theorem isBounded_start (hcap : 0 ≤ w.cap) (hsteps : 0 ≤ w.maxIterations) :
    w.IsBounded { cursor := w.series.firstCursor } where
  collected_le := Nat.le_refl 0
  budget_le := Nat.le_refl 0
  steps_le := hsteps
  le_cap := hcap
  le_count := by
    intro n hn
    have hpos := w.rule.count_pos n hn
    show (0 : Int) ≤ n
    omega

/-- Where a walk goes on, there is room for one more of everything. -/
theorem room_of_stops? {start : Moment} (hgo : w.stops? p start = none) :
    (p.steps : Int) < w.maxIterations ∧ (p.budget : Int) < w.cap ∧
      ∀ n ∈ w.rule.count, (p.budget : Int) < n := by
  obtain ⟨-, hcount, hcap, hsteps⟩ := stops?_eq_none_iff.1 hgo
  refine ⟨hsteps, hcap, ?_⟩
  intro n hn
  unfold isCounted at hcount
  rw [Option.mem_def.1 hn] at hcount
  simpa using hcount

/-- The bounds hold where a step has been counted. -/
theorem IsBounded.stepped {start : Moment} (h : w.IsBounded p) (hgo : w.stops? p start = none) :
    w.IsBounded { p with steps := p.steps + 1 } := by
  obtain ⟨hsteps, -, -⟩ := room_of_stops? hgo
  have hle := h.budget_le
  exact ⟨h.collected_le, by simp only; omega, by simp only; omega, h.le_cap, h.le_count⟩

/-- They hold where the cursor has been counted as well. -/
theorem IsBounded.counted {start : Moment} (h : w.IsBounded p) (hgo : w.stops? p start = none) :
    w.IsBounded { p with steps := p.steps + 1, budget := p.budget + 1 } := by
  obtain ⟨hsteps, hcap, hcount⟩ := room_of_stops? hgo
  have hcollected := h.collected_le
  have hle := h.budget_le
  refine ⟨by simp only; omega, by simp only; omega, by simp only; omega, by simp only; omega, ?_⟩
  intro n hn
  have := hcount n hn
  simp only
  omega

/-- **One move keeps the bounds.** -/
theorem IsBounded.move (h : w.IsBounded p) (hmove : w.move p = .next q) : w.IsBounded q := by
  obtain ⟨c, start, hm⟩ := moves_of_move hmove
  obtain ⟨hsteps, hcap, hcount⟩ := room_of_stops? hm.goes_on
  have hcollected := h.collected_le
  have hle := h.budget_le
  have hqsteps := hm.steps
  have hqbudget := hm.budget
  -- an occurrence is collected only for a cursor that is counted
  have hroom : q.collected.length + p.budget ≤ p.collected.length + q.budget ∧
      q.budget ≤ p.budget + 1 := by
    have hq := hm.collected
    cases hp : w.rule.passes c with
    | false =>
      rw [hp] at hqbudget hq
      simp only [Bool.false_eq_true, false_and, if_false] at hqbudget hq
      rw [hq]
      omega
    | true =>
      rw [hp] at hqbudget hq
      simp only [true_and, if_true] at hqbudget hq
      split at hq
      · obtain ⟨o, -, hq⟩ := hq
        rw [hq, List.length_cons]
        omega
      · rw [hq]
        omega
  refine ⟨by omega, by omega, by omega, by omega, ?_⟩
  intro n hn
  have := hcount n hn
  omega

/-- A whole walk keeps the bounds. -/
theorem ComesTo.isBounded (hcap : 0 ≤ w.cap) (hsteps : 0 ≤ w.maxIterations) (h : w.ComesTo p) :
    w.IsBounded p := by
  induction h with
  | start => exact isBounded_start hcap hsteps
  | move _ hmove ih => exact ih.move hmove

/-- **The bounds hold at every point of a walk.** -/
theorem IsPoint.isBounded (hcap : 0 ≤ w.cap) (hsteps : 0 ≤ w.maxIterations) (h : w.IsPoint p) :
    w.IsBounded p := by
  cases h with
  | between h => exact h.isBounded hcap hsteps
  | stepped h _ _ hgo => exact (h.isBounded hcap hsteps).stepped hgo
  | counted h _ _ hgo _ => exact (h.isBounded hcap hsteps).counted hgo

/-! ## Where it ends -/

/-- A run ends where a move of the walk stops, with what has been collected there. -/
theorem exists_end_of_run (w : Walk) : ∃ p, w.ComesTo p ∧ w.move p = .stop w.run.ending ∧
    w.run.occurrences = p.collected.reverse := by
  obtain ⟨p, -, hp, hstop, hmade⟩ := exists_kept_of_runFrom w.ComesTo
    (fun _ _ _ hp hmove => hp.move hmove) w.reached_start ComesTo.start (Nat.add_zero _)
  exact ⟨p, hp, hstop, hmade⟩

/-- A walk that is cut short has used up the cap or the steps. -/
theorem spent_of_cut (hmove : w.move p = .stop (.finished true)) :
    w.cap ≤ (p.budget : Int) ∨ w.maxIterations ≤ (p.steps : Int) := by
  rcases move_eq_stop hmove with ⟨-, hcut⟩ | ⟨c, -, ⟨err, -, hfailed⟩ | ⟨start, -, hstop⟩⟩
  · cases hcut
  · cases hfailed
  · rcases hstop with hstop | ⟨-, -, -, err, -, hfailed⟩
    · exact (of_stops?_eq_cut hstop).2.2
    · cases hfailed

end Walk

/-! ## Added occurrences -/

theorem Run.length_merge_le (ending : Ending) (ss es : List Occurrence) :
    (merge ending ss es).length ≤ ss.length + es.length := by
  induction ss, es using merge.induct ending with
  | case1 es cut hend =>
    subst hend
    simp [merge]
  | case2 es err hend =>
    subst hend
    simp [merge]
  | case3 ss hne =>
    rw [merge]
    · simp
    · exact hne
  | case4 s ss e es hbefore ih =>
    rw [merge, if_pos hbefore]
    simp only [List.length_cons] at ih ⊢
    omega
  | case5 s ss e es hbefore ih =>
    rw [merge, if_neg hbefore]
    simp only [List.length_cons] at ih ⊢
    omega

namespace Event

variable {e : Event} {rule : Rule} {limits : Limits} {q : Query} {c : CheckedQuery}

/-- The wall time of the zone of an event at which an added value lies. -/
def addedWall? [ZoneDatabase] (e : Event) (v : TimeValue) : Option Int :=
  (e.start.inZone e.calendarZone).toOption.bind fun anchor =>
    (extraMoment e.calendarZone anchor.wall v).toOption.map fun m => m.wall.count

/-- At how many wall times the added values of a rule lie. -/
def addedCount [ZoneDatabase] (e : Event) (rule : Rule) : Nat :=
  (rule.extras.filterMap e.addedWall?).toFinset.card

/-- There are no more wall times than different values. -/
theorem addedCount_le [ZoneDatabase] (e : Event) (rule : Rule) : e.addedCount rule ≤
    rule.extras.toFinset.card := by
  have hsub : (rule.extras.filterMap e.addedWall?).toFinset.image some
      ⊆ rule.extras.toFinset.image e.addedWall? := by
    intro t ht
    simp only [Finset.mem_image, List.mem_toFinset, List.mem_filterMap] at ht ⊢
    obtain ⟨n, ⟨v, hv, hn⟩, rfl⟩ := ht
    exact ⟨v, hv, hn⟩
  calc e.addedCount rule
      = ((rule.extras.filterMap e.addedWall?).toFinset.image some).card :=
        (Finset.card_image_of_injective _ (Option.some_injective Int)).symm
    _ ≤ (rule.extras.toFinset.image e.addedWall?).card := Finset.card_le_card hsub
    _ ≤ rule.extras.toFinset.card := Finset.card_image_le

/-- **There is at most one added occurrence for each wall time at which an added value lies.** -/
theorem length_extrasIn_le [ZoneDatabase] {os : List Occurrence} (h : e.extrasIn rule c = .ok os) :
    os.length ≤ e.addedCount rule := by
  obtain ⟨hstrict, hfrom⟩ := of_extrasIn_eq_ok h
  have hnodup : (os.map fun o => o.start.wall.count).Nodup := by
    rw [List.Nodup, List.pairwise_map]
    exact hstrict.imp fun hlt => Int.ne_of_lt hlt
  have hsub : (os.map fun o => o.start.wall.count).toFinset
      ⊆ (rule.extras.filterMap e.addedWall?).toFinset := by
    intro t ht
    obtain ⟨o, ho, rfl⟩ := List.mem_map.1 (List.mem_toFinset.1 ht)
    obtain ⟨-, anchor, hanchor, v, hv, hm⟩ := hfrom o ho
    refine List.mem_toFinset.2 (List.mem_filterMap.2 ⟨v, hv, ?_⟩)
    simp [addedWall?, hanchor, hm, Except.toOption]
  calc os.length = (os.map fun o => o.start.wall.count).toFinset.card := by
        rw [List.toFinset_card_of_nodup hnodup, List.length_map]
    _ ≤ e.addedCount rule := Finset.card_le_card hsub

/-! ## The expansion -/

/-- An expansion has what its walk has collected, and at most one occurrence more for each wall time
at which an added value lies. -/
theorem exists_walk_length_le [ZoneDatabase] {x : Expansion} (hrule : e.rule = some rule)
    (h : e.expand limits q = .ok x) : ∃ c w, q.check limits = .ok c ∧ e.walk rule limits c = .ok w ∧
      w.run.ending = .finished x.cutShort ∧
      x.occurrences.length ≤ w.run.occurrences.length + e.addedCount rule := by
  by_cases hx : rule.extras = []
  · obtain ⟨c, w, hc, hw, hrun⟩ := exists_walk_of_expand hrule hx h
    refine ⟨c, w, hc, hw, congrArg Run.ending hrun, ?_⟩
    rw [hrun]
    exact Nat.le_add_right _ _
  · obtain ⟨c, w, extras, hc, hw, hextras, hend, hmade⟩ := exists_extras_of_expand hrule hx h
    refine ⟨c, w, hc, hw, hend, ?_⟩
    calc x.occurrences.length
        ≤ (Run.merge w.run.ending w.run.occurrences extras).length :=
          hmade ▸ (Run.dropRepeats_sublist none _).length_le
      _ ≤ w.run.occurrences.length + extras.length := Run.length_merge_le _ _ _
      _ ≤ w.run.occurrences.length + e.addedCount rule :=
          Nat.add_le_add_left (length_extrasIn_le hextras) _

/-- The least of a cap, the steps and the count of a rule. -/
def most (rule : Rule) (limits : Limits) (cap : Int) : Int :=
  let most := min cap limits.maxIterations
  (rule.count.map (min most)).getD most

theorem le_most_iff {cap k : Int} : k ≤ most rule limits cap ↔
    k ≤ cap ∧ k ≤ limits.maxIterations ∧ ∀ n ∈ rule.count, k ≤ n := by
  unfold most
  cases rule.count with
  | none => simp
  | some n =>
    simp only [Option.map_some, Option.getD_some, Option.mem_def, Option.some.injEq, forall_eq']
    omega

/-- At every point of the walk of an event, it has counted no more than its limits allow. -/
theorem isBounded_of_isPoint [ZoneDatabase] {w : Walk} {p : Progress}
    (hsteps : 1 ≤ limits.maxIterations) (hc : q.check limits = .ok c)
    (hw : e.walk rule limits c = .ok w) (hp : w.IsPoint p) :
    p.collected.length ≤ p.budget ∧ p.budget ≤ p.steps ∧ (p.steps : Int) ≤ limits.maxIterations ∧
      (p.budget : Int) ≤ most rule limits (q.cap.getD limits.maxInstances) := by
  obtain ⟨-, -, hcap, hpos⟩ := Query.check_eq_ok hc
  obtain ⟨anchor, days, window, -, -, -, rfl⟩ := walk_eq_ok_iff.1 hw
  have hbounded := hp.isBounded (show 0 ≤ c.cap by omega) (show 0 ≤ limits.maxIterations by omega)
  have hlimit : (p.steps : Int) ≤ limits.maxIterations := hbounded.steps_le
  have hle := hbounded.budget_le
  refine ⟨hbounded.collected_le, hle, hlimit, le_most_iff.2 ⟨?_, by omega, hbounded.le_count⟩⟩
  rw [← hcap]
  exact hbounded.le_cap

/--
**The work of an expansion is bounded.** At every point of the walk it has collected no more than it
has counted, counted no more than it has stepped and no more than the cap and the count of the rule
allow, and it has made no more steps than it may. So there are at most as many occurrences as the
least of cap, count and steps, and one more for each wall time at which an added value lies. An
expansion that is cut short has ended with the cap or the steps used up exactly.
-/
theorem bounds_of_expand [ZoneDatabase] (hrule : e.rule = some rule)
    (hsteps : 1 ≤ limits.maxIterations) :
    (∀ c w p, q.check limits = .ok c → e.walk rule limits c = .ok w → w.IsPoint p →
      p.collected.length ≤ p.budget ∧ p.budget ≤ p.steps ∧ (p.steps : Int) ≤ limits.maxIterations ∧
        (p.budget : Int) ≤ most rule limits (q.cap.getD limits.maxInstances)) ∧
    ∀ x, e.expand limits q = .ok x →
      ((x.occurrences.length : Int)
        ≤ most rule limits (q.cap.getD limits.maxInstances) + e.addedCount rule ∧
        e.addedCount rule ≤ rule.extras.toFinset.card) ∧
      ∃ c w p, q.check limits = .ok c ∧ e.walk rule limits c = .ok w ∧ w.ComesTo p ∧
        w.move p = .stop (.finished x.cutShort) ∧
        (x.cutShort = true → (p.budget : Int) = q.cap.getD limits.maxInstances ∨
          (p.steps : Int) = limits.maxIterations) := by
  refine ⟨fun c w p hc hw hp => isBounded_of_isPoint hsteps hc hw hp, ?_⟩
  intro x hx
  obtain ⟨c, w, hc, hw, hend, hlength⟩ := exists_walk_length_le hrule hx
  obtain ⟨p, hp, hstop, hmade⟩ := w.exists_end_of_run
  obtain ⟨hcollected, hbudget, hsteps', hmost⟩ :=
    isBounded_of_isPoint hsteps hc hw (Walk.IsPoint.between hp)
  rw [hend] at hstop
  refine ⟨⟨?_, addedCount_le e rule⟩, c, w, p, hc, hw, hp, hstop, ?_⟩
  · rw [hmade, List.length_reverse] at hlength
    omega
  · intro hcut
    rw [hcut] at hstop
    have hcap := (le_most_iff.1 hmost).1
    obtain ⟨-, -, hq, -⟩ := Query.check_eq_ok hc
    obtain ⟨anchor, days, window, -, -, -, rfl⟩ := walk_eq_ok_iff.1 hw
    rcases Walk.spent_of_cut hstop with hspent | hspent
    · exact Or.inl (Int.le_antisymm hcap (hq ▸ hspent))
    · exact Or.inr (Int.le_antisymm hsteps' hspent)

/-- With a cap of two, the morning before the range and the excluded one use up the cap, and the
three that are there have been added, one of them twice. -/
theorem fourMornings_bounded : ∃ (x : Expansion) (w : Walk) (p : Progress),
    (fourMornings.withRule (some fourDaysAndMore)).expand .standard
      ⟨lateOctober.start, lateOctober.finish, some 2⟩ = .ok x ∧
    x.cutShort = true ∧ x.occurrences.length = 3 ∧
    (x.occurrences.length : Int) ≤ most fourDaysAndMore .standard 2
      + (fourMornings.withRule (some fourDaysAndMore)).addedCount fourDaysAndMore ∧
    w.ComesTo p ∧ w.move p = .stop (.finished x.cutShort) ∧
    ((p.budget : Int) = 2 ∨ (p.steps : Int) = 100000) := by
  obtain ⟨x, hx, hcut, hlength⟩ :
      ∃ x, (fourMornings.withRule (some fourDaysAndMore)).expand .standard
        ⟨lateOctober.start, lateOctober.finish, some 2⟩ = .ok x ∧
        x.cutShort = true ∧ x.occurrences.length = 3 :=
    exists_ok_of_any (by decide +kernel)
  have hrule : (fourMornings.withRule (some fourDaysAndMore)).rule = some fourDaysAndMore := rfl
  obtain ⟨⟨hle, -⟩, c, w, p, -, -, hp, hstop, hspent⟩ :=
    (bounds_of_expand hrule (by decide)).2 x hx
  exact ⟨x, w, p, hx, hcut, hlength, hle, hp, hstop, hspent hcut⟩

end Event

end RecurringEvents
