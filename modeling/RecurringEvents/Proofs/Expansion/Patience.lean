import RecurringEvents.Proofs.Expansion.Cut
import RecurringEvents.Proofs.Expansion.Passing

/-!
# Searches that are given up

The cursor of a monthly or yearly series looks for its next candidate in so many periods and no
more. A walk is given up at a cursor that is gone although a search through more periods would have
found it. A walk that is not given up comes to the same end, with the same occurrences, however many
periods are searched.

* `Series.withPatience`, `Series.cursorAt_withPatience`: what is found is found in more periods,
  too.
* `Walk.GivesUp`, `Walk.FinishesAt.withPatience`: a walk that is not given up.
* `Event.expand_of_passing`: two rules with the same passing cursors give the same.
-/

namespace RecurringEvents

namespace Series

variable {s : Series} {n k : Nat} {N : Int} {p : Period} {c : Wall}

/-- The series with another number of periods in which a candidate has to be found. -/
def withPatience (s : Series) (N : Int) : Series := { s with maxEmptyPeriods := N }

theorem firstAfter_withPatience (s : Series) (N : Int) (n : Nat) (p : Period) :
    (s.withPatience N).firstAfter n p = s.firstAfter n p := by
  induction n generalizing p with
  | zero => rfl
  | succ n ih =>
    unfold firstAfter
    simp only [ih]
    rfl

/-- What is found within some periods is found within more of them. -/
theorem firstAfter_mono (hnk : n ≤ k) (h : s.firstAfter n p = some c) :
    s.firstAfter k p = some c := by
  induction n generalizing k p with
  | zero => cases h
  | succ n ih =>
    obtain ⟨j, rfl⟩ : ∃ j, k = j + 1 := ⟨k - 1, by omega⟩
    unfold firstAfter at h ⊢
    simp only at h ⊢
    split
    · next hyear =>
      rw [if_pos hyear] at h
      cases h
    · next hyear =>
      rw [if_neg hyear] at h
      cases hcs : s.candidates (s.nextPeriod p) with
      | cons d ds =>
        rw [hcs] at h
        exact h
      | nil =>
        rw [hcs] at h
        exact ih (by omega) h

theorem candidateFrom_withPatience {wanted : Wall → Bool} (hN : s.maxEmptyPeriods ≤ N)
    (h : s.candidateFrom p wanted = some c) :
    (s.withPatience N).candidateFrom p wanted = some c := by
  unfold candidateFrom at h ⊢
  have hcandidates : (s.withPatience N).candidates p = s.candidates p := rfl
  have hperiods : (s.withPatience N).maxEmptyPeriods = N := rfl
  rw [hcandidates, hperiods]
  cases hfind : (s.candidates p).find? wanted with
  | some d =>
    rw [hfind] at h
    exact h
  | none =>
    rw [hfind] at h
    rw [firstAfter_withPatience]
    exact firstAfter_mono (by omega) h

theorem step_withPatience {d : Wall} (hN : s.maxEmptyPeriods ≤ N) (h : s.step c = some d) :
    (s.withPatience N).step c = some d := by
  unfold step at h ⊢
  have hrule : (s.withPatience N).rule = s.rule := rfl
  rw [hrule]
  cases hf : s.rule.frequency with
  | daily =>
    rw [hf] at h
    exact h
  | weekly =>
    rw [hf] at h
    exact h
  | monthly =>
    rw [hf] at h
    exact candidateFrom_withPatience hN h
  | yearly =>
    rw [hf] at h
    exact candidateFrom_withPatience hN h

/-- **A cursor stays what it is when more periods are searched.** -/
theorem cursorAt_withPatience (hN : s.maxEmptyPeriods ≤ N) (h : s.cursorAt n = some c) :
    (s.withPatience N).cursorAt n = some c := by
  induction n generalizing c with
  | zero =>
    unfold cursorAt firstCursor at h ⊢
    have hperiodic : (s.withPatience N).isPeriodic = s.isPeriodic := rfl
    rw [hperiodic]
    split at h
    · next hp =>
      rw [if_pos hp]
      exact candidateFrom_withPatience hN h
    · next hp =>
      rw [if_neg hp]
      exact h
  | succ n ih =>
    obtain ⟨b, hb, hstep⟩ := Option.bind_eq_some_iff.1 h
    exact Option.bind_eq_some_iff.2 ⟨b, ih hb, step_withPatience hN hstep⟩

/-- Where no period is searched, their number does not matter. -/
theorem cursorAt_withPatience_of_not_periodic (hp : s.isPeriodic = false) (N : Int) (n : Nat) :
    (s.withPatience N).cursorAt n = s.cursorAt n := by
  have hstep : ∀ c, (s.withPatience N).step c = s.step c := by
    intro c
    unfold isPeriodic at hp
    unfold step
    have hrule : (s.withPatience N).rule = s.rule := rfl
    rw [hrule]
    cases hf : s.rule.frequency with
    | daily => rfl
    | weekly => rfl
    | monthly => simp [hf] at hp
    | yearly => simp [hf] at hp
  induction n with
  | zero =>
    have hperiodic : (s.withPatience N).isPeriodic = false := hp
    rw [cursorAt, cursorAt, firstCursor, firstCursor, hp, hperiodic]
    rfl
  | succ n ih =>
    rw [cursorAt, cursorAt, ih]
    exact congrArg _ (funext hstep)

end Series

/-! ## Walks -/

namespace Walk

variable {w : Walk} {n m : Nat} {N : Int} {c : Wall}

/-- The walk through the series with another number of periods. -/
def withPatience (w : Walk) (N : Int) : Walk := { w with series := w.series.withPatience N }

/-- A walk is given up if it comes to a cursor that is gone, where a search through more periods
would find a candidate. A search that ends with the calendar does not give up. -/
def GivesUp (w : Walk) : Prop :=
  ∃ n N, w.Visits n ∧ w.series.cursorAt n = none ∧ (w.series.withPatience N).cursorAt n ≠ none

/-- Days and weeks are not searched. -/
theorem not_givesUp_of_not_periodic (hp : w.series.isPeriodic = false) : ¬w.GivesUp := by
  rintro ⟨n, N, -, hnone, hsome⟩
  exact hsome (hnone ▸ Series.cursorAt_withPatience_of_not_periodic hp N n)

/-- A walk whose series is over at a cursor that is there is not given up. -/
theorem not_givesUp_of_isOver (hover : w.IsOver n) (hc : w.series.cursorAt n = some c) :
    ¬w.GivesUp := by
  rintro ⟨m, N, hv, hnone, -⟩
  rcases Nat.lt_or_ge n m with hlt | hge
  · obtain ⟨d, start, hgo⟩ := hv n hlt
    exact hgo.not_over.1 hover
  · obtain ⟨d, hd⟩ := Series.exists_cursorAt_of_le hge hc
    rw [hnone] at hd
    cases hd

/-- Up to the end of a walk that is not given up, the cursors do not depend on the number of
periods. -/
theorem Visits.cursorAt_withPatience (hv : w.Visits n) (hnot : ¬w.GivesUp)
    (hN : w.series.maxEmptyPeriods ≤ N) (hmn : m ≤ n) :
    (w.withPatience N).series.cursorAt m = w.series.cursorAt m := by
  cases hc : w.series.cursorAt m with
  | some c => exact Series.cursorAt_withPatience hN hc
  | none =>
    refine Option.not_isSome_iff_eq_none.1 fun hsome => hnot ⟨m, N, ?_, hc, ?_⟩
    · exact fun j hj => hv j (Nat.lt_of_lt_of_le hj hmn)
    · exact Option.isSome_iff_ne_none.1 hsome

/-- **A walk that is not given up ends where it would with more periods, and gives the same.** -/
theorem FinishesAt.withPatience (h : w.FinishesAt n) (hnot : ¬w.GivesUp)
    (hN : w.series.maxEmptyPeriods ≤ N) :
    (w.withPatience N).FinishesAt n ∧ (w.withPatience N).madeBefore n = w.madeBefore n := by
  have hcursor : ∀ m ≤ n, (w.withPatience N).series.cursorAt m = w.series.cursorAt m :=
    fun m hmn => h.visits.cursorAt_withPatience hnot hN hmn
  have hpassed : ∀ m ≤ n,
      (w.withPatience N).series.passedBefore m = w.series.passedBefore m := by
    intro m hmn
    have htake : (w.withPatience N).series.cursors.take m = w.series.cursors.take m := by
      refine List.ext_getElem? fun i => ?_
      rw [List.getElem?_take, List.getElem?_take, Series.getElem?_cursors, Series.getElem?_cursors]
      split
      · next hlt => exact hcursor i (by omega)
      · rfl
    rw [Series.passedBefore, Series.passedBefore, htake]
    rfl
  refine ⟨⟨fun m hm => ?_, fun c hc => ?_⟩, ?_⟩
  · obtain ⟨c, start, hgo⟩ := h.visits m hm
    have hcount := hpassed m (Nat.le_of_lt hm)
    refine ⟨c, start, (hcursor m (Nat.le_of_lt hm)).trans hgo.cursor, hgo.localized, hgo.not_past,
      fun k hk => ?_, ?_, hgo.under_steps⟩
    · rw [hcount]
      exact hgo.under_count k hk
    · rw [hcount]
      exact hgo.under_cap
  · rw [hcursor n (Nat.le_refl n)] at hc
    obtain ⟨start, hs, hend⟩ := h.ends c hc
    refine ⟨start, hs, hend.imp_right ?_⟩
    rw [hpassed n (Nat.le_refl n)]
    exact id
  · unfold madeBefore
    refine List.filterMap_congr fun m hm => ?_
    rw [madeAt?_eq, madeAt?_eq, hcursor m (Nat.le_of_lt (List.mem_range.1 hm))]
    rfl

/-- **Walks by two rules with the same passing cursors run alike**, if neither of them is cut short
or given up. -/
theorem run_withRule_of_passing {rule : Rule} (hz : w.zone.IsOrderly)
    (hlast : rule.lastMoment = w.rule.lastMoment) (hcount : rule.count = w.rule.count)
    (hN : w.series.maxEmptyPeriods ≤ N)
    (hpassing : (w.withPatience N).series.passing
      = ((w.withPatience N).withRule rule).series.passing)
    (hnot : ¬w.GivesUp) (hnot' : ¬(w.withRule rule).GivesUp)
    (hend : w.run.ending = .finished false)
    (hend' : (w.withRule rule).run.ending = .finished false) :
    (w.withRule rule).run = w.run.withRule rule := by
  obtain ⟨n, hn, hmade⟩ := exists_finishesAt_of_run hend
  obtain ⟨k, hk, hmade'⟩ := exists_finishesAt_of_run hend'
  obtain ⟨hn, hsame⟩ := hn.withPatience hnot hN
  obtain ⟨hk, hsame'⟩ := hk.withPatience hnot' hN
  -- with enough periods the two walks count alike
  have halike : (w.withPatience N).CountsAlike ((w.withPatience N).withRule rule) :=
    ⟨rfl, (isPast_withRule hlast).symm, hcount.symm, hpassing⟩
  have hgiven : (w.withRule rule).madeBefore k
      = (w.madeBefore n).map fun o => o.withRule (some rule) := by
    rw [← hsame, ← hsame']
    exact halike.madeBefore hz hn hk
  rw [← hmade, ← hmade'] at hgiven
  calc (w.withRule rule).run
      = ⟨(w.withRule rule).run.occurrences, (w.withRule rule).run.ending⟩ := rfl
    _ = ⟨w.run.occurrences.map fun o => o.withRule (some rule), w.run.ending⟩ := by
        rw [hgiven, hend', hend]
    _ = w.run.withRule rule := rfl

end Walk

/-! ## The expansions -/

namespace Event

variable {e : Event} {rule rule' : Rule} {limits : Limits} {q : Query} {x y : Expansion} {N : Int}

/-- Whether an expansion is given up because so many periods in a row have no candidate, although a
later one has. -/
def GivesUp [ZoneDatabase] (e : Event) (limits : Limits) (q : Query) : Prop :=
  ∃ rule c w, e.rule = some rule ∧ q.check limits = .ok c ∧ e.walk rule limits c = .ok w ∧ w.GivesUp

/-- A walk goes through the series of its event. -/
theorem series_of_walk [ZoneDatabase] {c : CheckedQuery} {w : Walk}
    (h : e.walk rule limits c = .ok w) :
    ∃ anchor, e.start.inZone e.calendarZone = .ok anchor ∧
      w.series = seriesAt rule limits anchor := by
  obtain ⟨anchor, days, window, ha, -, -, rfl⟩ := walk_eq_ok_iff.1 h
  exact ⟨anchor, ha, rfl⟩

/-- The expansion of a daily or weekly rule is never given up. -/
theorem not_givesUp_of_not_periodic [ZoneDatabase] (hrule : e.rule = some rule)
    (hf : rule.frequency = .daily ∨ rule.frequency = .weekly) : ¬e.GivesUp limits q := by
  rintro ⟨rule', c, w, hrule', -, hw, hgives⟩
  cases hrule.symm.trans hrule'
  obtain ⟨anchor, -, hseries⟩ := series_of_walk hw
  refine Walk.not_givesUp_of_not_periodic ?_ hgives
  rw [hseries]
  rcases hf with hf | hf <;> simp [Series.isPeriodic, seriesAt, hf]

/-- An expansion whose series is over at a cursor that is there is not given up. -/
theorem not_givesUp_of_isOver [ZoneDatabase] {k : CheckedQuery} {w : Walk} {n : Nat}
    (hrule : e.rule = some rule)
    (hk : q.check limits = .ok k) (hw : e.walk rule limits k = .ok w) (hover : w.IsOver n)
    (hc : (w.series.cursorAt n).isSome) : ¬e.GivesUp limits q := by
  rintro ⟨rule', k', v, hrule', hk', hv, hgives⟩
  cases hrule.symm.trans hrule'
  cases hk.symm.trans hk'
  cases hw.symm.trans hv
  obtain ⟨c, hc⟩ := Option.isSome_iff_exists.1 hc
  exact Walk.not_givesUp_of_isOver hover hc hgives

/--
**Two rules with the same passing cursors give the same occurrences**, if both expansions are
neither cut short nor given up and the rules have the same count, last moment, excluded days and
additions.
-/
theorem expand_of_passing [ZoneDatabase] (hz : e.calendarZone.IsOrderly)
    (hrule : e.rule = some rule)
    (hdays : rule'.excluded = rule.excluded) (hextras : rule'.extras = rule.extras)
    (hlast : rule'.lastMoment = rule.lastMoment) (hcount : rule'.count = rule.count)
    (hN : limits.maxEmptyPeriods ≤ N)
    (hpassing : ∀ anchor, e.start.inZone e.calendarZone = .ok anchor →
      (⟨rule, anchor.wall, N⟩ : Series).passing = (⟨rule', anchor.wall, N⟩ : Series).passing)
    (hnot : ¬e.GivesUp limits q) (hnot' : ¬(e.withRule (some rule')).GivesUp limits q)
    (h : e.expand limits q = .ok x) (hcut : x.cutShort = false)
    (h' : (e.withRule (some rule')).expand limits q = .ok y) (hcut' : y.cutShort = false) :
    y = x.withRule rule' := by
  have hrule' : (e.withRule (some rule')).rule = some rule' := rfl
  obtain ⟨c, w, hc, hw, hend⟩ := exists_run_of_expand hrule h
  obtain ⟨c', v, hc', hv, hend'⟩ := exists_run_of_expand hrule' h'
  cases hc.symm.trans hc'
  obtain rfl := walk_of_withRule hdays hw hv
  obtain ⟨anchor, ha, hseries⟩ := series_of_walk hw
  obtain rfl := rule_of_walk hw
  have hrun : (w.withRule rule').run = w.run.withRule rule' := by
    have hperiods : w.series.maxEmptyPeriods ≤ N := by
      rw [hseries]
      exact hN
    refine Walk.run_withRule_of_passing (zone_of_walk hw ▸ hz) hlast hcount hperiods ?_
      (fun hgives => hnot ⟨w.rule, c, w, hrule, hc, hw, hgives⟩)
      (fun hgives => hnot' ⟨rule', c, _, hrule', hc, hv, hgives⟩) (hcut ▸ hend) (hcut' ▸ hend')
    have hpatient : (w.withPatience N).series = ⟨w.rule, anchor.wall, N⟩ := by
      rw [Walk.withPatience, Series.withPatience, hseries]
      rfl
    have hpatient' : ((w.withPatience N).withRule rule').series = ⟨rule', anchor.wall, N⟩ := by
      rw [Walk.withRule, hpatient]
    rw [hpatient, hpatient']
    exact hpassing anchor ha
  have hexpand : (e.withRule (some rule')).expand limits q
      = (e.expand limits q).map fun x => x.withRule rule' := by
    refine expand_of_seriesRun hrule hdays hextras fun c' hc' => ?_
    cases hc.symm.trans hc'
    rw [seriesRun, seriesRun, hw, hv]
    exact hrun
  rw [h, h'] at hexpand
  exact Except.ok.inj hexpand

end Event

end RecurringEvents
