import RecurringEvents.Expansion.Cursor
import RecurringEvents.Proofs.Calendar.Order

/-!
# The progress of a cursor

Every step of a series moves the cursor to a later date and keeps its time of day, which is that of
the anchor. So no date comes twice, and the series ends with the last date at the latest.

* `Series.time_of_cursorAt`, `Series.pass_of_cursorAt`: what a cursor has from the anchor.
* `Series.later_of_step`: one step.
* `Series.later_of_cursorAt`: the whole walk.
* `Series.getElem?_cursors`: the cursors as a list.
-/

namespace RecurringEvents

/-- What is picked stays in its order. -/
theorem Rule.pickPlaces_sublist {α : Type} (r : Rule) (cs : List α) :
    (r.pickPlaces cs).Sublist cs := by
  unfold pickPlaces
  split
  · exact List.Sublist.refl cs
  · have hpicked := (List.filter_sublist
      (p := fun c => r.listsPlace cs.length c.2) (l := cs.zipIdx)).map Prod.fst
    rwa [List.zipIdx_map_fst] at hpicked

theorem Rule.mem_of_mem_pickPlaces {α : Type} {r : Rule} {cs : List α} {c : α}
    (h : c ∈ r.pickPlaces cs) : c ∈ cs :=
  (r.pickPlaces_sublist cs).subset h

/-- The days by which a cursor of the first pass is moved. -/
theorem Wall.addDays?_eq_some {v w : Wall} {days : Int} (h : v.addDays? days = some w) :
    w.date.dayNumber = v.date.dayNumber + days ∧ w.time = v.time ∧ w.pass = .first := by
  obtain ⟨hc, hp⟩ := count_of_ofCount? h
  have h1 := v.time.nonneg
  have h2 := v.time.lt
  have h3 := w.time.nonneg
  have h4 := w.time.lt
  have hd : w.date.dayNumber = v.date.dayNumber + days ∧ w.time.micros = v.time.micros := by
    simp only [count, dayMicros, epochDayNumber] at *
    omega
  refine ⟨hd.1, ?_, hp⟩
  cases hw : w.time
  cases hv : v.time
  rw [hw, hv] at hd
  simpa using hd.2

namespace Series

/-! ## Candidates -/

variable {s : Series} {p : Period} {c : Wall}

/-- Whether a date lies in a period after `p`. -/
def IsAfter (s : Series) (p : Period) (d : Date) : Prop :=
  if s.rule.frequency = .monthly then 12 * p.year + p.month < 12 * d.year + d.month
  else p.year < d.year

/-- Whether a wall time is the anchor's on some date. -/
def IsOnDate (s : Series) (c : Wall) : Prop := c = s.on c.date

theorem mem_monthCandidates {y m : Int} (h : c ∈ s.monthCandidates y m) :
    s.IsOnDate c ∧ c.date.year = y ∧ c.date.month = m := by
  obtain ⟨day, -, hday⟩ := List.mem_filterMap.1 h
  obtain ⟨d, hd, rfl⟩ := Option.map_eq_some_iff.1 hday
  obtain ⟨hy, hm, -⟩ := Date.of?_eq_some_iff.1 hd
  exact ⟨rfl, hy, hm⟩

/-- A candidate lies in its period. -/
theorem mem_candidates (h : c ∈ s.candidates p) :
    s.IsOnDate c ∧ c.date.year = p.year ∧
      (s.rule.frequency = .monthly → c.date.month = p.month) := by
  obtain ⟨m, hm, hc⟩ := List.mem_flatMap.1 (Rule.mem_of_mem_pickPlaces h)
  obtain ⟨hon, hy, hmonth⟩ := mem_monthCandidates hc
  refine ⟨hon, hy, fun hf => ?_⟩
  rw [Rule.candidateMonths, if_pos hf, List.mem_singleton] at hm
  rw [hmonth, hm]

/-- The next period is a later one. -/
theorem IsAfter.of_next {d : Date} (h : s.IsAfter (s.nextPeriod p) d ∨
    (d.year = (s.nextPeriod p).year ∧
      (s.rule.frequency = .monthly → d.month = (s.nextPeriod p).month))) : s.IsAfter p d := by
  have hi := s.rule.interval_pos
  unfold IsAfter nextPeriod at *
  by_cases hf : s.rule.frequency = .monthly
  · simp only [hf, if_true, true_imp_iff, shiftMonth] at *
    omega
  · simp only [hf, if_false] at *
    omega

/-- What is found after a period is a candidate of a later one. -/
theorem firstAfter_eq_some {n : Nat} (h : s.firstAfter n p = some c) :
    s.IsOnDate c ∧ s.IsAfter p c.date := by
  induction n generalizing p with
  | zero => cases h
  | succ n ih =>
    unfold firstAfter at h
    simp only at h
    split at h
    · cases h
    · split at h
      · next d ds hd =>
        cases h
        obtain ⟨hon, hdate⟩ := mem_candidates (hd ▸ List.mem_cons_self)
        exact ⟨hon, .of_next (Or.inr hdate)⟩
      · obtain ⟨hon, hafter⟩ := ih h
        exact ⟨hon, .of_next (Or.inl hafter)⟩

/-- What is found from a period on is wanted there, or a candidate of a later period. -/
theorem candidateFrom_eq_some {wanted : Wall → Bool} (h : s.candidateFrom p wanted = some c) :
    s.IsOnDate c ∧ (wanted c = true ∨ s.IsAfter p c.date) := by
  unfold candidateFrom at h
  split at h
  · next d hd =>
    cases h
    exact ⟨(mem_candidates (List.mem_of_find?_eq_some hd)).1, Or.inl (List.find?_some hd)⟩
  · obtain ⟨hon, hafter⟩ := firstAfter_eq_some h
    exact ⟨hon, Or.inr hafter⟩

/-- A date in a later period is a later date. -/
theorem IsAfter.dayNumber_lt {d : Wall} (h : s.IsAfter (s.periodOf c) d.date) :
    c.date.dayNumber < d.date.dayNumber := by
  obtain ⟨-, -, hc1, hc2, -⟩ := c.date.valid
  obtain ⟨-, -, hd1, hd2, -⟩ := d.date.valid
  by_cases hy : c.date.year < d.date.year
  · exact Date.dayNumber_lt_of_year_lt hy
  · unfold IsAfter periodOf at h
    by_cases hf : s.rule.frequency = .monthly
    · simp only [hf, if_true] at h
      exact Date.dayNumber_lt_of_month_lt (by omega) (by omega)
    · simp only [hf, if_false] at h
      omega

/-! ## Steps -/

theorem weekOffsets_bounds {o : Int} (h : o ∈ s.weekOffsets) : 0 ≤ o ∧ o ≤ 6 := by
  have := (List.mem_filter.1 h).1
  simp only [List.mem_cons, List.not_mem_nil, or_false] at this
  omega

/-- A weekly cursor moves ahead. -/
theorem weeklyDays_pos (s : Series) (c : Wall) : 1 ≤ s.weeklyDays c := by
  have hi := s.rule.interval_pos
  unfold weeklyDays
  simp only
  split
  · omega
  · next first rest hw =>
    have hf := weekOffsets_bounds (s := s) (o := first) (by rw [hw]; exact List.mem_cons_self)
    split
    · next o ho =>
      have := List.find?_some ho
      simp only [decide_eq_true_eq] at this
      omega
    · omega

/-- Whether the cursor goes from candidate to candidate, by frequency. -/
theorem isPeriodic_iff : s.isPeriodic = true ↔
    s.rule.frequency = .monthly ∨ s.rule.frequency = .yearly := by
  simp [isPeriodic]

/-- A step in days. -/
theorem step_of_not_periodic (h : s.isPeriodic = false) :
    ∃ days, 1 ≤ days ∧ s.step c = c.addDays? days := by
  have hi := s.rule.interval_pos
  unfold isPeriodic at h
  unfold step
  cases hf : s.rule.frequency with
  | daily => exact ⟨_, hi, rfl⟩
  | weekly => exact ⟨_, s.weeklyDays_pos c, rfl⟩
  | monthly => simp [hf] at h
  | yearly => simp [hf] at h

/-- A step from candidate to candidate. -/
theorem step_of_periodic (h : s.isPeriodic = true) :
    s.step c = s.candidateFrom (s.periodOf c) fun d => c.count < d.count := by
  unfold step
  -- both frequencies take the same branch of the step
  rcases isPeriodic_iff.1 h with hf | hf <;> rw [hf]

/-- The cursor that `n` steps lead to from another one. -/
def after (s : Series) (o : Option Wall) : Nat → Option Wall
  | 0 => o
  | n + 1 => (s.after o n).bind s.step

theorem cursorAt_eq_after (s : Series) (n : Nat) : s.cursorAt n = s.after s.firstCursor n := by
  induction n with
  | zero => rfl
  | succ n ih => rw [cursorAt, after, ih]

theorem after_step (s : Series) (c : Wall) (n : Nat) :
    s.after (some c) (n + 1) = s.after (s.step c) n := by
  induction n with
  | zero => rfl
  | succ n ih => rw [after, ih, after]

/-- **A step keeps the time of day and leads to a later date.** -/
theorem later_of_step {d : Wall} (hc : c.time = s.anchor.time) (h : s.step c = some d) :
    d.time = s.anchor.time ∧ c.date.dayNumber < d.date.dayNumber := by
  cases hp : s.isPeriodic with
  | false =>
    obtain ⟨days, hdays, hstep⟩ := step_of_not_periodic (c := c) hp
    obtain ⟨hd, ht, -⟩ := Wall.addDays?_eq_some (hstep ▸ h)
    exact ⟨ht.trans hc, by omega⟩
  | true =>
    rw [step_of_periodic hp] at h
    obtain ⟨hon, hlater⟩ := candidateFrom_eq_some h
    have ht : d.time = s.anchor.time := by rw [hon]; rfl
    refine ⟨ht, ?_⟩
    rcases hlater with hlt | hafter
    · -- in the same period, the candidate is later on the wall
      exact (Wall.count_lt_count_iff (hc.trans ht.symm)).1 (by simpa using hlt)
    · -- in a later period, whatever its day
      exact hafter.dayNumber_lt

/-- The first cursor has the anchor's time of day and its pass. -/
theorem of_firstCursor (h : s.firstCursor = some c) : s.IsOnDate c := by
  unfold firstCursor at h
  split at h
  · exact (candidateFrom_eq_some h).1
  · cases h
    rfl

/-- **Every cursor has the anchor's time of day.** -/
theorem time_of_cursorAt {n : Nat} (h : s.cursorAt n = some c) : c.time = s.anchor.time := by
  induction n generalizing c with
  | zero =>
    rw [of_firstCursor h]
    rfl
  | succ n ih =>
    obtain ⟨b, hb, hc⟩ := Option.bind_eq_some_iff.1 h
    exact (later_of_step (ih hb) hc).1

/-- A cursor that goes from candidate to candidate keeps the anchor's pass; another one drops it
with its first step. -/
theorem pass_of_cursorAt {n : Nat} (h : s.cursorAt n = some c) :
    c.pass = if s.isPeriodic ∨ n = 0 then s.anchor.pass else .first := by
  cases n with
  | zero =>
    rw [if_pos (Or.inr rfl), of_firstCursor h]
    rfl
  | succ n =>
    obtain ⟨b, -, hc⟩ := Option.bind_eq_some_iff.1 h
    cases hp : s.isPeriodic with
    | false =>
      obtain ⟨days, -, hstep⟩ := step_of_not_periodic (c := b) hp
      rw [if_neg (by simp)]
      exact (Wall.addDays?_eq_some (hstep ▸ hc)).2.2
    | true =>
      have hon := (candidateFrom_eq_some (step_of_periodic hp ▸ hc)).1
      rw [if_pos (Or.inl rfl), hon]
      rfl

/-- **Of two cursors the later one is on a later date.** -/
theorem later_of_cursorAt {m n : Nat} (hmn : m < n) {d : Wall} (hc : s.cursorAt m = some c)
    (hd : s.cursorAt n = some d) : c.date.dayNumber < d.date.dayNumber := by
  induction n generalizing d with
  | zero => omega
  | succ n ih =>
    obtain ⟨b, hb, hstep⟩ := Option.bind_eq_some_iff.1 hd
    have hlater := (later_of_step (time_of_cursorAt hb) hstep).2
    rcases Nat.lt_succ_iff_lt_or_eq.1 hmn with hlt | rfl
    · exact Int.lt_trans (ih hlt hb) hlater
    · -- the two cursors are neighbours
      rw [hc] at hb
      cases hb
      exact hlater

/-- No cursor lies before the anchor. -/
theorem anchor_le_of_cursorAt {n : Nat} (h : s.cursorAt n = some c) :
    s.anchor.date.dayNumber ≤ c.date.dayNumber := by
  have hfirst : ∀ d, s.firstCursor = some d → s.anchor.date.dayNumber ≤ d.date.dayNumber := by
    intro d hd
    have hon := of_firstCursor hd
    have htime : s.anchor.time = d.time := by rw [hon]; rfl
    unfold firstCursor at hd
    split at hd
    · rcases (candidateFrom_eq_some hd).2 with hle | hafter
      · have hle := of_decide_eq_true hle
        simp only [Wall.count, htime, dayMicros] at hle
        omega
      · exact Int.le_of_lt hafter.dayNumber_lt
    · cases hd
      exact Int.le_refl _
  cases n with
  | zero => exact hfirst c h
  | succ n =>
    cases hf : s.cursorAt 0 with
    | some d =>
      exact Int.le_trans (hfirst d hf)
        (Int.le_of_lt (later_of_cursorAt (Nat.succ_pos n) hf h))
    | none =>
      -- without a first cursor there is no other one
      have hnone : ∀ m, s.cursorAt m = none := by
        intro m
        induction m with
        | zero => exact hf
        | succ m ih => rw [cursorAt, ih, Option.bind_none]
      rw [hnone] at h
      cases h

/-! ## The list of the cursors -/

/-- The cursors from one on, `n` of them at most. -/
def cursorsFrom (s : Series) : Nat → Option Wall → List Wall
  | 0, _ => []
  | _ + 1, none => []
  | n + 1, some c => c :: s.cursorsFrom n (s.step c)

/-- The cursors of a series. There are no more than dates. -/
def cursors (s : Series) : List Wall := s.cursorsFrom Date.lastDayNumber.toNat s.firstCursor

/-- Whether a list holds all cursors from one on. -/
def Lists (s : Series) : Option Wall → List Wall → Prop
  | o, [] => o = none
  | o, d :: ds => o = some d ∧ s.Lists (s.step d) ds

theorem getElem?_of_lists {o : Option Wall} {ds : List Wall} (h : s.Lists o ds) (n : Nat) :
    ds[n]? = s.after o n := by
  induction ds generalizing o n with
  | nil =>
    cases h
    induction n with
    | zero => rfl
    | succ n ih => rw [after, ← ih]; rfl
  | cons d ds ih =>
    obtain ⟨rfl, hds⟩ := h
    cases n with
    | zero => rfl
    | succ n => rw [List.getElem?_cons_succ, after_step, ih hds]

theorem lists_cursorsFrom {n : Nat} {o : Option Wall} (ht : ∀ c ∈ o, c.time = s.anchor.time)
    (hn : ∀ c ∈ o, Date.lastDayNumber < c.date.dayNumber + n) : s.Lists o (s.cursorsFrom n o) := by
  induction n generalizing o with
  | zero =>
    cases o with
    | none => rfl
    | some c =>
      have := hn c rfl
      have := c.date.dayNumber_le
      omega
  | succ n ih =>
    cases o with
    | none => rfl
    | some c =>
      have hlater : ∀ d ∈ s.step c, d.time = s.anchor.time ∧ c.date.dayNumber < d.date.dayNumber :=
        fun d hd => later_of_step (ht c rfl) hd
      have := hn c rfl
      exact ⟨rfl, ih (fun d hd => (hlater d hd).1) fun d hd => by have := (hlater d hd).2; omega⟩

/-- The list of the cursors is complete. -/
theorem lists_cursors (s : Series) : s.Lists s.firstCursor s.cursors := by
  refine lists_cursorsFrom (fun c hc => time_of_cursorAt (n := 0) hc) fun c _ => ?_
  have := c.date.dayNumber_pos
  have h : (0 : Int) ≤ Date.lastDayNumber := by decide
  omega

/-- **The cursors are listed in the order of the walk.** -/
theorem getElem?_cursors (s : Series) (n : Nat) : s.cursors[n]? = s.cursorAt n := by
  rw [getElem?_of_lists s.lists_cursors, cursorAt_eq_after]

/-- The cursors after one are on later dates. -/
theorem later_of_lists {ds : List Wall} (hc : c.time = s.anchor.time) (h : s.Lists (s.step c) ds) :
    ∀ d ∈ ds, d.time = s.anchor.time ∧ c.date.dayNumber < d.date.dayNumber := by
  induction ds generalizing c with
  | nil =>
    intro d hd
    cases hd
  | cons b bs ih =>
    obtain ⟨hb, hbs⟩ := h
    have hlater := later_of_step hc hb
    intro d hd
    rcases List.mem_cons.1 hd with rfl | hd
    · exact hlater
    · obtain ⟨ht, hlt⟩ := ih hlater.1 hbs d hd
      exact ⟨ht, Int.lt_trans hlater.2 hlt⟩

end Series

end RecurringEvents
