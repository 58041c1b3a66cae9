import RecurringEvents.Proofs.Expansion.Course

/-!
# Rules with one series

The cursors of a rule and the ones it counts depend neither on its last moment nor on the days that
it excludes and adds, and empty lists are as good as absent. A walk by another rule with the same
series makes the same occurrences, which only carry the other rule, and it ends alike if the two
last moments have no start between them. Added occurrences are merged with them alike.

* `Rule.bare`: what the series of a rule depends on.
* `Series.cursorAt_of_bare`, `Series.passedBefore_of_bare`: nothing else matters.
* `Rule.SameSeries`: rules whose series cannot be told apart.
* `Walk.madeBefore_withRule`: what the cursors give.
* `Walk.run_withRule`: the runs, also when they fail.
* `Event.expand_of_seriesRun`: expansions whose series are run alike.
-/

namespace RecurringEvents

/-! ## The series -/

namespace Rule

/-- Whatever holds of the items of an optional list holds of those of the list. -/
theorem forall_mem_getD {α : Type} {p : α → Prop} {o : Option (List α)}
    (h : ∀ l ∈ o, ∀ a ∈ l, p a) : ∀ l ∈ some (o.getD []), ∀ a ∈ l, p a := by
  cases o with
  | none => exact forall_mem_some (List.forall_mem_nil _)
  | some l => exact h

/-- The part of a rule that its series depends on, with its lists written out. -/
def bare (r : Rule) : Rule where
  frequency := r.frequency
  interval := r.interval
  count := r.count
  byDay := some r.days
  byMonthDay := some r.monthDays
  byMonth := some r.months
  bySetPos := some r.setPositions
  weekStart := r.weekStart
  interval_pos := r.interval_pos
  count_pos := r.count_pos
  lastMoment_whole := noLastMoment_whole
  byMonthDay_valid := forall_mem_getD r.byMonthDay_valid
  byMonth_valid := forall_mem_getD r.byMonth_valid
  bySetPos_valid := forall_mem_getD r.bySetPos_valid

variable {r s : Rule}

theorem passes_of_bare (h : r.bare = s.bare) (c : Wall) : r.passes c = s.passes c :=
  congrArg (fun t => t.passes c) h

theorem count_of_bare (h : r.bare = s.bare) : r.count = s.count :=
  congrArg (fun t => t.count) h

end Rule

namespace Series

/-- The series by the bare rule. -/
def bare (s : Series) : Series := { s with rule := s.rule.bare }

theorem firstAfter_bare (s : Series) (n : Nat) (p : Period) :
    s.bare.firstAfter n p = s.firstAfter n p := by
  induction n generalizing p with
  | zero => rfl
  | succ n ih =>
    unfold firstAfter
    simp only [ih]
    rfl

theorem candidateFrom_bare (s : Series) (p : Period) (wanted : Wall → Bool) :
    s.bare.candidateFrom p wanted = s.candidateFrom p wanted := by
  unfold candidateFrom
  rw [firstAfter_bare]
  rfl

theorem step_bare (s : Series) (c : Wall) : s.bare.step c = s.step c := by
  unfold step
  simp only [candidateFrom_bare]
  rfl

/-- The cursors depend on the bare rule only. -/
theorem cursorAt_bare (s : Series) (n : Nat) : s.bare.cursorAt n = s.cursorAt n := by
  induction n with
  | zero =>
    simp only [cursorAt, firstCursor, candidateFrom_bare]
    rfl
  | succ n ih =>
    simp only [cursorAt, ih]
    exact congrArg _ (funext s.step_bare)

variable {s t : Series}

theorem cursorAt_of_bare (h : s.bare = t.bare) (n : Nat) : s.cursorAt n = t.cursorAt n := by
  rw [← cursorAt_bare, h, cursorAt_bare]

theorem step_of_bare (h : s.bare = t.bare) (c : Wall) : s.step c = t.step c := by
  rw [← step_bare, h, step_bare]

/-- How many cursors are counted depends on the bare rule only. -/
theorem passedBefore_of_bare (h : s.bare = t.bare) (n : Nat) :
    s.passedBefore n = t.passedBefore n := by
  have hcursors : s.cursors = t.cursors := List.ext_getElem? fun i => by
    rw [getElem?_cursors, getElem?_cursors, cursorAt_of_bare h]
  have hpasses : s.rule.passes = t.rule.passes :=
    funext (Rule.passes_of_bare (congrArg rule h))
  rw [passedBefore, passedBefore, hcursors, hpasses]

end Series

/-- Whether two rules have the same series from every anchor, and count the same cursors of it up to
the same number. -/
structure Rule.SameSeries (r s : Rule) : Prop where
  firstCursor : ∀ anchor n,
    (⟨r, anchor, n⟩ : Series).firstCursor = (⟨s, anchor, n⟩ : Series).firstCursor
  step : ∀ anchor n, (⟨r, anchor, n⟩ : Series).step = (⟨s, anchor, n⟩ : Series).step
  passes : r.passes = s.passes
  count : r.count = s.count

/-- Rules that are the same when they are bare have one series. -/
theorem Rule.sameSeries_of_bare {r s : Rule} (h : r.bare = s.bare) : r.SameSeries s := by
  have hseries : ∀ anchor n, (⟨r, anchor, n⟩ : Series).bare = (⟨s, anchor, n⟩ : Series).bare :=
    fun anchor n => congrArg (fun t => (⟨t, anchor, n⟩ : Series)) h
  exact {
    firstCursor := fun anchor n => Series.cursorAt_of_bare (hseries anchor n) 0
    step := fun anchor n => funext (Series.step_of_bare (hseries anchor n))
    passes := funext (passes_of_bare h)
    count := count_of_bare h }

/-! ## Occurrences -/

/-- The occurrence with another rule. -/
def Occurrence.withRule (o : Occurrence) (rule : Option Rule) : Occurrence :=
  { o with rule := rule }

/-- What an occurrence shows of itself: its identifier, its start and its end. -/
def Occurrence.slot (o : Occurrence) : String × Moment × Moment := (o.id, o.start, o.finish)

/-- More occurrences show more. -/
theorem Occurrence.slots_ne {os os' : List Occurrence} (h : os.length ≠ os'.length) :
    os.map slot ≠ os'.map slot := by
  intro hsame
  have hlength := congrArg List.length hsame
  rw [List.length_map, List.length_map] at hlength
  exact h hlength

/-- An occurrence is made alike, whatever the rule. -/
theorem Event.occurrenceAt_withRule (e : Event) (rule : Option Rule) (z : Zone) (recurring : Bool)
    (start : Moment) : (e.withRule rule).occurrenceAt z recurring start
      = (e.occurrenceAt z recurring start).map fun o => o.withRule rule := by
  unfold occurrenceAt
  have hduration : (e.withRule rule).duration = e.duration := rfl
  rw [hduration]
  cases lift start.inUtc with
  | error err => rfl
  | ok u =>
    cases lift e.duration with
    | error err => rfl
    | ok d =>
      simp only [bind, Except.bind]
      cases lift (u.add d) with
      | error err => rfl
      | ok v =>
        simp only
        cases lift (v.inZone z) with
        | error err => rfl
        | ok finish =>
          simp only
          split <;> rfl

/-- The run whose occurrences carry another rule. -/
def Run.withRule (r : Run) (rule : Rule) : Run :=
  { r with occurrences := r.occurrences.map fun o => o.withRule (some rule) }

/-- The answer whose occurrences carry another rule. -/
def Expansion.withRule (x : Expansion) (rule : Rule) : Expansion :=
  { x with occurrences := x.occurrences.map fun o => o.withRule (some rule) }

/-- It shows the same. -/
@[simp] theorem Expansion.slots_withRule (x : Expansion) (rule : Rule) :
    (x.withRule rule).occurrences.map Occurrence.slot = x.occurrences.map Occurrence.slot := by
  rw [withRule, List.map_map]
  rfl

namespace Run

variable {rule : Rule}

theorem merge_withRule (ending : Ending) (ss es : List Occurrence) :
    merge ending (ss.map fun o => o.withRule (some rule)) (es.map fun o => o.withRule (some rule))
      = (merge ending ss es).map fun o => o.withRule (some rule) := by
  have hbefore : ∀ o o' : Occurrence, (o.withRule (some rule)).start.before
      (o'.withRule (some rule)).start = o.start.before o'.start := fun _ _ => rfl
  induction ss, es using merge.induct ending with
  | case1 es cut hend =>
    subst hend
    simp only [List.map_nil, merge]
  | case2 es err hend =>
    subst hend
    simp only [List.map_nil, merge]
  | case3 ss hne =>
    cases ss with
    | nil => exact absurd rfl hne
    | cons s ss => simp only [List.map_cons, List.map_nil, merge]
  | case4 s ss e es hlt ih =>
    simp only [List.map_cons] at ih ⊢
    simp only [merge, hbefore, hlt, if_true, List.map_cons, ih]
  | case5 s ss e es hlt ih =>
    simp only [List.map_cons] at ih ⊢
    simp only [merge, hbefore, hlt, Bool.false_eq_true, if_false, List.map_cons, ih]

theorem dropRepeats_withRule (last : Option Moment) (os : List Occurrence) :
    dropRepeats last (os.map fun o => o.withRule (some rule))
      = (dropRepeats last os).map fun o => o.withRule (some rule) := by
  have hstart : ∀ o : Occurrence, (o.withRule (some rule)).start = o.start := fun _ => rfl
  induction os generalizing last with
  | nil => rfl
  | cons o os ih =>
    simp only [List.map_cons, dropRepeats, hstart, ih]
    split <;> rfl

/-- Added occurrences are merged alike. -/
theorem withExtras_withRule (r : Run) (rule : Rule) (extras : List Occurrence) :
    (r.withRule rule).withExtras (extras.map fun o => o.withRule (some rule))
      = (r.withExtras extras).withRule rule := by
  simp only [withExtras, withRule, merge_withRule, dropRepeats_withRule]

end Run

/-- The progress whose occurrences carry another rule. -/
def Progress.withRule (p : Progress) (rule : Rule) : Progress :=
  { p with collected := p.collected.map fun o => o.withRule (some rule) }

/-- The move to a progress whose occurrences carry another rule. -/
def Move.withRule (m : Move) (rule : Rule) : Move :=
  match m with
  | next p => .next (p.withRule rule)
  | stop ending => .stop ending

/-! ## The walk -/

namespace Walk

variable {w : Walk} {rule : Rule}

/-- The walk of the event by another rule. -/
def withRule (w : Walk) (rule : Rule) : Walk :=
  { w with
    event := w.event.withRule (some rule)
    series := { w.series with rule := rule } }

theorem series_withRule (h : rule.bare = w.rule.bare) :
    (w.withRule rule).series.bare = w.series.bare :=
  congrArg (fun r => (⟨r, w.series.anchor, w.series.maxEmptyPeriods⟩ : Series)) h

theorem madeAt?_withRule (h : rule.bare = w.rule.bare) (n : Nat) :
    (w.withRule rule).madeAt? n = (w.madeAt? n).map fun o => o.withRule (some rule) := by
  unfold madeAt?
  rw [Series.cursorAt_of_bare (series_withRule h)]
  cases w.series.cursorAt n with
  | none => rfl
  | some c =>
    have hpasses : (w.withRule rule).rule.passes c = w.rule.passes c := Rule.passes_of_bare h c
    have hshown : ∀ start, (w.withRule rule).isShown c start = w.isShown c start := fun _ => rfl
    have hzone : (w.withRule rule).zone = w.zone := rfl
    simp only [Option.bind_some, hpasses, hshown, hzone]
    split
    · next start hs =>
      split
      · rw [withRule, Event.occurrenceAt_withRule]
        cases w.event.occurrenceAt w.zone true start <;> rfl
      · rfl
    · rfl

/-- **The cursors give the same occurrences, with the other rule.** -/
theorem madeBefore_withRule (h : rule.bare = w.rule.bare) (n : Nat) :
    (w.withRule rule).madeBefore n = (w.madeBefore n).map fun o => o.withRule (some rule) := by
  rw [madeBefore, madeBefore, List.map_filterMap]
  exact congrArg (List.filterMap · (List.range n)) (funext (madeAt?_withRule h))

/-- When a walk stops, in the order of its tests. -/
theorem stops?_eq (w : Walk) (p : Progress) (start : Moment) : w.stops? p start =
    if w.isPast start then some (.finished false)
    else if w.isCounted p then some (.finished false)
    else if w.cap ≤ p.budget then some (.finished true)
    else if w.maxIterations ≤ p.steps then some (.finished true)
    else none := by
  unfold stops? isPast
  cases w.rule.lastMoment.any fun m => m.before start with
  | true => rfl
  | false => cases start.before w.window.finish <;> rfl

/-- Whether the last moment of another rule stops a walk where that of its own rule does. -/
def StopsAlike (w : Walk) (rule : Rule) : Prop :=
  ∀ c start, Moment.localize c w.zone = .ok start →
    (w.withRule rule).isPast start = w.isPast start

/-- A walk is past the same starts with a rule that has the same last moment. -/
theorem isPast_withRule (h : rule.lastMoment = w.rule.lastMoment) :
    (w.withRule rule).isPast = w.isPast := by
  funext start
  unfold isPast
  rw [← h]
  rfl

theorem stopsAlike_of_eq (h : rule.lastMoment = w.rule.lastMoment) : w.StopsAlike rule :=
  fun _ start _ => congrFun (isPast_withRule h) start

/-- **One move.** -/
theorem move_withRule (h : rule.SameSeries w.rule) (hlast : w.StopsAlike rule) (p : Progress) :
    (w.withRule rule).move (p.withRule rule) = (w.move p).withRule rule := by
  unfold move
  have hcursor : (p.withRule rule).cursor = p.cursor := rfl
  rw [hcursor]
  cases p.cursor with
  | none => rfl
  | some c =>
    have hzone : (w.withRule rule).zone = w.zone := rfl
    have hstep : (w.withRule rule).series.step c = w.series.step c :=
      congrFun (h.step w.series.anchor w.series.maxEmptyPeriods) c
    have hpasses : (w.withRule rule).rule.passes c = w.rule.passes c := congrFun h.passes c
    simp only [hzone, hstep, hpasses]
    cases hs : Moment.localize c w.zone with
    | error err => rfl
    | ok start =>
      have hcounted : (w.withRule rule).isCounted (p.withRule rule) = w.isCounted p := by
        unfold isCounted
        rw [← h.count]
        rfl
      have hstops : (w.withRule rule).stops? (p.withRule rule) start = w.stops? p start := by
        rw [stops?_eq, stops?_eq, hlast c start hs, hcounted]
        rfl
      have hshown : (w.withRule rule).isShown c start = w.isShown c start := rfl
      simp only [hstops, hshown]
      cases w.stops? p start with
      | some ending => rfl
      | none =>
        simp only
        split
        · rfl
        · split
          · rfl
          · rw [show (w.withRule rule).event = w.event.withRule (some rule) from rfl,
              Event.occurrenceAt_withRule]
            cases w.event.occurrenceAt w.zone true start <;> rfl

theorem runFrom_withRule (h : rule.SameSeries w.rule) (hlast : w.StopsAlike rule) (n : Nat)
    (p : Progress) :
    (w.withRule rule).runFrom n (p.withRule rule) = (w.runFrom n p).withRule rule := by
  have hreverse : ∀ p : Progress, (p.withRule rule).collected.reverse
      = p.collected.reverse.map fun o => o.withRule (some rule) :=
    fun p => List.map_reverse.symm
  induction n generalizing p with
  | zero => rw [runFrom, runFrom, hreverse, Run.withRule]
  | succ n ih =>
    unfold runFrom
    rw [move_withRule h hlast]
    cases w.move p with
    | stop ending =>
      simp only [Move.withRule]
      rw [hreverse, Run.withRule]
    | next q => exact ih q

/-- **The whole run**, whether it fails or not. -/
theorem run_withRule (h : rule.SameSeries w.rule) (hlast : w.StopsAlike rule) :
    (w.withRule rule).run = w.run.withRule rule := by
  have hfirst : (w.withRule rule).series.firstCursor = w.series.firstCursor :=
    h.firstCursor w.series.anchor w.series.maxEmptyPeriods
  unfold run
  rw [hfirst]
  exact runFrom_withRule h hlast _ { cursor := w.series.firstCursor }

end Walk

/-! ## The event -/

namespace Event

variable {e : Event} {rule rule' : Rule} {limits : Limits} {c : CheckedQuery}

/-- An event with another rule that excludes the same days walks by that rule. -/
theorem walk_withRule [ZoneDatabase] (hdays : rule'.excluded = rule.excluded) :
    (e.withRule (some rule')).walk rule' limits c
      = (e.walk rule limits c).map fun w => w.withRule rule' := by
  have hzone : (e.withRule (some rule')).calendarZone = e.calendarZone := rfl
  have hwindow : (e.withRule (some rule')).windowOf c = e.windowOf c := rfl
  have hstart : (e.withRule (some rule')).start = e.start := rfl
  unfold walk
  simp only [hzone, hwindow, hstart, hdays]
  cases lift (e.start.inZone e.calendarZone) with
  | error err => rfl
  | ok anchor =>
    cases lift (daysIn e.calendarZone rule.excluded) with
    | error err => rfl
    | ok days => cases e.windowOf c <;> rfl

theorem walk_of_withRule [ZoneDatabase] {w v : Walk} (hdays : rule'.excluded = rule.excluded)
    (hw : e.walk rule limits c = .ok w)
    (hv : (e.withRule (some rule')).walk rule' limits c = .ok v) : v = w.withRule rule' := by
  rw [walk_withRule hdays, hw] at hv
  exact (Except.ok.inj hv).symm

theorem rule_of_walk [ZoneDatabase] {w : Walk} (h : e.walk rule limits c = .ok w) : w.rule = rule
    := by
  obtain ⟨anchor, days, window, -, -, -, rfl⟩ := walk_eq_ok_iff.1 h
  rfl

/-- **The series is run alike**, if the last moments stop it alike. -/
theorem seriesRun_withRule [ZoneDatabase] (h : rule'.SameSeries rule)
    (hdays : rule'.excluded = rule.excluded)
    (hlast : ∀ w, e.walk rule limits c = .ok w → w.StopsAlike rule') :
    (e.withRule (some rule')).seriesRun rule' limits c
      = (e.seriesRun rule limits c).withRule rule' := by
  unfold seriesRun
  rw [walk_withRule hdays]
  cases hw : e.walk rule limits c with
  | error err => rfl
  | ok w => exact Walk.run_withRule (rule_of_walk hw ▸ h) (hlast w hw)

/-- Added occurrences are made alike, whatever the series. -/
theorem extrasIn_withRule [ZoneDatabase] (hdays : rule'.excluded = rule.excluded)
    (hextras : rule'.extras = rule.extras) :
    (e.withRule (some rule')).extrasIn rule' c
      = (e.extrasIn rule c).map (List.map fun o => o.withRule (some rule')) := by
  have hzone : (e.withRule (some rule')).calendarZone = e.calendarZone := rfl
  have hwindow : (e.withRule (some rule')).windowOf c = e.windowOf c := rfl
  have hstart : (e.withRule (some rule')).start = e.start := rfl
  have hmade : (e.withRule (some rule')).occurrenceAt e.calendarZone true
      = fun m => (e.occurrenceAt e.calendarZone true m).map fun o => o.withRule (some rule') :=
    funext (e.occurrenceAt_withRule (some rule') e.calendarZone true)
  unfold extrasIn extraOccurrences
  simp only [hzone, hwindow, hstart, hdays, hextras, hmade, mapM_map_eq]
  cases e.windowOf c with
  | error err => rfl
  | ok window =>
    cases lift (daysIn e.calendarZone rule.excluded) with
    | error err => rfl
    | ok days =>
      cases lift (e.start.inZone e.calendarZone) with
      | error err => rfl
      | ok anchor =>
        simp only [bind, Except.bind]
        cases lift (rule.extras.mapM (extraMoment e.calendarZone anchor.wall)) <;> rfl

/-- **Expansions whose series are run alike are alike**, if the same days are excluded and added:
they show the same occurrences, of which each only carries its rule, or fail for the same reason. -/
theorem expand_of_seriesRun [ZoneDatabase] {q : Query} (hrule : e.rule = some rule)
    (hdays : rule'.excluded = rule.excluded) (hextras : rule'.extras = rule.extras)
    (hrun : ∀ c, q.check limits = .ok c → (e.withRule (some rule')).seriesRun rule' limits c
      = (e.seriesRun rule limits c).withRule rule') :
    (e.withRule (some rule')).expand limits q
      = (e.expand limits q).map fun x => x.withRule rule' := by
  unfold expand
  cases hc : q.check limits with
  | error err => rfl
  | ok c =>
    have hoccurrences : (e.withRule (some rule')).occurrences limits c
        = (e.occurrences limits c).withRule rule' := by
      unfold occurrences
      have hrule' : (e.withRule (some rule')).rule = some rule' := rfl
      simp only [hrule, hrule', hextras, hrun c hc, extrasIn_withRule hdays hextras]
      split
      · rfl
      · cases e.extrasIn rule c with
        | error err => rfl
        | ok extras => exact Run.withExtras_withRule _ rule' extras
    simp only [bind, Except.bind, hoccurrences]
    generalize e.occurrences limits c = run
    obtain ⟨os, ending⟩ := run
    cases ending <;> rfl

/-- **The expansions show the same occurrences, or fail alike**, if nothing is added. -/
theorem slots_withRule [ZoneDatabase] {q : Query} (hrule : e.rule = some rule)
    (hx : rule.extras = []) (hx' : rule'.extras = []) (h : rule'.bare = rule.bare)
    (hdays : rule'.excluded = rule.excluded)
    (hlast : ∀ c w, e.walk rule limits c = .ok w → w.StopsAlike rule') :
    ((e.withRule (some rule')).expand limits q).map (fun x => x.occurrences.map Occurrence.slot)
      = (e.expand limits q).map fun x => x.occurrences.map Occurrence.slot := by
  rw [expand_of_seriesRun hrule hdays (hx'.trans hx.symm)
    fun c _ => seriesRun_withRule (Rule.sameSeries_of_bare h) hdays (hlast c)]
  cases e.expand limits q with
  | error err => rfl
  | ok x =>
    simp only [Except.map, Expansion.slots_withRule]

end Event

end RecurringEvents
