import RecurringEvents.Proofs.Expansion.Failure
import RecurringEvents.Proofs.Expansion.Once
import RecurringEvents.Proofs.Expansion.Split

/-!
# Empty ranges

A range that ends when it begins has no time in it, but it lies within an occurrence that is under
way then. What an expansion over such a range gives are these occurrences: those that have started
and are not over. An event without a rule is over when it ends; one with a rule is still found at
that very moment.

* `Walk.run_withWindow`: what a walk collects in a smaller window is a filter of what it collects.
* `Event.IsUnderWay`, `Event.MayStart`: the occurrences that there may be, and those under way.
* `Event.isUnderWay_of_expand`: no others are given.
* `Event.exists_expand_emptyAt`: where none is under way, none is given.
* `Event.expand_emptyAt`: the expansion.
-/

namespace RecurringEvents

namespace Walk

variable {w : Walk} {v : Window} {s : Moment} {n k : Nat} {cut : Bool}

/-! ## Smaller windows -/

/-- Where a walk ends does not depend on the start of its window. -/
theorem EndsAt.withStart (s : Moment) (h : (w.withWindow v).EndsAt k cut) :
    (w.withWindow ⟨s, v.finish⟩).EndsAt k cut := by
  refine ⟨fun m hm => ?_, h.over_iff, h.spent⟩
  obtain ⟨c, start, hgo⟩ := h.visits m hm
  exact ⟨c, start, hgo.cursor, hgo.localized, hgo.not_past, hgo.under_count, hgo.under_cap,
    hgo.under_steps⟩

/-- In a smaller window a cursor gives what it gives anyway, if this starts in the window. -/
theorem madeAt?_withWindow (h : v.IsWithin w.window) (n : Nat) :
    (w.withWindow v).madeAt? n = (w.madeAt? n).filter fun o => v.start.notAfter o.start := by
  refine Option.ext fun o => ?_
  rw [Option.filter_eq_some_iff, madeAt?_eq_some_iff, madeAt?_eq_some_iff]
  constructor
  · rintro ⟨c, hgives⟩
    exact ⟨⟨c, gives_of_withWindow h hgives⟩, (Bool.and_eq_true_iff.1 hgives.shown).2⟩
  · rintro ⟨⟨c, hgives⟩, hstart⟩
    have hday := (Bool.and_eq_true_iff.1 hgives.shown).1
    exact ⟨c, hgives.cursor, hgives.localized, hgives.passes,
      Bool.and_eq_true_iff.2 ⟨hday, hstart⟩, hgives.made⟩

/-- **What a walk collects in a smaller window is what it collects anyway and starts there.** -/
theorem madeBefore_withWindow (hz : w.zone.IsOrderly) (hfinish : v.finish.zone = .utc)
    (h : v.IsWithin w.window) (hw : w.EndsAt n false) (hv : (w.withWindow v).EndsAt k false) :
    (w.withWindow v).madeBefore k = (w.madeBefore n).filter fun o =>
      v.start.notAfter o.start && decide (o.start.instant < v.finish.instant) := by
  have hends := hv.withStart w.window.start
  obtain ⟨j, rfl⟩ := Nat.exists_eq_add_of_le (hw.withWindow h hv).1
  -- what the cursors give from there on starts after the window
  have hlater : ((List.range j).filterMap fun i => w.madeAt? (k + i)).filter (fun o =>
      v.start.notAfter o.start && decide (o.start.instant < v.finish.instant)) = [] := by
    refine List.filter_eq_nil_iff.2 fun o ho => ?_
    obtain ⟨i, hi, hmade⟩ := List.mem_filterMap.1 ho
    obtain ⟨c, hgives⟩ := madeAt?_eq_some_iff.1 hmade
    have hlt : k + i < k + j := Nat.add_lt_add_left (List.mem_range.1 hi) k
    have hle := le_start_of_gives hz hfinish hw hends (Nat.le_add_right k i) hlt hgives
    rw [decide_eq_false (Int.not_lt.2 hle), Bool.and_false]
    exact Bool.false_ne_true
  -- and before it every start is early enough
  have hearly : ∀ o ∈ w.madeBefore k,
      (v.start.notAfter o.start && decide (o.start.instant < v.finish.instant))
        = v.start.notAfter o.start := by
    intro o ho
    obtain ⟨i, hi, c, hgives⟩ := exists_gives_of_mem ho
    rw [decide_eq_true (start_lt_of_gives hfinish hends hi hgives), Bool.and_true]
  rw [madeBefore_add, List.filter_append, hlater, List.append_nil, List.filter_congr hearly,
    madeBefore, madeBefore, List.filter_filterMap]
  exact List.filterMap_congr fun i _ => madeAt?_withWindow h i

/-- **A run that is not cut short is not cut short in a smaller window, and is filtered by it.** -/
theorem run_withWindow (hz : w.zone.IsOrderly) (hfinish : v.finish.zone = .utc)
    (h : v.IsWithin w.window) (hend : w.run.ending = .finished false) :
    (w.withWindow v).run.ending = .finished false ∧
      (w.withWindow v).run.occurrences = w.run.occurrences.filter fun o =>
        v.start.notAfter o.start && decide (o.start.instant < v.finish.instant) := by
  obtain ⟨n, hn, hmade⟩ := exists_endsAt_of_run hend
  obtain ⟨cut, hend'⟩ := run_finished_withWindow h ⟨_, hend⟩
  obtain ⟨k, hk, hmade'⟩ := exists_endsAt_of_run hend'
  obtain ⟨-, rfl⟩ := hn.withWindow h hk
  refine ⟨hend', ?_⟩
  rw [hmade, hmade']
  exact madeBefore_withWindow hz hfinish h hn hk

/-- Whether every cursor that a walk comes to has a moment in its zone. -/
def IsLocalized (w : Walk) : Prop :=
  ∀ n c, w.Visits n → w.series.cursorAt n = some c → ∃ start, Moment.localize c w.zone = .ok start

end Walk

/-- The range that begins and ends at a moment. -/
def Query.emptyAt (t : Moment) (cap : Option Int) : Query := ⟨t, t, cap⟩

/-- A cap below one is refused before anything else. -/
theorem Query.check_of_capBelowOne {q : Query} {limits : Limits}
    (hcap : q.cap.getD limits.maxInstances < 1) :
    q.check limits = .error (.capBelowOne (q.cap.getD limits.maxInstances)) := by
  unfold check
  simp only
  rw [if_pos hcap]
  rfl

/-- The empty range is accepted if the cap is, and the moment has one of UTC. -/
theorem Query.check_emptyAt {t u : Moment} {cap : Option Int} {limits : Limits}
    (hcap : 1 ≤ cap.getD limits.maxInstances) (hu : t.inUtc = .ok u) :
    (emptyAt t cap).check limits = .ok ⟨u, u, cap.getD limits.maxInstances⟩ :=
  check_of_le (q := emptyAt t cap) hcap hu hu (Int.le_refl _)

namespace Event

variable {e : Event} {rule : Rule} {r : Region} {limits : Limits} {c : CheckedQuery}
  {t m : Moment} {cap : Option Int} {o : Occurrence}

/-! ## Occurrences under way -/

/-- Whether an occurrence is under way at `t` that starts at a given moment: it has started and is
not over. With a rule it is not over yet when it ends. -/
structure IsUnderWay (e : Event) (t start : Moment) : Prop where
  started : start.instant < t.instant
  lasting : t.instant ≤ start.instant + e.length
  not_over : e.rule = none → t.instant < start.instant + e.length

instance (e : Event) (t start : Moment) : Decidable (e.IsUnderWay t start) :=
  decidable_of_iff (start.instant < t.instant ∧ t.instant ≤ start.instant + e.length ∧
    (e.rule = none → t.instant < start.instant + e.length))
    ⟨fun h => ⟨h.1, h.2.1, h.2.2⟩, fun h => ⟨h.1, h.2, h.3⟩⟩

/-- With a rule it is under way until its end. -/
theorem isUnderWay_iff_of_rule (hrule : e.rule = some rule) :
    e.IsUnderWay t m ↔ t.instant - e.length ≤ m.instant ∧ m.instant < t.instant := by
  constructor
  · rintro ⟨h1, h2, -⟩
    omega
  · rintro ⟨h1, h2⟩
    refine ⟨h2, by omega, fun hnone => ?_⟩
    rw [hrule] at hnone
    cases hnone

/-- Without a rule it is under way where it overlaps the empty range. -/
theorem isUnderWay_iff_overlaps (hrule : e.rule = none) :
    e.IsUnderWay t e.start ↔ e.Overlaps (.emptyAt t cap) := by
  have hfinish : e.start.instant + e.length = e.finish.instant := by
    rw [length]
    omega
  constructor
  · rintro ⟨h1, -, h3⟩
    exact ⟨h1, hfinish ▸ h3 hrule⟩
  · rintro ⟨h1, h2⟩
    rw [← hfinish] at h2
    exact ⟨h1, Int.le_of_lt h2, fun _ => h2⟩

/-- Whether a rule excludes a day. -/
def Excludes [ZoneDatabase] (e : Event) (rule : Rule) (d : Date) : Prop :=
  ∃ days, daysIn e.calendarZone rule.excluded = .ok days ∧ d ∈ days

/-- Where an event may have an occurrence: at its start if it has no rule, or else at the cursors
that pass the filters and at the added values, as far as their days are not excluded. -/
inductive MayStart [ZoneDatabase] (e : Event) (limits : Limits) (m : Moment) : Prop where
  | single (unruled : e.rule = none) (start : m = e.start)
  | cursor {rule : Rule} {anchor : Moment} {n : Nat} {c : Wall}
      (ruled : e.rule = some rule) (anchored : e.start.inZone e.calendarZone = .ok anchor)
      (cursor : (seriesAt rule limits anchor).cursorAt n = some c)
      (localized : Moment.localize c e.calendarZone = .ok m)
      (passes : rule.passes c = true) (kept : ¬e.Excludes rule c.date)
  | added {rule : Rule} {anchor : Moment} {v : TimeValue}
      (ruled : e.rule = some rule) (anchored : e.start.inZone e.calendarZone = .ok anchor)
      (added : v ∈ rule.extras) (moment : extraMoment e.calendarZone anchor.wall v = .ok m)
      (kept : ¬e.Excludes rule m.wall.date)

/-- A day that is not among those that are computed is not excluded. -/
theorem not_excludes [ZoneDatabase] {days : List Date} {d : Date}
    (hdays : daysIn e.calendarZone rule.excluded = .ok days) (hd : d ∉ days) :
    ¬e.Excludes rule d := by
  rintro ⟨days', hdays', hmem⟩
  cases hdays.symm.trans hdays'
  exact hd hmem

/-- A walk asks for what may start. -/
theorem mayStart_of_asksFor [ZoneDatabase] {w : Walk} {n : Nat} {d : Wall}
    (hrule : e.rule = some rule)
    (hw : e.walk rule limits c = .ok w) (h : w.AsksFor n d m) : e.MayStart limits m := by
  obtain ⟨anchor, days, window, ha, hdays, -, rfl⟩ := walk_eq_ok_iff.1 hw
  have hday : d.date ∉ days := by simpa using (Bool.and_eq_true_iff.1 h.shown).1
  exact .cursor hrule ha h.goes_on.cursor h.goes_on.localized h.passes (not_excludes hdays hday)

/-- What is added in a range may start there. -/
theorem mayStart_of_extraStarts [ZoneDatabase] {q : Query} {ms : List Moment}
    (hrule : e.rule = some rule) (hc : q.check limits = .ok c) (h : e.extraStarts rule c = .ok ms)
    (hm : m ∈ ms) :
    e.MayStart limits m ∧ q.start.instant - e.length ≤ m.instant ∧
      m.instant < q.finish.instant := by
  obtain ⟨window, days, anchor, moments, hwindow, hdays, ha, hmoments, rfl⟩ :=
    extraStarts_eq_ok_iff.1 h
  obtain ⟨d, hd, ⟨hszone, hs⟩, ⟨hfzone, hf⟩⟩ := windowOf_utc hc hwindow
  rcases mem_of_mem_foldl_insertByWall hm with hm | hm
  · obtain ⟨hmem, hshown⟩ := List.mem_filter.1 hm
    obtain ⟨v, hv, hvm⟩ := exists_of_mem_mapM hmoments hmem
    obtain ⟨hrest, hbefore⟩ := Bool.and_eq_true_iff.1 hshown
    obtain ⟨hday, hafter⟩ := Bool.and_eq_true_iff.1 hrest
    rw [Moment.notAfter_of_utc hszone, hs, (duration_eq_ok_iff.1 hd).2.2] at hafter
    rw [Moment.before_of_utc hfzone, hf] at hbefore
    refine ⟨.added hrule ha hv hvm (not_excludes hdays (by simpa using hday)), ?_⟩
    exact ⟨of_decide_eq_true hafter, of_decide_eq_true hbefore⟩
  · cases hm

/-- **What a rule gives in a range may start there**, less than the length of the event before it at
the earliest. -/
theorem mayStart_of_expand [ZoneDatabase] {q : Query} {x : Expansion} (hrule : e.rule = some rule)
    (h : e.expand limits q = .ok x) (ho : o ∈ x.occurrences) :
    e.MayStart limits o.start ∧ q.start.instant - e.length ≤ o.start.instant ∧
      o.start.instant < q.finish.instant := by
  -- those of the series
  have hseries : ∀ {c : CheckedQuery} {w : Walk}, q.check limits = .ok c →
      e.walk rule limits c = .ok w → o ∈ w.run.occurrences →
      e.MayStart limits o.start ∧ q.start.instant - e.length ≤ o.start.instant ∧
        o.start.instant < q.finish.instant := by
    intro c w hc hw hmem
    obtain ⟨n, d, hmakes⟩ := Walk.exists_makes_of_mem_run hmem
    exact ⟨mayStart_of_asksFor hrule hw hmakes.asked, within_of_asksFor hc hw hmakes.asked⟩
  by_cases hx : rule.extras = []
  · obtain ⟨c, w, hc, hw, hrun⟩ := exists_walk_of_expand hrule hx h
    exact hseries hc hw (by rw [hrun]; exact ho)
  · obtain ⟨c, w, extras, hc, hw, hextras, -, hmade⟩ := exists_extras_of_expand hrule hx h
    rw [hmade] at ho
    rcases Run.mem_of_mem_merge ((Run.dropRepeats_sublist none _).subset ho) with ho | ho
    · exact hseries hc hw ho
    · rw [extrasIn_eq] at hextras
      obtain ⟨ms, hms, hos⟩ := bind_eq_ok_iff.1 hextras
      obtain ⟨m, hm, hom⟩ := exists_of_mem_mapM hos ho
      obtain rfl := start_of_occurrenceAt hom
      exact mayStart_of_extraStarts hrule hc hms hm

/-- What an event without a rule gives starts when the event does. -/
theorem occurrenceAt_of_single [ZoneDatabase] {q : Query} {x : Expansion} (hrule : e.rule = none)
    (h : e.expand limits q = .ok x) (ho : o ∈ x.occurrences) :
    e.occurrenceAt e.calendarZone false e.start = .ok o := by
  obtain ⟨c, -, hrun⟩ := expand_eq_ok_iff.1 h
  rw [occurrences, hrule] at hrun
  have hmade : (e.singleRun c).occurrences = x.occurrences := congrArg Run.occurrences hrun
  rw [← hmade] at ho
  unfold singleRun at ho
  split at ho
  · split at ho
    · next o' ho' =>
      obtain rfl := List.mem_singleton.1 ho
      exact ho'
    · cases ho
  · cases ho

/-! ## The empty range -/

/-- **An empty range gives only what is under way**, for as long as the event lasts. -/
theorem isUnderWay_of_expand [ZoneDatabase] {x : Expansion} (hz : e.calendarZone.IsOrderly)
    (h : e.expand limits (.emptyAt t cap) = .ok x) (ho : o ∈ x.occurrences) :
    e.MayStart limits o.start ∧ e.IsUnderWay t o.start ∧
      o.finish.instant = o.start.instant + e.length := by
  cases hrule : e.rule with
  | none =>
    have hmade := occurrenceAt_of_single hrule h ho
    have hover := (single_iff_overlaps hz hrule h).1.1 (List.ne_nil_of_mem ho)
    rw [start_of_occurrenceAt hmade]
    exact ⟨.single hrule rfl, (isUnderWay_iff_overlaps hrule).2 hover,
      finish_of_occurrenceAt hz hmade⟩
  | some rule =>
    obtain ⟨hmay, hrange⟩ := mayStart_of_expand hrule h ho
    have hmade := (isStart_of_expand hrule h ho).2
    exact ⟨hmay, (isUnderWay_iff_of_rule hrule).2 hrange, finish_of_occurrenceAt hz hmade⟩

/-- An event without a rule that is not under way gives nothing. -/
theorem expand_of_not_underWay [ZoneDatabase] (hrule : e.rule = none)
    (hc : (Query.emptyAt t cap).check limits = .ok c) (hnot : ¬e.IsUnderWay t e.start) :
    e.expand limits (.emptyAt t cap) = .ok ⟨[], false⟩ := by
  refine expand_eq_ok_iff.2 ⟨c, hc, ?_⟩
  rw [occurrences, hrule]
  exact if_neg fun hover =>
    hnot ((isUnderWay_iff_overlaps hrule).2 ((before_iff_overlaps hc).1 hover))

/-- Where added occurrences are made, an expansion ends as its series does. -/
theorem ending_of_extrasIn [ZoneDatabase] {os : List Occurrence} (hrule : e.rule = some rule)
    (h : e.extrasIn rule c = .ok os) :
    (e.occurrences limits c).ending = (e.seriesRun rule limits c).ending := by
  rw [occurrences, hrule]
  simp only
  split
  · rfl
  · rw [h]
    rfl

/-- A rule of which nothing is under way fails only at a cursor that has no moment. -/
theorem exists_expand_of_rule [ZoneDatabase] (hrule : e.rule = some rule)
    (hz : e.calendarZone.IsOrderly) (he : e.IsCentral) (ht : t.IsCentral)
    (hc : (Query.emptyAt t cap).check limits = .ok c)
    (hnone : ∀ m, e.MayStart limits m → ¬e.IsUnderWay t m) :
    (∃ x, e.expand limits (.emptyAt t cap) = .ok x) ↔
      ∃ w, e.walk rule limits c = .ok w ∧ w.IsLocalized := by
  have hq : (Query.emptyAt t cap).IsCentral := ⟨ht, ht⟩
  obtain ⟨w, hw⟩ := exists_walk_of_isOrderly he hrule hz hq hc
  obtain ⟨ms, hms, -⟩ := exists_extraStarts_of_isOrderly he hrule hz hq hc
  -- nothing is added
  obtain rfl : ms = [] := by
    refine List.eq_nil_iff_forall_not_mem.2 fun m hm => ?_
    obtain ⟨hmay, hrange⟩ := mayStart_of_extraStarts hrule hc hms hm
    exact hnone m hmay ((isUnderWay_iff_of_rule hrule).2 hrange)
  have hextras : e.extrasIn rule c = .ok [] := by
    rw [extrasIn_eq, hms]
    rfl
  rw [exists_expand_iff_finished hc, ending_of_extrasIn hrule hextras]
  simp only [seriesRun, hw]
  rw [Walk.run_finished_iff]
  constructor
  · intro h
    exact ⟨w, rfl, fun n d hv hd => (h n d hv hd).1⟩
  · rintro ⟨w', hw', h⟩ n d hv hd
    cases hw'
    refine ⟨h n d hv hd, fun start hask => ?_⟩
    have hrange := within_of_asksFor hc hw hask
    exact absurd ((isUnderWay_iff_of_rule hrule).2 hrange)
      (hnone start (mayStart_of_asksFor hrule hw hask))

/-- **Where nothing is under way nothing is given**, unless the walk comes to a cursor that has no
moment. -/
theorem exists_expand_emptyAt [ZoneDatabase] (hz : e.calendarZone.IsOrderly) (he : e.IsCentral)
    (ht : t.IsCentral) (hc : (Query.emptyAt t cap).check limits = .ok c)
    (hnone : ∀ m, e.MayStart limits m → ¬e.IsUnderWay t m) :
    (∃ x, e.expand limits (.emptyAt t cap) = .ok x ∧ x.occurrences = []) ↔
      ∀ rule ∈ e.rule, ∃ w, e.walk rule limits c = .ok w ∧ w.IsLocalized := by
  have hempty : (∃ x, e.expand limits (.emptyAt t cap) = .ok x ∧ x.occurrences = []) ↔
      ∃ x, e.expand limits (.emptyAt t cap) = .ok x := by
    refine exists_congr fun x => and_iff_left_of_imp fun hx => ?_
    refine List.eq_nil_iff_forall_not_mem.2 fun o ho => ?_
    obtain ⟨hmay, hunder, -⟩ := isUnderWay_of_expand hz hx ho
    exact hnone o.start hmay hunder
  rw [hempty]
  cases hrule : e.rule with
  | none =>
    have hfound := expand_of_not_underWay hrule hc (hnone e.start (.single hrule rfl))
    exact iff_of_true ⟨_, hfound⟩ fun rule hr => by cases hr
  | some rule =>
    rw [exists_expand_of_rule hrule hz he ht hc hnone]
    simp

/-- What is found in a range around a moment is found there, if it is under way: the event. -/
theorem single_emptyAt [ZoneDatabase] {a b : Moment} {y : Expansion} (hrule : e.rule = none)
    (hat : a.instant ≤ t.instant) (htb : t.instant ≤ b.instant)
    (hc : (Query.emptyAt t cap).check limits = .ok c) (h : e.expand limits ⟨a, b, cap⟩ = .ok y) :
    e.expand limits (.emptyAt t cap)
      = .ok ⟨y.occurrences.filter fun o => e.IsUnderWay t o.start, false⟩ := by
  by_cases hunder : e.IsUnderWay t e.start
  · obtain ⟨p, hp, hrun⟩ := expand_eq_ok_iff.1 h
    have hover : e.Overlaps (.emptyAt t cap) := (isUnderWay_iff_overlaps hrule).1 hunder
    have hwider : e.Overlaps ⟨a, b, cap⟩ :=
      ⟨Int.lt_of_lt_of_le hover.1 htb, Int.lt_of_le_of_lt hat hover.2⟩
    rw [occurrences, hrule] at hrun
    simp only [singleRun, (before_iff_overlaps hp).2 hwider, if_true] at hrun
    cases ho : e.occurrenceAt e.calendarZone false e.start with
    | error err =>
      rw [ho] at hrun
      cases congrArg Run.ending hrun
    | ok o =>
      rw [ho] at hrun
      have hone : [o] = y.occurrences := congrArg Run.occurrences hrun
      refine expand_eq_ok_iff.2 ⟨c, hc, ?_⟩
      rw [occurrences, hrule, ← hone]
      simp [singleRun, (before_iff_overlaps hc).2 hover, ho, start_of_occurrenceAt ho, hunder]
  · have hnone : y.occurrences.filter (fun o => e.IsUnderWay t o.start) = [] := by
      refine List.filter_eq_nil_iff.2 fun o ho => ?_
      rw [start_of_occurrenceAt (occurrenceAt_of_single hrule h ho)]
      simpa using hunder
    rw [hnone]
    exact expand_of_not_underWay hrule hc hunder

/-- **The window of the empty range lies in that of every range around it.** -/
theorem exists_windowOf_emptyAt {a b : Moment} {p : CheckedQuery} {v : Window}
    (hlength : e.start.instant < e.finish.instant) (hat : a.instant ≤ t.instant)
    (htb : t.instant ≤ b.instant) (hp : (⟨a, b, cap⟩ : Query).check limits = .ok p)
    (hwindow : e.windowOf p = .ok v) :
    ∃ s u, (Query.emptyAt t cap).check limits = .ok ⟨u, u, p.cap⟩ ∧
      e.windowOf ⟨u, u, p.cap⟩ = .ok ⟨s, u⟩ ∧ Window.IsWithin ⟨s, u⟩ v ∧
      (s.zone = .utc ∧ s.instant = t.instant - e.length) ∧ u.zone = .utc ∧
        u.instant = t.instant := by
  obtain ⟨hpstart, -, hpcap, hone⟩ := Query.check_eq_ok hp
  obtain ⟨u, hu, -, -⟩ := Query.check_split hp hat htb
  have hk := Query.check_emptyAt (hpcap ▸ hone) hu
  rw [← hpcap] at hk
  have hle : p.start.instant ≤ u.instant := by
    rw [Moment.instant_of_inZone Zone.isOrderly_utc hpstart,
      Moment.instant_of_inZone Zone.isOrderly_utc hu]
    exact hat
  obtain ⟨-, s, hlater⟩ := windowOf_split (Moment.zone_of_inZone hpstart) (Moment.zone_of_inZone hu)
    hle hlength hwindow
  obtain ⟨d, hd, hs, -⟩ := windowOf_eq_ok_iff.1 hlater
  have hv : e.windowOf ⟨u, u, p.cap⟩ = .ok ⟨s, u⟩ := windowOf_eq_ok_iff.2 ⟨d, hd, hs, rfl⟩
  obtain ⟨d', hd', ⟨hszone, hsinstant⟩, hfzone, hfinstant⟩ := windowOf_utc hk hv
  obtain ⟨d'', hd'', ⟨hwszone, hwsinstant⟩, hwfzone, hwfinstant⟩ := windowOf_utc hp hwindow
  cases hd.symm.trans hd'
  cases hd.symm.trans hd''
  refine ⟨s, u, hk, hv, ?_, ⟨hszone, ?_⟩, hfzone, hfinstant⟩
  · refine Window.isWithin_of_utc ⟨hwszone, hwfzone⟩ ⟨hszone, hfzone⟩ ?_ ?_
    · rw [hsinstant, hwsinstant]
      exact Int.sub_le_sub_right hat d
    · rw [hfinstant, hwfinstant]
      exact htb
  · rw [hsinstant, (duration_eq_ok_iff.1 hd).2.2]
    rfl

/-- What is found in a range around a moment is found there, if it is under way: the series. -/
theorem series_emptyAt [ZoneDatabase] {a b : Moment} {y : Expansion} (hz : e.calendarZone.IsOrderly)
    (hrule : e.rule = some rule) (hx : rule.extras = [])
    (hlength : e.start.instant < e.finish.instant) (hat : a.instant ≤ t.instant)
    (htb : t.instant ≤ b.instant) (h : e.expand limits ⟨a, b, cap⟩ = .ok y)
    (hcut : y.cutShort = false) :
    e.expand limits (.emptyAt t cap)
      = .ok ⟨y.occurrences.filter fun o => e.IsUnderWay t o.start, false⟩ := by
  obtain ⟨p, w, hp, hw, hrun⟩ := exists_walk_of_expand hrule hx h
  have hwindow : e.windowOf p = .ok w.window := by
    obtain ⟨-, -, window, -, -, hwindow, rfl⟩ := walk_eq_ok_iff.1 hw
    exact hwindow
  obtain ⟨s, u, hk, hv, hwithin, ⟨hszone, hsinstant⟩, hfzone, hfinstant⟩ :=
    exists_windowOf_emptyAt hlength hat htb hp hwindow
  obtain ⟨hend, hmade⟩ := Walk.run_withWindow (zone_of_walk hw ▸ hz) hfzone hwithin
    (by rw [hrun, ← hcut])
  have hfilter : y.occurrences.filter (fun o => e.IsUnderWay t o.start)
      = y.occurrences.filter fun o =>
        s.notAfter o.start && decide (o.start.instant < u.instant) := by
    refine List.filter_congr fun o _ => ?_
    rw [Moment.notAfter_of_utc hszone, hsinstant, hfinstant, ← Bool.decide_and]
    exact decide_eq_decide.2 (isUnderWay_iff_of_rule hrule)
  rw [expand_of_walk hrule hx hk (walk_withWindow hw hv rfl) hend, hmade, hrun, hfilter]

/--
**An empty range gives what is under way.** The occurrences that it gives have started and are not
over. If there are none it gives nothing, where the walk comes to moments only. It gives all of them
that are found in a range around the moment, and a cap below one is refused.
-/
theorem expand_emptyAt [ZoneDatabase] (hz : e.calendarZone.IsOrderly) :
    (∀ x, e.expand limits (.emptyAt t cap) = .ok x → ∀ o ∈ x.occurrences,
      e.MayStart limits o.start ∧ e.IsUnderWay t o.start ∧
        o.finish.instant = o.start.instant + e.length) ∧
    (e.IsCentral → t.IsCentral → 1 ≤ cap.getD limits.maxInstances →
      (∀ m, e.MayStart limits m → ¬e.IsUnderWay t m) →
      ∃ c, (Query.emptyAt t cap).check limits = .ok c ∧
        ((∃ x, e.expand limits (.emptyAt t cap) = .ok x ∧ x.occurrences = []) ↔
          ∀ rule ∈ e.rule, ∃ w, e.walk rule limits c = .ok w ∧ w.IsLocalized)) ∧
    (∀ a b y, a.instant ≤ t.instant → t.instant ≤ b.instant →
      e.start.instant < e.finish.instant → (∀ rule ∈ e.rule, rule.extras = []) →
      e.expand limits ⟨a, b, cap⟩ = .ok y → y.cutShort = false →
        e.expand limits (.emptyAt t cap)
          = .ok ⟨y.occurrences.filter fun o => e.IsUnderWay t o.start, false⟩) ∧
    (cap.getD limits.maxInstances < 1 → e.expand limits (.emptyAt t cap)
      = .error (.capBelowOne (cap.getD limits.maxInstances))) := by
  refine ⟨fun x hx o ho => isUnderWay_of_expand hz hx ho, fun he ht hcap hnone => ?_,
    fun a b y hat htb hlength hx h hcut => ?_, fun hcap => ?_⟩
  · obtain ⟨u, hu⟩ := Moment.exists_inZone Zone.isOrderly_utc (ht.within.mono (by decide))
    have hc := Query.check_emptyAt hcap hu
    exact ⟨_, hc, exists_expand_emptyAt hz he ht hc hnone⟩
  · cases hrule : e.rule with
    | none =>
      obtain ⟨p, hp, -⟩ := expand_eq_ok_iff.1 h
      obtain ⟨-, -, hpcap, hone⟩ := Query.check_eq_ok hp
      obtain ⟨u, hu, -, -⟩ := Query.check_split hp hat htb
      exact single_emptyAt hrule hat htb (Query.check_emptyAt (hpcap ▸ hone) hu) h
    | some rule => exact series_emptyAt hz hrule (hx rule hrule) hlength hat htb h hcut
  · unfold expand
    rw [Query.check_of_capBelowOne (q := .emptyAt t cap) hcap]
    rfl

/-! ## An example -/

/-- At half past nine the hour of the morning is under way. -/
theorem oneMorning_halfPastNine : ∃ x,
    oneMorning.expand .standard (.emptyAt (.london (october 26) 570) none) = .ok x ∧
      x.occurrences ≠ [] :=
  exists_ok_of_any (by decide +kernel)

/-- At noon it is over, while of four mornings the third one is found at the moment of its end, as
in the days around it. -/
theorem mornings_emptyAt :
    (∃ x, oneMorning.expand .standard (.emptyAt (.london (october 26) 720) none) = .ok x ∧
      x.occurrences = []) ∧
    ∃ y, fourMornings.expand .standard lateOctober = .ok y ∧ y.cutShort = false ∧
      fourMornings.expand .standard (.emptyAt (.london (october 27) 600) none)
        = .ok ⟨y.occurrences.filter fun o =>
            fourMornings.IsUnderWay (.london (october 27) 600) o.start, false⟩ ∧
      fourMornings.IsUnderWay (.london (october 27) 600) (.london (october 27) 540) := by
  constructor
  · have hcentral : oneMorning.IsCentral := by
      refine ⟨by decide +kernel, by decide +kernel, by decide +kernel, by decide +kernel, ?_, ?_⟩
      all_goals
        intro rule hrule
        cases hrule
    have hover : ∀ m, oneMorning.MayStart .standard m →
        ¬oneMorning.IsUnderWay (.london (october 26) 720) m := by
      intro m hm
      rcases hm with ⟨-, rfl⟩ | ⟨hrule, -⟩ | ⟨hrule, -⟩
      · decide +kernel
      · cases hrule
      · cases hrule
    obtain ⟨-, hnone, -⟩ := @expand_emptyAt oneMorning .standard (.london (october 26) 720) none
      _ (by decide +kernel)
    obtain ⟨c, -, hfound⟩ := hnone hcentral (by decide +kernel) (by decide) hover
    refine hfound.2 fun rule hrule => ?_
    cases hrule
  · obtain ⟨y, hy, hcut⟩ : ∃ y, fourMornings.expand .standard lateOctober = .ok y ∧
        y.cutShort = false := exists_ok_of_any (by decide +kernel)
    obtain ⟨-, -, haround, -⟩ := @expand_emptyAt fourMornings .standard
      (.london (october 27) 600) none _ (by decide +kernel)
    have hx := haround lateOctober.start lateOctober.finish y (by decide +kernel)
      (by decide +kernel) (by decide +kernel) (fun rule hrule => by cases hrule; rfl) hy hcut
    exact ⟨y, hy, hcut, hx, by decide +kernel⟩

end Event

end RecurringEvents
