import RecurringEvents.Proofs.Expansion.Identity
import RecurringEvents.Proofs.Expansion.SameSeries

/-!
# What is added to a series

An expansion with added occurrences has exactly the wall times of the series and of the added values
that lie in the range. Inserting, merging and dropping repeats lose no wall time, and since the two
lists are in order and the series comes first where both have a wall time, it is the series that is
kept there.

* `exists_mem_foldl_insertByWall`: the wall times of the added starts.
* `Run.mem_merge_iff`, `Run.exists_mem_dropRepeats`: no wall time is lost.
* `Run.pairwise_merge_first`, `Run.mem_first_of_merge`: the first list is kept.
* `Event.merged_of_expand`: the expansions with and without what is added.
-/

namespace RecurringEvents

/-! ## Wall times that are inserted -/

theorem exists_mem_insertByWall {m x : Moment} {ms : List Moment} (h : x = m ∨ x ∈ ms) :
    ∃ y ∈ insertByWall m ms, y.wall.count = x.wall.count := by
  induction ms with
  | nil =>
    rcases h with rfl | h
    · exact ⟨x, List.mem_singleton_self x, rfl⟩
    · cases h
  | cons a as ih =>
    unfold insertByWall
    split
    · exact ⟨x, List.mem_cons.2 h, rfl⟩
    · split
      · next heq =>
        rcases h with rfl | h
        · exact ⟨a, List.mem_cons_self, heq.symm⟩
        · exact ⟨x, h, rfl⟩
      · rcases h with rfl | h
        · obtain ⟨y, hy, hcount⟩ := ih (Or.inl rfl)
          exact ⟨y, List.mem_cons_of_mem a hy, hcount⟩
        · rcases List.mem_cons.1 h with rfl | h
          · exact ⟨x, List.mem_cons_self, rfl⟩
          · obtain ⟨y, hy, hcount⟩ := ih (Or.inr h)
            exact ⟨y, List.mem_cons_of_mem a hy, hcount⟩

/-- **Every moment that is inserted leaves its wall time.** -/
theorem exists_mem_foldl_insertByWall {x : Moment} {ms acc : List Moment} (h : x ∈ ms ∨ x ∈ acc) :
    ∃ y ∈ ms.foldl (fun ms m => insertByWall m ms) acc, y.wall.count = x.wall.count := by
  induction ms generalizing acc x with
  | nil =>
    rcases h with h | h
    · cases h
    · exact ⟨x, h, rfl⟩
  | cons m ms ih =>
    have hrest : ∀ z, z = m ∨ z ∈ acc → ∃ y ∈ ms.foldl (fun ms m => insertByWall m ms)
        (insertByWall m acc), y.wall.count = z.wall.count := by
      intro z hz
      obtain ⟨y, hy, hcount⟩ := exists_mem_insertByWall hz
      obtain ⟨y', hy', hcount'⟩ := ih (Or.inr hy)
      exact ⟨y', hy', hcount'.trans hcount⟩
    rcases h with h | h
    · rcases List.mem_cons.1 h with rfl | h
      · exact hrest x (Or.inl rfl)
      · exact ih (Or.inl h)
    · exact hrest x (Or.inr h)

namespace Run

/-! ## The merged list -/

variable {z : Zone} {cut : Bool} {ending : Ending} {ss es os : List Occurrence} {o : Occurrence}
  {last : Option Moment}

/-- When a run does not fail, nothing is lost in the merged list. -/
theorem mem_merge_iff : o ∈ merge (.finished cut) ss es ↔ o ∈ ss ∨ o ∈ es := by
  refine ⟨mem_of_mem_merge, fun h => ?_⟩
  induction ss, es using merge.induct (.finished cut) with
  | case1 es cut' hend =>
    rw [merge]
    exact h.resolve_left (List.not_mem_nil)
  | case2 es err hend => cases hend
  | case3 ss hne =>
    rw [merge]
    · exact h.resolve_right (List.not_mem_nil)
    · exact hne
  | case4 s ss e es hbefore ih =>
    rw [merge, if_pos hbefore, List.mem_cons]
    rcases h with h | h
    · exact Or.inr (ih (Or.inl h))
    · exact (List.mem_cons.1 h).imp_right fun h => ih (Or.inr h)
  | case5 s ss e es hbefore ih =>
    rw [merge, if_neg hbefore, List.mem_cons]
    rcases h with h | h
    · exact (List.mem_cons.1 h).imp_right fun h => ih (Or.inl h)
    · exact Or.inr (ih (Or.inr h))

/-- An occurrence of which a later one at the same wall time is in the first list is in it, too. -/
theorem pairwise_merge_first {first : Occurrence → Prop} (hfirst : ∀ s ∈ ss, first s)
    (hs : IsOrdered z ss) (he : IsOrdered z es)
    (hstrict : es.Pairwise fun o o' => o.start.EarlierOnWall o'.start) :
    (merge ending ss es).Pairwise fun o o' =>
      first o' → o'.start.wall.count = o.start.wall.count → first o := by
  have hadded : ∀ {es : List Occurrence},
      es.Pairwise (fun o o' => o.start.EarlierOnWall o'.start) → es.Pairwise fun o o' =>
        first o' → o'.start.wall.count = o.start.wall.count → first o := by
    intro es hes
    exact hes.imp fun hlt _ heq => absurd heq.symm (Int.ne_of_lt hlt)
  induction ss, es using merge.induct ending with
  | case1 es cut hend =>
    subst hend
    rw [merge]
    exact hadded hstrict
  | case2 es err hend =>
    subst hend
    rw [merge]
    exact List.Pairwise.nil
  | case3 ss hne =>
    rw [merge]
    · exact List.pairwise_of_forall_mem_list fun o ho _ _ _ _ => hfirst o ho
    · exact hne
  | case4 s ss e es hbefore ih =>
    obtain ⟨hzone, -, hrest⟩ := isOrdered_cons_iff.1 he
    obtain ⟨hzone', hlater', -⟩ := isOrdered_cons_iff.1 hs
    obtain ⟨hlt, hstrict'⟩ := List.pairwise_cons.1 hstrict
    have hbefore' : e.start.wall.count < s.start.wall.count := by
      rwa [Moment.before_of_eq (hzone.trans hzone'.symm), decide_eq_true_eq] at hbefore
    rw [merge, if_pos hbefore]
    refine List.pairwise_cons.2 ⟨fun o ho _ heq => ?_, ih hfirst hs hrest hstrict'⟩
    -- whatever comes after an added occurrence that is merged first is later
    refine absurd heq.symm (Int.ne_of_lt ?_)
    rcases mem_of_mem_merge ho with ho | ho
    · rcases List.mem_cons.1 ho with rfl | ho
      · exact hbefore'
      · exact Int.lt_of_lt_of_le hbefore' (hlater' o ho)
    · exact hlt o ho
  | case5 s ss e es hbefore ih =>
    rw [merge, if_neg hbefore]
    exact List.pairwise_cons.2 ⟨fun _ _ _ _ => hfirst s List.mem_cons_self,
      ih (fun s' hs' => hfirst s' (List.mem_cons_of_mem s hs')) (isOrdered_cons_iff.1 hs).2.2 he
        hstrict⟩

/-! ## What is left of it -/

/-- **When repeats are dropped, no wall time is lost.** -/
theorem exists_mem_dropRepeats (hzone : ∀ o ∈ os, o.start.zone = z) (hlast : ∀ m ∈ last, m.zone = z)
    (ho : o ∈ os) : (∃ m ∈ last, m.wall.count = o.start.wall.count) ∨
      ∃ o' ∈ dropRepeats last os, o'.start.wall.count = o.start.wall.count := by
  induction os generalizing last with
  | nil => cases ho
  | cons a os ih =>
    obtain ⟨ha, hos⟩ := List.forall_mem_cons.1 hzone
    unfold dropRepeats
    split
    · next hsame =>
      rcases List.mem_cons.1 ho with rfl | ho
      · obtain ⟨m, rfl, heq⟩ := (Option.any_eq_true _ _).1 hsame
        rw [Moment.same_of_eq (ha.trans (hlast m rfl).symm), beq_iff_eq] at heq
        exact Or.inl ⟨m, rfl, heq.symm⟩
      · exact ih hos hlast ho
    · rcases List.mem_cons.1 ho with rfl | ho
      · exact Or.inr ⟨o, List.mem_cons_self, rfl⟩
      · refine Or.inr ?_
        rcases ih hos (forall_mem_some ha) ho with ⟨m, hm, hcount⟩ | ⟨o', ho', hcount⟩
        · cases hm
          exact ⟨a, List.mem_cons_self, hcount⟩
        · exact ⟨o', List.mem_cons_of_mem a ho', hcount⟩

/-- **The wall times of what is left are those of the two lists.** -/
theorem exists_mem_left_iff {t : Int} (hs : ∀ o ∈ ss, o.start.zone = z)
    (he : ∀ o ∈ es, o.start.zone = z) :
    (∃ o ∈ dropRepeats none (merge (.finished cut) ss es), o.start.wall.count = t) ↔
      (∃ o ∈ ss, o.start.wall.count = t) ∨ ∃ o ∈ es, o.start.wall.count = t := by
  constructor
  · rintro ⟨o, ho, rfl⟩
    exact (mem_of_mem_merge ((dropRepeats_sublist none _).subset ho)).imp
      (fun h => ⟨o, h, rfl⟩) fun h => ⟨o, h, rfl⟩
  · intro h
    obtain ⟨o, ho, rfl⟩ : ∃ o ∈ merge (.finished cut) ss es, o.start.wall.count = t := by
      rcases h with ⟨o, ho, rfl⟩ | ⟨o, ho, rfl⟩
      · exact ⟨o, mem_merge_iff.2 (Or.inl ho), rfl⟩
      · exact ⟨o, mem_merge_iff.2 (Or.inr ho), rfl⟩
    have hzone : ∀ o ∈ merge (.finished cut) ss es, o.start.zone = z :=
      fun o ho => (mem_of_mem_merge ho).elim (hs o) (he o)
    rcases exists_mem_dropRepeats hzone forall_mem_none ho with ⟨m, hm, -⟩ | hleft
    · cases hm
    · exact hleft

/-- What is left comes after everything that is earlier in the list on the wall. -/
theorem exists_append_of_mem_dropRepeats (h : IsOrdered z os) (hlast : ∀ m ∈ last, m.zone = z)
    (hle : ∀ m ∈ last, ∀ o ∈ os, m.wall.count ≤ o.start.wall.count) (ho : o ∈ dropRepeats last os) :
    ∃ before after, os = before ++ o :: after ∧ ∀ a ∈ before, a.start.EarlierOnWall o.start := by
  induction os generalizing last with
  | nil => cases ho
  | cons a os ih =>
    obtain ⟨hzone, hlater, hrest⟩ := isOrdered_cons_iff.1 h
    unfold dropRepeats at ho
    split at ho
    · next hsame =>
      obtain ⟨m, rfl, heq⟩ := (Option.any_eq_true _ _).1 hsame
      have hm := hlast m rfl
      rw [Moment.same_of_eq (hzone.trans hm.symm), beq_iff_eq] at heq
      have hle' := (List.forall_mem_cons.1 (hle m rfl)).2
      obtain ⟨before, after, rfl, hbefore⟩ := ih hrest hlast (forall_mem_some hle') ho
      refine ⟨a :: before, after, rfl, List.forall_mem_cons.2 ⟨?_, hbefore⟩⟩
      -- the one that was dropped starts when the last one did
      have hlt := earlier_of_mem_dropRepeats hrest hm hle' ho
      unfold Moment.EarlierOnWall at hlt ⊢
      rwa [heq]
    · rcases List.mem_cons.1 ho with rfl | ho
      · exact ⟨[], os, rfl, List.forall_mem_nil _⟩
      · obtain ⟨before, after, rfl, hbefore⟩ :=
          ih hrest (forall_mem_some hzone) (forall_mem_some hlater) ho
        exact ⟨a :: before, after, rfl, List.forall_mem_cons.2
          ⟨earlier_of_mem_dropRepeats hrest hzone hlater ho, hbefore⟩⟩

/-- **Where the first list has a wall time, its occurrence is left.** -/
theorem mem_first_of_merge (hs : IsOrdered z ss) (he : IsOrdered z es)
    (hstrict : es.Pairwise fun o o' => o.start.EarlierOnWall o'.start)
    (ho : o ∈ dropRepeats none (merge (.finished cut) ss es)) {s : Occurrence} (hmem : s ∈ ss)
    (hcount : s.start.wall.count = o.start.wall.count) : o ∈ ss := by
  obtain ⟨before, after, hmerged, hbefore⟩ := exists_append_of_mem_dropRepeats (hs.merge he)
    forall_mem_none forall_mem_none ho
  have hfirst : (merge (.finished cut) ss es).Pairwise fun o o' =>
      o' ∈ ss → o'.start.wall.count = o.start.wall.count → o ∈ ss :=
    pairwise_merge_first (fun _ h => h) hs he hstrict
  have hmem' : s ∈ merge (.finished cut) ss es := mem_merge_iff.2 (Or.inl hmem)
  rw [hmerged] at hfirst hmem'
  rcases List.mem_append.1 hmem' with h | h
  · exact absurd hcount (Int.ne_of_lt (hbefore s h))
  · rcases List.mem_cons.1 h with rfl | h
    · exact hmem
    · exact (List.pairwise_cons.1 (List.pairwise_append.1 hfirst).2.1).1 s h hmem hcount

end Run

/-! ## The expansions -/

/-- The rule without its added occurrences. -/
def Rule.withoutExtras (r : Rule) : Rule := { r with rdates := none }

/-- It has the same series. -/
theorem Rule.bare_withoutExtras (r : Rule) : r.withoutExtras.bare = r.bare := rfl

namespace Event

variable {e : Event} {rule : Rule} {limits : Limits} {q : Query} {c : CheckedQuery}
  {x y : Expansion}

/-- Whether a moment is that of an added value in a range, which begins earlier by the length of the
event, and not on an excluded day. -/
def AddsIn [ZoneDatabase] (e : Event) (rule : Rule) (q : Query) (m : Moment) : Prop :=
  ∃ anchor duration days, e.start.inZone e.calendarZone = .ok anchor ∧ e.duration = .ok duration ∧
    daysIn e.calendarZone rule.excluded = .ok days ∧
    (∃ v ∈ rule.extras, extraMoment e.calendarZone anchor.wall v = .ok m) ∧
    (q.start.instant - duration ≤ m.instant ∧ m.instant < q.finish.instant) ∧
    m.wall.date ∉ days

/-- The wall times of the added starts are those of the added values in the range. -/
theorem exists_extraStart_iff [ZoneDatabase] {ms : List Moment} {t : Int}
    (hc : q.check limits = .ok c) (h : e.extraStarts rule c = .ok ms) :
    (∃ m ∈ ms, m.wall.count = t) ↔ ∃ m, e.AddsIn rule q m ∧ m.wall.count = t := by
  obtain ⟨window, days, anchor, moments, hwindow, hdays, ha, hmoments, rfl⟩ :=
    extraStarts_eq_ok_iff.1 h
  obtain ⟨d, hd, ⟨hszone, hs⟩, ⟨hfzone, hf⟩⟩ := windowOf_utc hc hwindow
  have hshown : ∀ m, isExtraShown window days m = true ↔
      (q.start.instant - d ≤ m.instant ∧ m.instant < q.finish.instant) ∧ m.wall.date ∉ days := by
    intro m
    rw [isExtraShown, Moment.notAfter_of_utc hszone, Moment.before_of_utc hfzone, hs, hf]
    simp only [Bool.and_eq_true, Bool.not_eq_true', List.contains_eq_mem, decide_eq_false_iff_not,
      decide_eq_true_eq]
    exact ⟨fun ⟨⟨h1, h2⟩, h3⟩ => ⟨⟨h2, h3⟩, h1⟩, fun ⟨⟨h1, h2⟩, h3⟩ => ⟨⟨h3, h1⟩, h2⟩⟩
  constructor
  · rintro ⟨m, hm, rfl⟩
    rcases mem_of_mem_foldl_insertByWall hm with hm | hm
    · obtain ⟨hmem, hin⟩ := List.mem_filter.1 hm
      obtain ⟨hrange, hday⟩ := (hshown m).1 hin
      exact ⟨m, ⟨anchor, d, days, ha, hd, hdays, exists_of_mem_mapM hmoments hmem, hrange, hday⟩,
        rfl⟩
    · cases hm
  · rintro ⟨m, ⟨anchor', d', days', ha', hd', hdays', ⟨v, hv, hm⟩, hrange, hday⟩, rfl⟩
    cases ha.symm.trans ha'
    cases hd.symm.trans hd'
    cases hdays.symm.trans hdays'
    have hmem := mem_of_mapM hmoments hv hm
    exact exists_mem_foldl_insertByWall
      (Or.inl (List.mem_filter.2 ⟨hmem, (hshown m).2 ⟨hrange, hday⟩⟩))

theorem exists_extra_iff [ZoneDatabase] {os : List Occurrence} {t : Int}
    (hc : q.check limits = .ok c) (h : e.extrasIn rule c = .ok os) :
    (∃ o ∈ os, o.start.wall.count = t) ↔ ∃ m, e.AddsIn rule q m ∧ m.wall.count = t := by
  rw [extrasIn_eq] at h
  obtain ⟨ms, hms, hos⟩ := bind_eq_ok_iff.1 h
  rw [← exists_extraStart_iff hc hms]
  constructor
  · rintro ⟨o, ho, rfl⟩
    obtain ⟨m, hm, hmade⟩ := exists_of_mem_mapM hos ho
    exact ⟨m, hm, by rw [start_of_occurrenceAt hmade]⟩
  · rintro ⟨m, hm, rfl⟩
    obtain ⟨o, ho⟩ := exists_mapM_eq_ok_iff.1 ⟨os, hos⟩ m hm
    exact ⟨o, mem_of_mapM hos hm ho, by rw [start_of_occurrenceAt ho]⟩

/-- The run that an expansion with added occurrences is made of, and the one without them. -/
theorem exists_runs_of_expand [ZoneDatabase] (hrule : e.rule = some rule) (hx : rule.extras ≠ [])
    (h : e.expand limits q = .ok x)
    (h' : (e.withRule (some rule.withoutExtras)).expand limits q = .ok y) :
    ∃ c w extras, q.check limits = .ok c ∧ e.walk rule limits c = .ok w ∧
      e.extrasIn rule c = .ok extras ∧ w.run.ending = .finished x.cutShort ∧
      x.occurrences = Run.dropRepeats none
        (Run.merge (.finished x.cutShort) w.run.occurrences extras) ∧
      y.occurrences = w.run.occurrences.map (·.withRule (some rule.withoutExtras)) ∧
      y.cutShort = x.cutShort := by
  obtain ⟨c, w, extras, hc, hw, hextras, hend, hmade⟩ := exists_extras_of_expand hrule hx h
  have hrule' : (e.withRule (some rule.withoutExtras)).rule = some rule.withoutExtras := rfl
  obtain ⟨c', v, hc', hv, hrun⟩ := exists_walk_of_expand hrule' rfl h'
  cases hc.symm.trans hc'
  obtain rfl := rule_of_walk hw
  obtain rfl := walk_of_withRule (show w.rule.withoutExtras.excluded = w.rule.excluded from rfl)
    hw hv
  rw [Walk.run_withRule (Rule.sameSeries_of_bare w.rule.bare_withoutExtras)
    (Walk.stopsAlike_of_eq rfl)] at hrun
  have hcut : Ending.finished y.cutShort = .finished x.cutShort :=
    (congrArg Run.ending hrun).symm.trans hend
  rw [hend] at hmade
  exact ⟨c, w, extras, hc, hw, hextras, hend, hmade, (congrArg Run.occurrences hrun).symm,
    Ending.finished.inj hcut⟩

/--
**What is added to a series.** The occurrences of a rule with added ones start in the strict order
of the wall of its calendar, at the wall times of the expansion without them and of the added values
in the range. Where the series has a wall time, its occurrence is kept, and the expansion is cut
short if the series is.
-/
theorem merged_of_expand [ZoneDatabase] (hz : e.calendarZone.IsOrderly) (hrule : e.rule = some rule)
    (hx : rule.extras ≠ []) (h : e.expand limits q = .ok x)
    (h' : (e.withRule (some rule.withoutExtras)).expand limits q = .ok y) :
    (∀ o ∈ x.occurrences, o.start.zone = e.calendarZone) ∧
    (x.occurrences.Pairwise fun o o' => o.start.wall.count < o'.start.wall.count) ∧
    (∀ t, (∃ o ∈ x.occurrences, o.start.wall.count = t) ↔
      (∃ s ∈ y.occurrences, s.start.wall.count = t) ∨
        ∃ m, e.AddsIn rule q m ∧ m.wall.count = t) ∧
    (∀ o ∈ x.occurrences, ∀ s ∈ y.occurrences, s.start.wall.count = o.start.wall.count →
      ∃ s' ∈ y.occurrences, s'.slot = o.slot) ∧
    x.cutShort = y.cutShort := by
  obtain ⟨c, w, extras, hc, hw, hextras, hend, hmade, hseries, hcut⟩ :=
    exists_runs_of_expand hrule hx h h'
  have hordered := isOrdered_of_run hz hw hend
  have hadded := isOrdered_of_extrasIn hz hextras
  have hstrict := (of_extrasIn_eq_ok hextras).1
  refine ⟨fun o ho => (isStart_of_expand hrule h ho).1.zone hz,
    earlier_of_expand hz hrule (fun hnone => absurd hnone hx) h, fun t => ?_,
      fun o ho s hs heq => ?_,
    hcut.symm⟩
  · have hwalls : (∃ s ∈ y.occurrences, s.start.wall.count = t) ↔
        ∃ s ∈ w.run.occurrences, s.start.wall.count = t := by
      rw [hseries]
      constructor
      · rintro ⟨s, hs, rfl⟩
        obtain ⟨s', hs', rfl⟩ := List.mem_map.1 hs
        exact ⟨s', hs', rfl⟩
      · rintro ⟨s, hs, rfl⟩
        exact ⟨_, List.mem_map_of_mem hs, rfl⟩
    rw [hmade, hwalls, ← exists_extra_iff hc hextras,
      Run.exists_mem_left_iff hordered.zone hadded.zone]
  · rw [hseries] at hs ⊢
    obtain ⟨s', hs', rfl⟩ := List.mem_map.1 hs
    rw [hmade] at ho
    have hkept : o ∈ w.run.occurrences := Run.mem_first_of_merge hordered hadded hstrict ho hs' heq
    exact ⟨_, List.mem_map_of_mem hkept, rfl⟩

/-! ## An example -/

/-- The four days, and five more out of order: the last one, an evening twice, the third day again,
and the excluded one. -/
def fourDaysAndMore : Rule :=
  { fourDays with
    rdates := some [.date (october 30),
      .time ⟨⟨october 29, .ofMinutes 1080, .first⟩, some .utc⟩,
      .time ⟨⟨october 29, .ofMinutes 1080, .first⟩, none⟩,
      .date (october 27), .date (october 26)] }

/-- After the two mornings of the series there are an evening and one more morning. -/
theorem fourMornings_merged : ∃ x y,
    (fourMornings.withRule (some fourDaysAndMore)).expand .standard lateOctober = .ok x ∧
    (fourMornings.withRule (some fourDaysAndMore.withoutExtras)).expand .standard lateOctober
      = .ok y ∧
    x.occurrences.map (·.start) = [.london (october 27) 540, .london (october 28) 540,
      .london (october 29) 1080, .london (october 30) 540] ∧
    y.occurrences.map (·.start) = [.london (october 27) 540, .london (october 28) 540] ∧
    (x.occurrences.Pairwise fun o o' => o.start.wall.count < o'.start.wall.count) ∧
    (∀ t, (∃ o ∈ x.occurrences, o.start.wall.count = t) ↔
      (∃ s ∈ y.occurrences, s.start.wall.count = t) ∨
        ∃ m, (fourMornings.withRule (some fourDaysAndMore)).AddsIn fourDaysAndMore lateOctober m ∧
          m.wall.count = t) ∧
    (∀ o ∈ x.occurrences, ∀ s ∈ y.occurrences, s.start.wall.count = o.start.wall.count →
      ∃ s' ∈ y.occurrences, s'.slot = o.slot) ∧
    x.cutShort = y.cutShort := by
  obtain ⟨x, hx, hstarts⟩ :
      ∃ x, (fourMornings.withRule (some fourDaysAndMore)).expand .standard lateOctober = .ok x ∧
        x.occurrences.map (·.start) = [.london (october 27) 540, .london (october 28) 540,
          .london (october 29) 1080, .london (october 30) 540] :=
    exists_ok_of_any (by decide +kernel)
  obtain ⟨y, hy, hstarts'⟩ : ∃ y, (fourMornings.withRule
      (some fourDaysAndMore.withoutExtras)).expand .standard lateOctober = .ok y ∧
        y.occurrences.map (·.start) = [.london (october 27) 540, .london (october 28) 540] :=
    exists_ok_of_any (by decide +kernel)
  have hrule : (fourMornings.withRule (some fourDaysAndMore)).rule = some fourDaysAndMore := rfl
  obtain ⟨-, hmerged⟩ := merged_of_expand (by decide +kernel) hrule (by decide) hx hy
  exact ⟨x, y, hx, hy, hstarts, hstarts', hmerged⟩

end Event

end RecurringEvents
