import Mathlib.Data.List.Basic
import RecurringEvents.Proofs.Expansion.Order
import RecurringEvents.Proofs.Expansion.Totality

/-!
# Splitting a range

A range may be asked for in two parts. The cursors are the same in both, and count towards the same
limits, so only the window matters: the first part ends at the first cursor that starts in the
second one, and since localized cursors are in order, nothing that comes after it belongs to the
first part.

* `Window.IsWithin`, `Walk.withWindow`: a walk with a smaller window.
* `Walk.run_finished_withWindow`, `Walk.EndsAt.withWindow`: it does not fail and is not cut short if
  the walk is not.
* `Walk.madeBefore_split`: what the walk collects is what the two parts collect.
* `Event.expand_split`: the expansions.
-/

namespace RecurringEvents

/-- Whether every start that is in a window is in another one. -/
structure Window.IsWithin (v u : Window) : Prop where
  start : ∀ m : Moment, v.start.notAfter m = true → u.start.notAfter m = true
  finish : ∀ m : Moment, m.before v.finish = true → m.before u.finish = true

/-- Windows of UTC are compared by the instants of their ends. -/
theorem Window.isWithin_of_utc {u v : Window} (hu : u.start.zone = .utc ∧ u.finish.zone = .utc)
    (hv : v.start.zone = .utc ∧ v.finish.zone = .utc) (hstart : u.start.instant ≤ v.start.instant)
    (hfinish : v.finish.instant ≤ u.finish.instant) : v.IsWithin u := by
  constructor
  · intro m hm
    rw [Moment.notAfter_of_utc hv.1, decide_eq_true_eq] at hm
    rw [Moment.notAfter_of_utc hu.1, decide_eq_true_eq]
    exact Int.le_trans hstart hm
  · intro m hm
    rw [Moment.before_of_utc hv.2, decide_eq_true_eq] at hm
    rw [Moment.before_of_utc hu.2, decide_eq_true_eq]
    exact Int.lt_of_lt_of_le hm hfinish

namespace Walk

variable {w : Walk} {v : Window} {c : Wall} {start : Moment} {o : Occurrence} {m n k : Nat}
  {cut : Bool}

/-- The walk with another window. -/
def withWindow (w : Walk) (v : Window) : Walk := { w with window := v }

/-- What is past a window is past a smaller one. -/
theorem isPast_withWindow (h : v.IsWithin w.window)
    (hpast : (w.withWindow v).isPast start = false) : w.isPast start = false := by
  obtain ⟨hlast, hfinish⟩ := Bool.or_eq_false_iff.1 hpast
  refine Bool.or_eq_false_iff.2 ⟨hlast, ?_⟩
  rw [Bool.not_eq_false'] at hfinish ⊢
  exact h.finish start hfinish

/-- What is shown in a window is shown in a larger one. -/
theorem isShown_withWindow (h : v.IsWithin w.window)
    (hshown : (w.withWindow v).isShown c start = true) : w.isShown c start = true := by
  obtain ⟨hday, hstart⟩ := Bool.and_eq_true_iff.1 hshown
  exact Bool.and_eq_true_iff.2 ⟨hday, h.start start hstart⟩

/-- Where a walk goes on with a smaller window, it goes on. -/
theorem goesOn_withWindow (h : v.IsWithin w.window) (hgo : (w.withWindow v).GoesOn n c start) :
    w.GoesOn n c start :=
  ⟨hgo.cursor, hgo.localized, isPast_withWindow h hgo.not_past, hgo.under_count, hgo.under_cap,
    hgo.under_steps⟩

/-- **With a smaller window a run does not fail if it does not fail.** -/
theorem run_finished_withWindow (h : v.IsWithin w.window)
    (hend : ∃ cut, w.run.ending = .finished cut) :
    ∃ cut, (w.withWindow v).run.ending = .finished cut := by
  rw [run_finished_iff] at hend ⊢
  intro n c hvisits hc
  have hv : w.Visits n := fun m hm => by
    obtain ⟨d, start, hgo⟩ := hvisits m hm
    exact ⟨d, start, goesOn_withWindow h hgo⟩
  obtain ⟨hlocal, hmade⟩ := hend n c hv hc
  refine ⟨hlocal, fun start hask => hmade start ?_⟩
  exact ⟨goesOn_withWindow h hask.goes_on, hask.passes, isShown_withWindow h hask.shown⟩

/-- A series that is over for a window is over for a smaller one. -/
theorem isOver_withWindow (h : v.IsWithin w.window) (hover : w.IsOver n) :
    (w.withWindow v).IsOver n := by
  intro c start hc hs
  refine (hover c start hc hs).imp_left fun hpast => ?_
  refine Bool.not_eq_false _ ▸ fun hfalse => ?_
  rw [isPast_withWindow h hfalse] at hpast
  cases hpast

/-- The end of the series does not depend on the start of the window. -/
theorem isOver_withWindow_later (w : Walk) (s : Moment) (n : Nat) :
    (w.withWindow ⟨s, w.window.finish⟩).IsOver n ↔ w.IsOver n := Iff.rfl

/-- **With a smaller window a walk that is not cut short ends no later, and is not cut short.** -/
theorem EndsAt.withWindow (h : v.IsWithin w.window) (hw : w.EndsAt n false)
    (hv : (w.withWindow v).EndsAt k cut) : k ≤ n ∧ cut = false := by
  have hle : k ≤ n := hv.le (fun _ => isOver_withWindow h) (fun _ => id) hw
  refine ⟨hle, Bool.not_eq_true _ ▸ fun hcut => ?_⟩
  have hnot : ¬(w.withWindow v).IsOver k := fun hover => by
    rw [hv.over_iff.1 hover] at hcut
    cases hcut
  rcases Nat.lt_or_eq_of_le hle with hlt | rfl
  · -- the walk went on from there, so no limit was used up
    obtain ⟨c, start, hgo⟩ := hw.visits k hlt
    exact hgo.not_over.2 (hv.spent hcut)
  · exact hnot (isOver_withWindow h (hw.over_iff.2 rfl))

/-- Where a walk goes on and the series is over for an earlier end of the window, the cursor is not
before that end. -/
theorem not_before_of_isOver {finish : Moment} (hgo : w.GoesOn k c start)
    (hover : (w.withWindow ⟨w.window.start, finish⟩).IsOver k) : start.before finish = false := by
  rcases hover c start hgo.cursor hgo.localized with hpast | ⟨j, hj, hle⟩
  · have hlast := (Bool.or_eq_false_iff.1 hgo.not_past).1
    rcases Bool.or_eq_true_iff.1 hpast with hpast | hpast
    · cases hlast.symm.trans hpast
    · have hfinish : (!start.before finish) = true := hpast
      rwa [Bool.not_eq_true'] at hfinish
  · have := hgo.under_count j hj
    have hle' : j ≤ (w.series.passedBefore k : Int) := hle
    omega

variable {b : Int} {s finish : Moment}

/-- What a walk gives with a smaller window, it gives. -/
theorem gives_of_withWindow (h : v.IsWithin w.window) (hgives : (w.withWindow v).Gives n c o) :
    w.Gives n c o :=
  ⟨hgives.cursor, hgives.localized, hgives.passes, isShown_withWindow h hgives.shown, hgives.made⟩

/-- What starts in the part of a window after an instant is given there. -/
theorem gives_withWindow (hs : ∀ m : Moment, b ≤ m.instant → s.notAfter m = true)
    (hb : b ≤ o.start.instant) (hgives : w.Gives n c o) :
    (w.withWindow ⟨s, w.window.finish⟩).Gives n c o := by
  have hday := (Bool.and_eq_true_iff.1 hgives.shown).1
  exact ⟨hgives.cursor, hgives.localized, hgives.passes,
    Bool.and_eq_true_iff.2 ⟨hday, hs o.start hb⟩, hgives.made⟩

/-- From the end of the part before an instant on, the part after it gives all that is given. -/
theorem madeAt?_later (h : Window.IsWithin ⟨s, w.window.finish⟩ w.window)
    (hs : ∀ m : Moment, b ≤ m.instant → s.notAfter m = true)
    (hlater : ∀ c o, w.Gives n c o → b ≤ o.start.instant) :
    ((w.withWindow ⟨s, w.window.finish⟩).madeAt? n).filter (fun o => decide (b ≤ o.start.instant))
      = w.madeAt? n := by
  refine Option.ext fun o => ?_
  rw [Option.filter_eq_some_iff, madeAt?_eq_some_iff, madeAt?_eq_some_iff, decide_eq_true_eq]
  constructor
  · rintro ⟨⟨c, hgives⟩, hb⟩
    exact ⟨c, gives_of_withWindow h hgives⟩
  · rintro ⟨c, hgives⟩
    have hb := hlater c o hgives
    exact ⟨⟨c, gives_withWindow hs hb hgives⟩, hb⟩

/-- What is given before the end of the part before an instant starts before that instant. -/
theorem start_lt_of_gives (hfinish : finish.zone = .utc)
    (hearly : (w.withWindow ⟨w.window.start, finish⟩).EndsAt k cut) (hlt : n < k)
    (hgives : w.Gives n c o) : o.start.instant < finish.instant := by
  obtain ⟨d, start, hgo⟩ := hearly.visits n hlt
  cases hgives.cursor.symm.trans hgo.cursor
  cases hgives.localized.symm.trans hgo.localized
  have hstart : (!o.start.before finish) = false := (Bool.or_eq_false_iff.1 hgo.not_past).2
  rwa [Bool.not_eq_false', Moment.before_of_utc hfinish, decide_eq_true_eq] at hstart

/-- What is given from there on starts at that instant or later. -/
theorem le_start_of_gives (hz : w.zone.IsOrderly) (hfinish : finish.zone = .utc)
    (hw : w.EndsAt m cut) (hearly : (w.withWindow ⟨w.window.start, finish⟩).EndsAt k false)
    (hle : k ≤ n) (hlt : n < m) (hgives : w.Gives n c o) : finish.instant ≤ o.start.instant := by
  -- the walk goes on from the cursor at which the first part ends
  obtain ⟨d, start, hgo⟩ := hw.visits k (Nat.lt_of_le_of_lt hle hlt)
  have hstart := not_before_of_isOver hgo (hearly.over_iff.2 rfl)
  rw [Moment.before_of_utc hfinish, decide_eq_false_iff_not] at hstart
  refine Int.le_trans (Int.not_lt.1 hstart) ?_
  rcases Nat.eq_or_lt_of_le hle with rfl | hlater
  · cases hgives.cursor.symm.trans hgo.cursor
    cases hgives.localized.symm.trans hgo.localized
    exact Int.le_refl _
  · exact Series.instant_le_of_cursorAt hz hlater hgo.cursor hgives.cursor hgo.localized
      hgives.localized

/-- **What a walk collects is what it collects up to an instant, and from there on.** -/
theorem madeBefore_split (hz : w.zone.IsOrderly) (hfinish : finish.zone = .utc)
    (h : Window.IsWithin ⟨s, w.window.finish⟩ w.window)
    (hs : ∀ m : Moment, finish.instant ≤ m.instant → s.notAfter m = true) (hw : w.EndsAt n false)
    (hearly : (w.withWindow ⟨w.window.start, finish⟩).EndsAt k false) (hle : k ≤ n) :
    w.madeBefore n = (w.withWindow ⟨w.window.start, finish⟩).madeBefore k
      ++ ((w.withWindow ⟨s, w.window.finish⟩).madeBefore n).filter
        fun o => decide (finish.instant ≤ o.start.instant) := by
  obtain ⟨j, rfl⟩ := Nat.exists_eq_add_of_le hle
  have hbefore : ((w.withWindow ⟨s, w.window.finish⟩).madeBefore k).filter
      (fun o => decide (finish.instant ≤ o.start.instant)) = [] := by
    refine List.filter_eq_nil_iff.2 fun o ho => ?_
    obtain ⟨i, hi, c, hgives⟩ := exists_gives_of_mem ho
    have hlt := start_lt_of_gives hfinish hearly hi (gives_of_withWindow h hgives)
    rw [decide_eq_true_eq]
    exact Int.not_le.2 hlt
  have hafter : ∀ i ∈ List.range j,
      ((w.withWindow ⟨s, w.window.finish⟩).madeAt? (k + i)).filter
        (fun o => decide (finish.instant ≤ o.start.instant)) = w.madeAt? (k + i) := by
    intro i hi
    have hlt : k + i < k + j := Nat.add_lt_add_left (List.mem_range.1 hi) k
    exact madeAt?_later h hs fun c o hgives =>
      le_start_of_gives hz hfinish hw hearly (Nat.le_add_right k i) hlt hgives
  rw [madeBefore_add, madeBefore_add, List.filter_append, hbefore, List.nil_append,
    List.filter_filterMap, List.filterMap_congr hafter]
  rfl

/-- **A run that is not cut short is that of the part of the window before an instant, and then
that of the part after it.** -/
theorem run_split (hz : w.zone.IsOrderly) (hfinish : finish.zone = .utc)
    (hearly : Window.IsWithin ⟨w.window.start, finish⟩ w.window)
    (hlate : Window.IsWithin ⟨s, w.window.finish⟩ w.window)
    (hs : ∀ m : Moment, finish.instant ≤ m.instant → s.notAfter m = true)
    (hend : w.run.ending = .finished false) :
    (w.withWindow ⟨w.window.start, finish⟩).run.ending = .finished false ∧
      (w.withWindow ⟨s, w.window.finish⟩).run.ending = .finished false ∧
      w.run.occurrences = (w.withWindow ⟨w.window.start, finish⟩).run.occurrences
        ++ (w.withWindow ⟨s, w.window.finish⟩).run.occurrences.filter
          fun o => decide (finish.instant ≤ o.start.instant) := by
  obtain ⟨n, hn, hmade⟩ := exists_endsAt_of_run hend
  obtain ⟨cut, hend1⟩ := run_finished_withWindow hearly ⟨_, hend⟩
  obtain ⟨cut', hend2⟩ := run_finished_withWindow hlate ⟨_, hend⟩
  obtain ⟨k, hk, hmade1⟩ := exists_endsAt_of_run hend1
  obtain ⟨n', hn', hmade2⟩ := exists_endsAt_of_run hend2
  obtain ⟨hle, rfl⟩ := hn.withWindow hearly hk
  -- the later part ends where the whole does: it only begins later
  obtain ⟨rfl, rfl⟩ : n = n' ∧ cut' = false := hn.eq (isOver_withWindow_later w s) (fun _ => id) hn'
  refine ⟨hend1, hend2, ?_⟩
  rw [hmade, hmade1, hmade2]
  exact madeBefore_split hz hfinish hlate hs hn hk hle

end Walk

/-- The two parts of an accepted range are accepted. -/
theorem Query.check_split {limits : Limits} {a b c : Moment} {cap : Option Int} {q : CheckedQuery}
    (h : (⟨a, c, cap⟩ : Query).check limits = .ok q) (hab : a.instant ≤ b.instant)
    (hbc : b.instant ≤ c.instant) : ∃ u, b.inUtc = .ok u ∧
      (⟨a, b, cap⟩ : Query).check limits = .ok ⟨q.start, u, q.cap⟩ ∧
      (⟨b, c, cap⟩ : Query).check limits = .ok ⟨u, q.finish, q.cap⟩ := by
  obtain ⟨ha, hc, hcap, hone⟩ := Query.check_eq_ok h
  have hlo := (Moment.exists_inUtc_iff.1 ⟨_, ha⟩).1
  have hhi := (Moment.exists_inUtc_iff.1 ⟨_, hc⟩).2
  obtain ⟨u, hu⟩ := Moment.exists_inUtc_iff.2 ⟨Int.le_trans hlo hab, Int.lt_of_le_of_lt hbc hhi⟩
  rw [hcap] at hone ⊢
  exact ⟨u, hu, Query.check_of_le (q := ⟨a, b, cap⟩) hone ha hu hab,
    Query.check_of_le (q := ⟨b, c, cap⟩) hone hu hc hbc⟩

namespace Event

variable {e : Event} {rule : Rule} {limits : Limits} {q : Query}

/-- An expansion without added occurrences gives what its walk collects. -/
theorem expand_of_walk [ZoneDatabase] {c : CheckedQuery} {w : Walk} {cut : Bool}
    (hrule : e.rule = some rule) (hx : rule.extras = []) (hc : q.check limits = .ok c)
    (hw : e.walk rule limits c = .ok w) (hend : w.run.ending = .finished cut) :
    e.expand limits q = .ok ⟨w.run.occurrences, cut⟩ := by
  refine expand_eq_ok_iff.2 ⟨c, hc, ?_⟩
  rw [occurrences, hrule]
  simp only [hx, if_true, seriesRun, hw]
  rw [← hend]

/-- The walk for another range differs in its window. -/
theorem walk_withWindow [ZoneDatabase] {c c' : CheckedQuery} {w : Walk} {v : Window}
    (hw : e.walk rule limits c = .ok w) (hv : e.windowOf c' = .ok v) (hcap : c'.cap = c.cap) :
    e.walk rule limits c' = .ok (w.withWindow v) := by
  obtain ⟨anchor, days, window, ha, hdays, -, rfl⟩ := walk_eq_ok_iff.1 hw
  refine walk_eq_ok_iff.2 ⟨anchor, days, v, ha, hdays, hv, ?_⟩
  rw [hcap]
  rfl

/-- The windows of the two parts of a range. -/
theorem windowOf_split {q : CheckedQuery} {u : Moment} {v : Window} (hstart : q.start.zone = .utc)
    (hu : u.zone = .utc) (hle : q.start.instant ≤ u.instant)
    (hlength : e.start.instant < e.finish.instant)
    (h : e.windowOf q = .ok v) : e.windowOf ⟨q.start, u, q.cap⟩ = .ok ⟨v.start, u⟩ ∧
      ∃ s, e.windowOf ⟨u, q.finish, q.cap⟩ = .ok ⟨s, v.finish⟩ := by
  obtain ⟨d, hd, hs, hf⟩ := windowOf_eq_ok_iff.1 h
  refine ⟨windowOf_eq_ok_iff.2 ⟨d, hd, hs, rfl⟩, ?_⟩
  -- the later window begins between that of the range and its own part
  have hlo : Wall.firstCount ≤ u.wall.count + -d := by
    have hmoved := (Moment.add_eq_ok_of_utc hstart hs).2.1
    have hfirst := v.start.wall.firstCount_le
    rw [Moment.instant_of_utc hstart, Moment.instant_of_utc hu] at hle
    omega
  have hhi : u.wall.count + -d < Wall.endCount := by
    have hlast := u.wall.count_lt
    have hdur := (duration_eq_ok_iff.1 hd).2.2
    omega
  obtain ⟨s, hadd⟩ := Moment.exists_add hlo hhi
  exact ⟨s, windowOf_eq_ok_iff.2 ⟨d, hd, hadd, hf⟩⟩

/-- They lie in the window of the range, and all that starts in the later part is in its window. -/
theorem isWithin_of_split {a b c u s : Moment} {cap : Option Int} {p : CheckedQuery} {v : Window}
    (hlength : e.start.instant < e.finish.instant) (hab : a.instant ≤ b.instant)
    (hbc : b.instant ≤ c.instant) (hu : b.inUtc = .ok u)
    (hp : (⟨a, c, cap⟩ : Query).check limits = .ok p)
    (hlater : (⟨b, c, cap⟩ : Query).check limits = .ok ⟨u, p.finish, p.cap⟩)
    (hv : e.windowOf p = .ok v) (hs : e.windowOf ⟨u, p.finish, p.cap⟩ = .ok ⟨s, v.finish⟩) :
    Window.IsWithin ⟨v.start, u⟩ v ∧ Window.IsWithin ⟨s, v.finish⟩ v ∧
      ∀ m : Moment, u.instant ≤ m.instant → s.notAfter m = true := by
  obtain ⟨d, hd, ⟨hstart, hstart'⟩, hfinish, hfinish'⟩ := windowOf_utc hp hv
  obtain ⟨d', hd', ⟨hszone, hsinstant⟩, -⟩ := windowOf_utc hlater hs
  cases hd.symm.trans hd'
  have huinstant := Moment.instant_of_inZone Zone.isOrderly_utc hu
  refine ⟨?_, ?_, fun m hm => ?_⟩
  · refine Window.isWithin_of_utc ⟨hstart, hfinish⟩ ⟨hstart, Moment.zone_of_inZone hu⟩
      (Int.le_refl _) ?_
    rw [huinstant, hfinish']
    exact hbc
  · refine Window.isWithin_of_utc ⟨hstart, hfinish⟩ ⟨hszone, hfinish⟩ ?_ (Int.le_refl _)
    rw [hsinstant, hstart']
    exact Int.sub_le_sub_right hab d
  · have hpos : 0 < d := by
      rw [(duration_eq_ok_iff.1 hd).2.2]
      exact Int.sub_pos.2 hlength
    rw [Moment.notAfter_of_utc hszone, hsinstant, decide_eq_true_eq]
    rw [huinstant] at hm
    exact Int.le_trans (Int.sub_le_self b.instant (Int.le_of_lt hpos)) hm

/-- **A range may be split.** If the expansion over a range is not cut short, neither are those over
its two parts, and it gives what the first part gives and then what the second one gives, without
what starts before it. -/
theorem expand_split [ZoneDatabase] {a b c : Moment} {cap : Option Int} {x : Expansion}
    (hz : e.calendarZone.IsOrderly) (hrule : e.rule = some rule) (hx : rule.extras = [])
    (hlength : e.start.instant < e.finish.instant) (hab : a.instant ≤ b.instant)
    (hbc : b.instant ≤ c.instant) (h : e.expand limits ⟨a, c, cap⟩ = .ok x)
    (hcut : x.cutShort = false) :
    ∃ y z, e.expand limits ⟨a, b, cap⟩ = .ok y ∧ y.cutShort = false ∧
      e.expand limits ⟨b, c, cap⟩ = .ok z ∧ z.cutShort = false ∧
      x.occurrences = y.occurrences
        ++ z.occurrences.filter fun o => decide (b.instant ≤ o.start.instant) := by
  obtain ⟨p, w, hp, hw, hrun⟩ := exists_walk_of_expand hrule hx h
  obtain ⟨u, hu, hp1, hp2⟩ := Query.check_split hp hab hbc
  have huinstant := Moment.instant_of_inZone Zone.isOrderly_utc hu
  have hstart := (Query.check_eq_ok hp).1
  have hle : p.start.instant ≤ u.instant := by
    rw [Moment.instant_of_inZone Zone.isOrderly_utc hstart, huinstant]
    exact hab
  have hwindow : e.windowOf p = .ok w.window := by
    obtain ⟨-, -, window, -, -, hwindow, rfl⟩ := walk_eq_ok_iff.1 hw
    exact hwindow
  obtain ⟨hwindow1, s, hwindow2⟩ := windowOf_split (Moment.zone_of_inZone hstart)
    (Moment.zone_of_inZone hu) hle hlength hwindow
  obtain ⟨hearly, hlate, hafter⟩ := isWithin_of_split hlength hab hbc hu hp hp2 hwindow hwindow2
  have hw1 : e.walk rule limits ⟨p.start, u, p.cap⟩ = .ok _ := walk_withWindow hw hwindow1 rfl
  have hw2 : e.walk rule limits ⟨u, p.finish, p.cap⟩ = .ok _ := walk_withWindow hw hwindow2 rfl
  obtain ⟨hend1, hend2, hmade⟩ := Walk.run_split (zone_of_walk hw ▸ hz) (Moment.zone_of_inZone hu)
    hearly hlate hafter (by rw [hrun, ← hcut])
  rw [hrun, huinstant] at hmade
  exact ⟨_, _, expand_of_walk hrule hx hp1 hw1 hend1, rfl, expand_of_walk hrule hx hp2 hw2 hend2,
    rfl, hmade⟩

/-- A range that is split in the middle of the third morning: both parts give that morning. -/
theorem fourMornings_split : ∃ x y z, fourMornings.expand .standard lateOctober = .ok x ∧
    fourMornings.expand .standard ⟨lateOctober.start, .london (october 27) 570, none⟩ = .ok y ∧
    fourMornings.expand .standard ⟨.london (october 27) 570, lateOctober.finish, none⟩ = .ok z ∧
    y.occurrences.length = 1 ∧ z.occurrences.length = 2 ∧
    x.occurrences = y.occurrences ++ z.occurrences.filter
      fun o => decide ((Moment.london (october 27) 570).instant ≤ o.start.instant) := by
  obtain ⟨x, hx, hcut⟩ : ∃ x, fourMornings.expand .standard lateOctober = .ok x ∧
      x.cutShort = false := exists_ok_of_any (by decide +kernel)
  obtain ⟨y, hy, hlength⟩ : ∃ y, fourMornings.expand .standard
      ⟨lateOctober.start, .london (october 27) 570, none⟩ = .ok y ∧ y.occurrences.length = 1 :=
    exists_ok_of_any (by decide +kernel)
  obtain ⟨z, hz, hlength'⟩ : ∃ z, fourMornings.expand .standard
      ⟨.london (october 27) 570, lateOctober.finish, none⟩ = .ok z ∧ z.occurrences.length = 2 :=
    exists_ok_of_any (by decide +kernel)
  obtain ⟨y', z', hy', -, hz', -, hsplit⟩ := expand_split (b := .london (october 27) 570)
    (by decide +kernel) rfl rfl (by decide +kernel) (by decide +kernel) (by decide +kernel) hx hcut
  cases hy.symm.trans hy'
  cases hz.symm.trans hz'
  exact ⟨x, y, z, hx, hy, hz, hlength, hlength', hsplit⟩

end Event

end RecurringEvents
