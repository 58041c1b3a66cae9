import RecurringEvents.Proofs.Expansion.Totality

/-!
# Merging added occurrences

Moments of one zone are ordered by its wall. The added occurrences are inserted so that no two of
them have one wall time. They are merged with those of the series, which are in order as well, and
then each occurrence that starts when the one before it does is dropped: what is left is in the
strict order of the wall.

* `pairwise_foldl_insertByWall`: the order of the added starts.
* `Run.IsOrdered.merge`, `Run.IsOrdered.pairwise_dropRepeats`: the order of what is merged.
* `Event.exists_extras_of_expand`: what an expansion with added occurrences is made of.
-/

namespace RecurringEvents

namespace Moment

/-- Moments of one zone are compared by its wall. -/
theorem before_of_eq {a b : Moment} (h : a.zone = b.zone) :
    a.before b = decide (a.wall.count < b.wall.count) := by
  rw [before, places, if_pos h]

theorem same_of_eq {a b : Moment} (h : a.zone = b.zone) :
    a.same b = (a.wall.count == b.wall.count) := by
  rw [same, if_pos h]

end Moment

/-! ## Added starts -/

/-- Whether one moment is earlier on the wall than another. -/
def Moment.EarlierOnWall (m n : Moment) : Prop := m.wall.count < n.wall.count

theorem pairwise_insertByWall {m : Moment} {ms : List Moment}
    (h : ms.Pairwise Moment.EarlierOnWall) : (insertByWall m ms).Pairwise Moment.EarlierOnWall := by
  induction ms with
  | nil => exact List.pairwise_singleton _ m
  | cons x xs ih =>
    obtain ⟨hx, hxs⟩ := List.pairwise_cons.1 h
    unfold insertByWall
    split
    · next hlt =>
      refine List.pairwise_cons.2 ⟨fun y hy => ?_, h⟩
      rcases List.mem_cons.1 hy with rfl | hy
      · exact hlt
      · exact Int.lt_trans hlt (hx y hy)
    · next hge =>
      split
      · exact h
      · next hne =>
        refine List.pairwise_cons.2 ⟨fun y hy => ?_, ih hxs⟩
        rcases Event.mem_of_mem_insertByWall hy with rfl | hy
        · exact Int.lt_iff_le_and_ne.2 ⟨Int.not_lt.1 hge, fun heq => hne heq.symm⟩
        · exact hx y hy

/-- **No two of the moments that are inserted have one wall time.** -/
theorem pairwise_foldl_insertByWall {ms acc : List Moment}
    (h : acc.Pairwise Moment.EarlierOnWall) :
    (ms.foldl (fun ms m => insertByWall m ms) acc).Pairwise Moment.EarlierOnWall := by
  induction ms generalizing acc with
  | nil => exact h
  | cons m ms ih => exact ih (pairwise_insertByWall h)

namespace Run

/-! ## The merged list -/

variable {z : Zone} {ending : Ending} {ss es os : List Occurrence} {o : Occurrence}
  {last : Option Moment}

/-- Whether all the occurrences of a list start in a zone, none of them before one that comes
earlier in the list. -/
structure IsOrdered (z : Zone) (os : List Occurrence) : Prop where
  zone : ∀ o ∈ os, o.start.zone = z
  sorted : os.Pairwise fun o o' => o.start.wall.count ≤ o'.start.wall.count

theorem isOrdered_nil : IsOrdered z [] := ⟨List.forall_mem_nil _, List.Pairwise.nil⟩

theorem isOrdered_cons_iff : IsOrdered z (o :: os) ↔ o.start.zone = z ∧
    (∀ o' ∈ os, o.start.wall.count ≤ o'.start.wall.count) ∧ IsOrdered z os := by
  constructor
  · rintro ⟨hzone, hsorted⟩
    obtain ⟨ho, hos⟩ := List.forall_mem_cons.1 hzone
    obtain ⟨hle, hrest⟩ := List.pairwise_cons.1 hsorted
    exact ⟨ho, hle, hos, hrest⟩
  · rintro ⟨ho, hle, hos, hrest⟩
    exact ⟨List.forall_mem_cons.2 ⟨ho, hos⟩, List.pairwise_cons.2 ⟨hle, hrest⟩⟩

theorem mem_of_mem_merge (h : o ∈ merge ending ss es) : o ∈ ss ∨ o ∈ es := by
  induction ss, es using merge.induct ending with
  | case1 es cut hend =>
    subst hend
    rw [merge] at h
    exact Or.inr h
  | case2 es err hend =>
    subst hend
    rw [merge] at h
    cases h
  | case3 ss hne =>
    rw [merge] at h
    · exact Or.inl h
    · exact hne
  | case4 s ss e es hbefore ih =>
    rw [merge, if_pos hbefore] at h
    rcases List.mem_cons.1 h with rfl | h
    · exact Or.inr List.mem_cons_self
    · exact (ih h).imp_right (List.mem_cons_of_mem e)
  | case5 s ss e es hbefore ih =>
    rw [merge, if_neg hbefore] at h
    rcases List.mem_cons.1 h with rfl | h
    · exact Or.inl List.mem_cons_self
    · exact (ih h).imp_left (List.mem_cons_of_mem s)

/-- **Two lists in order are merged into one.** -/
theorem IsOrdered.merge (hs : IsOrdered z ss) (he : IsOrdered z es) :
    IsOrdered z (Run.merge ending ss es) := by
  induction ss, es using merge.induct ending with
  | case1 es cut hend =>
    subst hend
    rw [Run.merge]
    exact he
  | case2 es err hend =>
    subst hend
    rw [Run.merge]
    exact isOrdered_nil
  | case3 ss hne =>
    rw [Run.merge]
    · exact hs
    · exact hne
  | case4 s ss e es hbefore ih =>
    obtain ⟨hzone, hlater, hrest⟩ := isOrdered_cons_iff.1 he
    obtain ⟨hzone', hlater', -⟩ := isOrdered_cons_iff.1 hs
    have hlt : e.start.wall.count < s.start.wall.count := by
      rwa [Moment.before_of_eq (hzone.trans hzone'.symm), decide_eq_true_eq] at hbefore
    rw [Run.merge, if_pos hbefore]
    refine isOrdered_cons_iff.2 ⟨hzone, fun o ho => ?_, ih hs hrest⟩
    rcases mem_of_mem_merge ho with ho | ho
    · rcases List.mem_cons.1 ho with rfl | ho
      · exact Int.le_of_lt hlt
      · exact Int.le_trans (Int.le_of_lt hlt) (hlater' o ho)
    · exact hlater o ho
  | case5 s ss e es hbefore ih =>
    obtain ⟨hzone, hlater, -⟩ := isOrdered_cons_iff.1 he
    obtain ⟨hzone', hlater', hrest⟩ := isOrdered_cons_iff.1 hs
    have hle : s.start.wall.count ≤ e.start.wall.count := by
      rw [Moment.before_of_eq (hzone.trans hzone'.symm), decide_eq_true_eq] at hbefore
      exact Int.not_lt.1 hbefore
    rw [Run.merge, if_neg hbefore]
    refine isOrdered_cons_iff.2 ⟨hzone', fun o ho => ?_, ih hrest he⟩
    rcases mem_of_mem_merge ho with ho | ho
    · exact hlater' o ho
    · rcases List.mem_cons.1 ho with rfl | ho
      · exact hle
      · exact Int.le_trans hle (hlater o ho)

/-! ## What is left of it -/

theorem dropRepeats_sublist (last : Option Moment) (os : List Occurrence) :
    (dropRepeats last os).Sublist os := by
  induction os generalizing last with
  | nil => exact List.Sublist.slnil
  | cons o os ih =>
    unfold dropRepeats
    split
    · exact (ih last).cons o
    · exact (ih (some o.start)).cons_cons o

/-- What is left after an occurrence starts later on the wall than that. -/
theorem earlier_of_mem_dropRepeats {m : Moment} (h : IsOrdered z os) (hm : m.zone = z)
    (hle : ∀ o ∈ os, m.wall.count ≤ o.start.wall.count) (ho : o ∈ dropRepeats (some m) os) :
    m.EarlierOnWall o.start := by
  induction os with
  | nil => cases ho
  | cons a os ih =>
    obtain ⟨hzone, hlater, hrest⟩ := isOrdered_cons_iff.1 h
    obtain ⟨hfirst, htail⟩ := List.forall_mem_cons.1 hle
    unfold dropRepeats at ho
    split at ho
    · exact ih hrest htail ho
    · next hsame =>
      rw [Option.any_some, Moment.same_of_eq (hzone.trans hm.symm), beq_iff_eq] at hsame
      have hlt : m.wall.count < a.start.wall.count :=
        Int.lt_iff_le_and_ne.2 ⟨hfirst, fun heq => hsame heq.symm⟩
      rcases List.mem_cons.1 ho with rfl | ho
      · exact hlt
      · exact Int.lt_of_lt_of_le hlt (hlater o ((dropRepeats_sublist _ os).subset ho))

/-- **What is left starts in the strict order of the wall.** -/
theorem IsOrdered.pairwise_dropRepeats (h : IsOrdered z os) (last : Option Moment) :
    (dropRepeats last os).Pairwise fun o o' => o.start.EarlierOnWall o'.start := by
  induction os generalizing last with
  | nil => exact List.Pairwise.nil
  | cons a os ih =>
    obtain ⟨hzone, hlater, hrest⟩ := isOrdered_cons_iff.1 h
    unfold dropRepeats
    split
    · exact ih hrest last
    · exact List.pairwise_cons.2
        ⟨fun o ho => earlier_of_mem_dropRepeats hrest hzone hlater ho, ih hrest (some a.start)⟩

end Run

namespace Event

variable {e : Event} {rule : Rule} {limits : Limits} {q : Query} {c : CheckedQuery}

/-- The added occurrences start at the wall times of their zone, in strict order, each at the moment
of an added value. -/
theorem of_extrasIn_eq_ok [ZoneDatabase] {os : List Occurrence} (h : e.extrasIn rule c = .ok os) :
    os.Pairwise (fun o o' => o.start.EarlierOnWall o'.start) ∧ ∀ o ∈ os,
      e.occurrenceAt e.calendarZone true o.start = .ok o ∧
        ∃ anchor, e.start.inZone e.calendarZone = .ok anchor ∧
          ∃ v ∈ rule.extras, extraMoment e.calendarZone anchor.wall v = .ok o.start := by
  rw [extrasIn_eq] at h
  obtain ⟨ms, hms, hos⟩ := bind_eq_ok_iff.1 h
  obtain ⟨window, days, anchor, moments, -, -, ha, hmoments, rfl⟩ := extraStarts_eq_ok_iff.1 hms
  have hstarts := map_of_mapM (g := fun o => o.start) (fun _ _ => start_of_occurrenceAt) hos
  constructor
  · rw [← List.pairwise_map (f := fun o : Occurrence => o.start), hstarts]
    exact pairwise_foldl_insertByWall List.Pairwise.nil
  · intro o ho
    obtain ⟨m, hm, hmade⟩ := exists_of_mem_mapM hos ho
    obtain rfl := start_of_occurrenceAt hmade
    refine ⟨hmade, anchor, ha, ?_⟩
    rcases mem_of_mem_foldl_insertByWall hm with hm | hm
    · exact exists_of_mem_mapM hmoments (List.mem_filter.1 hm).1
    · cases hm

/-- **An expansion with added occurrences merges them with the series.** -/
theorem exists_extras_of_expand [ZoneDatabase] {x : Expansion} (hrule : e.rule = some rule)
    (hx : rule.extras ≠ []) (h : e.expand limits q = .ok x) :
    ∃ c w extras, q.check limits = .ok c ∧ e.walk rule limits c = .ok w ∧
      e.extrasIn rule c = .ok extras ∧ w.run.ending = .finished x.cutShort ∧
      x.occurrences = Run.dropRepeats none (Run.merge w.run.ending w.run.occurrences extras) := by
  obtain ⟨c, hc, hrun⟩ := expand_eq_ok_iff.1 h
  rw [occurrences, hrule] at hrun
  simp only [hx, if_false] at hrun
  split at hrun
  · have hfailed := congrArg Run.ending hrun
    cases hfailed
  · next extras hextras =>
    have hending := congrArg Run.ending hrun
    have hmade := congrArg Run.occurrences hrun
    unfold seriesRun at hending hmade
    split at hending
    · next w hw =>
      rw [hw] at hmade
      exact ⟨c, w, extras, hc, hw, hextras, hending, hmade.symm⟩
    · cases hending

end Event

end RecurringEvents
