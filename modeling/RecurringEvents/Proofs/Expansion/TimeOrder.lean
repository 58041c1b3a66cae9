import RecurringEvents.Proofs.Expansion.Added
import RecurringEvents.Proofs.Expansion.LastMoment
import RecurringEvents.Proofs.Moment.Passes

/-!
# Added occurrences in time

Added values are put in order and merged with the series by the wall of the zone. Where every wall
time is one instant this is the order of time, and every added instant is kept. In a repeated hour
it is not: of two instants at one wall time only one is kept, and one in the second pass may come
before one in the first pass.

* `Walk.instants_of_run`: the series by itself.
* `Event.exists_of_addsIn`: what is kept of an added value.
* `Event.instant_le_or_crosses_of_expand`: the order of two occurrences.
* `Event.time_order_of_expand`: the expansion, and when it is in the order of time.
-/

namespace RecurringEvents

namespace Event

variable {e : Event} {rule : Rule} {limits : Limits} {q : Query} {c : CheckedQuery} {x : Expansion}
  {w : Walk} {m : Moment} {o o' : Occurrence} {cut : Bool}

/-! ## The series -/

/-- The occurrences of a series are in the order of time. -/
theorem instants_of_run [ZoneDatabase] (hz : e.calendarZone.IsOrderly)
    (hw : e.walk rule limits c = .ok w) (hend : w.run.ending = .finished cut) :
    w.run.occurrences.Pairwise fun o o' => o.start.instant ≤ o'.start.instant := by
  obtain ⟨n, -, hmade⟩ := Walk.exists_endsAt_of_run hend
  rw [hmade]
  refine Walk.pairwise_madeBefore (fun m k c d o o' hmk hgives hgives' => ?_) n
  exact Series.instant_le_of_cursorAt (zone_of_walk hw ▸ hz) hmk hgives.cursor hgives'.cursor
    hgives.localized hgives'.localized

/-- The occurrences of a series are shown on the wall. -/
theorem isReal_of_mem_run [ZoneDatabase] (hz : e.calendarZone.IsOrderly)
    (hw : e.walk rule limits c = .ok w)
    (hend : w.run.ending = .finished cut) (ho : o ∈ w.run.occurrences) : o.start.IsReal := by
  obtain ⟨n, -, hmade⟩ := Walk.exists_endsAt_of_run hend
  rw [hmade] at ho
  obtain ⟨m, -, d, hgives⟩ := Walk.exists_gives_of_mem ho
  exact (Moment.of_localize (zone_of_walk hw ▸ hz) hgives.localized).2.2

/-- Of two occurrences of a series the later one on the wall is no earlier in time. -/
theorem instant_le_of_mem_run [ZoneDatabase] (hz : e.calendarZone.IsOrderly)
    (hw : e.walk rule limits c = .ok w) (hend : w.run.ending = .finished cut)
    (ho : o ∈ w.run.occurrences) (ho' : o' ∈ w.run.occurrences)
    (hlt : o.start.EarlierOnWall o'.start) :
    o.start.instant ≤ o'.start.instant := by
  have hboth := (isOrdered_of_run hz hw hend).sorted.and (instants_of_run hz hw hend)
  have hforward : w.run.occurrences.Pairwise fun o o' =>
      o.start.EarlierOnWall o'.start → o.start.instant ≤ o'.start.instant :=
    hboth.imp fun h _ => h.2
  have hbackward : w.run.occurrences.Pairwise (flip fun o o' : Occurrence =>
      o.start.EarlierOnWall o'.start → o.start.instant ≤ o'.start.instant) :=
    hboth.imp fun h hlt => absurd h.1 (Int.not_le.2 hlt)
  exact hforward.forall_of_forall_of_flip (fun _ _ _ => Int.le_refl _) hbackward ho ho' hlt

/-! ## What is added -/

/-- An added moment is in the zone of the event's calendar. -/
theorem AddsIn.zone [ZoneDatabase] (hz : e.calendarZone.IsOrderly) (h : e.AddsIn rule q m) :
    m.zone = e.calendarZone := by
  obtain ⟨anchor, -, -, ha, -, -, ⟨v, hv, hm⟩, -⟩ := h
  have hstart : e.IsStart rule .standard m := .added ha hv hm
  exact hstart.zone hz

/-- **Every added value in the range leaves an occurrence at its wall time**, and at its instant
unless that is in another pass of the hour. -/
theorem exists_of_addsIn [ZoneDatabase] (hz : e.calendarZone.IsOrderly) (hrule : e.rule = some rule)
    (h : e.expand limits q = .ok x) (hm : e.AddsIn rule q m) :
    ∃ o ∈ x.occurrences, o.start.wall.count = m.wall.count ∧ (o.start.instant = m.instant ∨
      (o.start.wall.pass ≠ m.wall.pass ∧ m.dependsOnPass = true)) := by
  have hx : rule.extras ≠ [] := by
    obtain ⟨-, -, -, -, -, -, ⟨v, hv, -⟩, -⟩ := hm
    exact List.ne_nil_of_mem hv
  obtain ⟨c, w, extras, hc, hw, hextras, hend, hmade⟩ := exists_extras_of_expand hrule hx h
  obtain ⟨o, ho, hcount⟩ : ∃ o ∈ x.occurrences, o.start.wall.count = m.wall.count := by
    rw [hmade, hend]
    exact (Run.exists_mem_left_iff (isOrdered_of_run hz hw hend).zone
      (isOrdered_of_extrasIn hz hextras).zone).2
      (Or.inr ((exists_extra_iff hc hextras).2 ⟨m, hm, rfl⟩))
  have hzone := (isStart_of_expand hrule h ho).1.zone hz
  exact ⟨o, ho, hcount, Moment.instant_eq_or_of_count (hzone.trans (hm.zone hz).symm) hcount⟩

/-- An occurrence of an expansion is one of the series, or its wall time is that of an added
value. -/
theorem mem_run_or_addsIn [ZoneDatabase] (hc : q.check limits = .ok c) {extras : List Occurrence}
    (hextras : e.extrasIn rule c = .ok extras)
    (hmade : x.occurrences = Run.dropRepeats none (Run.merge w.run.ending w.run.occurrences extras))
    (ho : o ∈ x.occurrences) :
    o ∈ w.run.occurrences ∨ ∃ m, e.AddsIn rule q m ∧ m.wall.count = o.start.wall.count := by
  rw [hmade] at ho
  rcases Run.mem_of_mem_merge ((Run.dropRepeats_sublist none _).subset ho) with ho | ho
  · exact Or.inl ho
  · exact Or.inr ((exists_extra_iff hc hextras).1 ⟨o, ho, rfl⟩)

/-! ## The order -/

/-- Whether no added moment in a range is at a wall time that its zone reads in two ways. -/
def AddsSettled [ZoneDatabase] (e : Event) (q : Query) : Prop :=
  ∀ rule ∈ e.rule, ∀ m, e.AddsIn rule q m → m.dependsOnPass = false

/-- What holds of starts in the order of time, and of all starts of an expansion with added ones
that are in the order of the wall. -/
theorem pairwise_starts [ZoneDatabase] {R : Moment → Moment → Prop} (hz : e.calendarZone.IsOrderly)
    (h : e.expand limits q = .ok x) (htime : ∀ m n : Moment, m.instant ≤ n.instant → R m n)
    (hwall : ∀ rule, e.rule = some rule → rule.extras ≠ [] → ∀ o ∈ x.occurrences,
      ∀ o' ∈ x.occurrences, o.start.EarlierOnWall o'.start → R o.start o'.start) :
    x.occurrences.Pairwise fun o o' => R o.start o'.start := by
  cases hrule : e.rule with
  | none =>
    rcases single_of_expand hrule h with hx | ⟨o, hx⟩
    · rw [hx]
      exact List.Pairwise.nil
    · rw [hx]
      exact List.pairwise_singleton _ o
  | some rule =>
    by_cases hx : rule.extras = []
    · obtain ⟨c, w, -, hw, hrun⟩ := exists_walk_of_expand hrule hx h
      have hinstants := instants_of_run hz hw (congrArg Run.ending hrun)
      rw [hrun] at hinstants
      exact hinstants.imp fun hle => htime _ _ hle
    · exact (earlier_of_expand hz hrule (fun hnone => absurd hnone hx) h).imp_of_mem
        fun ho ho' hlt => hwall rule hrule hx _ ho _ ho' hlt

/-- **Two occurrences of an expansion are in the order of time**, unless they cross. -/
theorem instant_le_or_crosses_of_expand [ZoneDatabase] (hz : e.calendarZone.IsOrderly)
    (h : e.expand limits q = .ok x) : x.occurrences.Pairwise fun o o' =>
      o.start.IsReal → o'.start.IsReal →
        o.start.instant ≤ o'.start.instant ∨ o.start.Crosses o'.start := by
  refine pairwise_starts (R := fun m n => m.IsReal → n.IsReal → m.instant ≤ n.instant ∨ m.Crosses n)
    hz h (fun m n hle _ _ => Or.inl hle) ?_
  intro rule hrule _ o ho o' ho' hlt hreal hreal'
  have hzone := (isStart_of_expand hrule h ho).1.zone hz
  have hzone' := (isStart_of_expand hrule h ho').1.zone hz
  exact Moment.instant_le_or_crosses (hzone' ▸ hz) (hzone.trans hzone'.symm) hreal hreal'
    (Int.le_of_lt hlt)

/-- **They are in the order of time** if no added moment is in doubt. -/
theorem instant_le_of_expand [ZoneDatabase] (hz : e.calendarZone.IsOrderly)
    (hsettled : e.AddsSettled q) (h : e.expand limits q = .ok x) :
    x.occurrences.Pairwise fun o o' => o.start.instant ≤ o'.start.instant := by
  refine pairwise_starts hz h (fun _ _ hle => hle) ?_
  intro rule hrule hx o ho o' ho' hlt
  obtain ⟨c, w, extras, hc, hw, hextras, hend, hmade⟩ := exists_extras_of_expand hrule hx h
  have hzone : ∀ {o}, o ∈ x.occurrences → o.start.zone = e.calendarZone :=
    fun ho => (isStart_of_expand hrule h ho).1.zone hz
  have hsource : ∀ {o}, o ∈ x.occurrences →
      o ∈ w.run.occurrences ∨ o.start.dependsOnPass = false := by
    intro o ho
    refine (mem_run_or_addsIn hc hextras hmade ho).imp_right fun ⟨m, hm, hcount⟩ => ?_
    have hm' := Moment.dependsOnPass_eq_false_iff.1 (hsettled rule hrule m hm)
    rwa [hm.zone hz, hcount, ← hzone ho, ← Moment.dependsOnPass_eq_false_iff] at hm'
  have hreal : ∀ {o}, o ∈ x.occurrences → o.start.IsReal := by
    intro o ho
    rcases hsource ho with hrun | hfree
    · exact isReal_of_mem_run hz hw hend hrun
    · exact Moment.isReal_of_settled (hzone ho ▸ hz) hfree
  have horder := Moment.instant_le_or_crosses (hzone ho' ▸ hz) ((hzone ho).trans (hzone ho').symm)
    (hreal ho) (hreal ho') (Int.le_of_lt hlt)
  rcases hsource ho with hrun | hfree
  · rcases hsource ho' with hrun' | hfree'
    · exact instant_le_of_mem_run hz hw hend hrun hrun' hlt
    · refine horder.resolve_right fun hcross => ?_
      rw [hcross.depends.2] at hfree'
      cases hfree'
  · refine horder.resolve_right fun hcross => ?_
    rw [hcross.depends.1] at hfree
    cases hfree

/--
**Added values and the order of time.** Every added value in the range leaves an occurrence at its
wall time, at its instant unless another pass of a repeated or skipped hour has taken the place. Two
occurrences that are shown on the wall are in the order of time unless one in the second pass comes
before one in the first. If no added value is in doubt, every one is kept at its instant, and all
occurrences are in the order of time.
-/
theorem time_order_of_expand [ZoneDatabase] (hz : e.calendarZone.IsOrderly)
    (h : e.expand limits q = .ok x) :
    (∀ rule ∈ e.rule, ∀ m, e.AddsIn rule q m → ∃ o ∈ x.occurrences,
      o.start.wall.count = m.wall.count ∧ (o.start.instant = m.instant ∨
        (o.start.wall.pass ≠ m.wall.pass ∧ m.dependsOnPass = true))) ∧
    (x.occurrences.Pairwise fun o o' => o.start.IsReal → o'.start.IsReal →
      o.start.instant ≤ o'.start.instant ∨ o.start.Crosses o'.start) ∧
    (e.AddsSettled q →
      (∀ rule ∈ e.rule, ∀ m, e.AddsIn rule q m →
        ∃ o ∈ x.occurrences, o.start.instant = m.instant) ∧
      x.occurrences.Pairwise fun o o' => o.start.instant ≤ o'.start.instant) := by
  have hkept : ∀ rule ∈ e.rule, ∀ m, e.AddsIn rule q m → ∃ o ∈ x.occurrences,
      o.start.wall.count = m.wall.count ∧ (o.start.instant = m.instant ∨
        (o.start.wall.pass ≠ m.wall.pass ∧ m.dependsOnPass = true)) :=
    fun rule hrule m hm => exists_of_addsIn hz hrule h hm
  refine ⟨hkept, instant_le_or_crosses_of_expand hz h, fun hsettled => ⟨?_, ?_⟩⟩
  · intro rule hrule m hm
    obtain ⟨o, ho, -, hinstant⟩ := hkept rule hrule m hm
    refine ⟨o, ho, hinstant.resolve_right fun hdoubt => ?_⟩
    rw [hsettled rule hrule m hm] at hdoubt
    cases hdoubt.2
  · exact instant_le_of_expand hz hsettled h

/-! ## Examples -/

/-- A night with three more starts on the 27th, when the hour from one to two comes twice: a quarter
to two in both passes, and a quarter past one in the second. -/
def threeMore : Rule :=
  { Rule.daily 1 with
    rdates := some [.time ⟨⟨october 27, .ofMinutes 45, .first⟩, some .utc⟩,
      .time ⟨⟨october 27, .ofMinutes 105, .first⟩, some .utc⟩,
      .time ⟨⟨october 27, .ofMinutes 75, .first⟩, some .utc⟩] }

/-- A quarter to two in the second pass is one of the added starts. -/
theorem addsIn_threeMore :
    (nights threeMore).AddsIn threeMore fourNights (.london (october 27) 105 .second) := by
  have hzone : (nights threeMore).calendarZone = .region .london := by decide +kernel
  obtain ⟨d, hd, hlength⟩ : ∃ d, (nights threeMore).duration = .ok d ∧ d = 7200000000 :=
    exists_ok_of_any (by decide +kernel)
  obtain ⟨m, hm, hmoment⟩ : ∃ m, Moment.inZone (.ofUtc ⟨october 27, .ofMinutes 105, .first⟩)
      (.region .london) = .ok m ∧ m = .london (october 27) 105 .second :=
    exists_ok_of_any (by decide +kernel)
  subst hlength hmoment
  refine ⟨.london (october 26) 105, _, [], ?_, hd, rfl, ⟨.time _, .tail _ (.head _), ?_⟩, ?_, ?_⟩
  · rw [hzone]
    exact Moment.inZone_self rfl
  · rw [hzone]
    exact hm
  · decide +kernel
  · exact List.not_mem_nil

/-- It is lost, and the other two come in the wrong order. -/
theorem nights_out_of_time : ZoneName.resolve? (nights threeMore).timeZone = some .london ∧
    ∃ x, (nights threeMore).expand .standard fourNights = .ok x ∧
      (∃ m, (nights threeMore).AddsIn threeMore fourNights m ∧
        ∀ o ∈ x.occurrences, o.start.instant ≠ m.instant) ∧
      ¬x.occurrences.Pairwise fun o o' => o.start.instant ≤ o'.start.instant := by
  obtain ⟨x, hx, hlost, horder⟩ : ∃ x, (nights threeMore).expand .standard fourNights = .ok x ∧
      (∀ o ∈ x.occurrences,
        o.start.instant ≠ (Moment.london (october 27) 105 .second).instant) ∧
      ¬x.occurrences.Pairwise fun o o' => o.start.instant ≤ o'.start.instant :=
    exists_ok_of_any (by decide +kernel)
  exact ⟨by decide +kernel, x, hx, ⟨_, addsIn_threeMore, hlost⟩, horder⟩

/-- What is added to the four mornings is not in doubt. -/
theorem addsSettled_fourDaysAndMore :
    (fourMornings.withRule (some fourDaysAndMore)).AddsSettled lateOctober := by
  rintro rule hrule m ⟨anchor, -, -, ha, -, -, ⟨v, hv, hm⟩, -⟩
  cases hrule
  have hzone : (fourMornings.withRule (some fourDaysAndMore)).calendarZone = .region .london := by
    decide +kernel
  rw [hzone] at ha hm
  cases (Moment.inZone_self rfl).symm.trans ha
  have hall : ∀ v ∈ fourDaysAndMore.extras,
      (extraMoment (.region .london) fourMornings.start.wall v).toOption.all
        (fun m => !m.dependsOnPass) = true := by decide +kernel
  have hfree := hall v hv
  rw [show extraMoment (.region .london) fourMornings.start.wall v = .ok m from hm] at hfree
  have hnot : (!m.dependsOnPass) = true := hfree
  rwa [Bool.not_eq_true'] at hnot

/-- So they are all there, in the order of time. -/
theorem fourMornings_time_order : ∃ x,
    (fourMornings.withRule (some fourDaysAndMore)).expand .standard lateOctober = .ok x ∧
    x.occurrences.length = 4 ∧
    (∀ m, (fourMornings.withRule (some fourDaysAndMore)).AddsIn fourDaysAndMore lateOctober m →
      ∃ o ∈ x.occurrences, o.start.instant = m.instant) ∧
    x.occurrences.Pairwise fun o o' => o.start.instant ≤ o'.start.instant := by
  obtain ⟨x, hx, hlength⟩ :
      ∃ x, (fourMornings.withRule (some fourDaysAndMore)).expand .standard lateOctober = .ok x ∧
        x.occurrences.length = 4 := exists_ok_of_any (by decide +kernel)
  obtain ⟨-, -, hsettled⟩ := time_order_of_expand (by decide +kernel) hx
  obtain ⟨hkept, horder⟩ := hsettled addsSettled_fourDaysAndMore
  exact ⟨x, hx, hlength, hkept fourDaysAndMore rfl, horder⟩

end Event

end RecurringEvents
