import RecurringEvents.Proofs.Expansion.Merge
import RecurringEvents.Proofs.Expansion.Order

/-!
# Identifiers

An occurrence is named after its event and the millisecond in which it starts. All that starts in
one millisecond has one name, so the names of an expansion are distinct if no two occurrences do.
Occurrences are in the strict order of the wall, except where a series comes to a day that its zone
skips, and moments that the wall shows at different times are different instants.

* `Event.IsStart`: where the start of an occurrence comes from.
* `Event.earlier_of_expand`: the strict order on the wall.
* `Event.ids_of_expand`: the identifiers of one expansion.
-/

namespace RecurringEvents

/-! ## Milliseconds -/

/-- An instant is whole seconds away from its wall time. -/
theorem Zone.readAt_emod (z : Zone) (pass : Pass) (n : Int) :
    z.readAt pass n % 1000 = n % 1000 := by
  simp only [readAt, secondMicros]
  omega

/-- At the same time of day the fraction of a millisecond is the same. -/
theorem Wall.count_emod {v w : Wall} (h : v.time = w.time) : v.count % 1000 = w.count % 1000 := by
  simp only [count, h, dayMicros]
  omega

/-- A wall time at the time of day of an anchor is localized to whole milliseconds from it. -/
theorem Moment.instant_emod_of_localize {z : Zone} (hz : z.IsOrderly) {w : Wall} {m anchor : Moment}
    (h : localize w z = .ok m) (hw : w.time = anchor.wall.time) :
    m.instant % 1000 = anchor.instant % 1000 := by
  rw [(of_localize hz h).2.1, Zone.readAt_emod, instant_eq, Zone.readAt_emod, Wall.count_emod hw]

/-- In one millisecond there is one instant that is whole milliseconds away from another one. -/
theorem Moment.instant_eq_of_epochMillis {m n : Moment} (h : m.epochMillis = n.epochMillis)
    (hmillis : m.instant % 1000 = n.instant % 1000) : m.instant = n.instant := by
  unfold epochMillis at h
  omega

/-- Occurrences of one event have one identifier exactly if they start in one millisecond. -/
theorem occurrenceId_eq_iff {masterId : String} {m n : Moment} :
    occurrenceId masterId m = occurrenceId masterId n ↔ m.epochMillis = n.epochMillis := by
  constructor
  · intro h
    have hdigits := String.ofList_injective ((String.append_right_inj _).1 h)
    rw [← Text.integerValue_integer m.epochMillis, hdigits, Text.integerValue_integer]
  · intro h
    rw [occurrenceId, h, occurrenceId]

namespace Event

variable {e : Event} {rule : Rule} {limits : Limits} {q : Query} {m : Moment} {o : Occurrence}

/-! ## Where a start comes from -/

/-- Whether a moment is that of a cursor of the series or of an added value. -/
inductive IsStart [ZoneDatabase] (e : Event) (rule : Rule) (limits : Limits) (m : Moment) : Prop
    where
  | cursor {anchor : Moment} {n : Nat} {c : Wall}
      (anchored : e.start.inZone e.calendarZone = .ok anchor)
      (cursor : (seriesAt rule limits anchor).cursorAt n = some c)
      (localized : Moment.localize c e.calendarZone = .ok m)
  | added {anchor : Moment} {v : TimeValue}
      (anchored : e.start.inZone e.calendarZone = .ok anchor) (added : v ∈ rule.extras)
      (moment : extraMoment e.calendarZone anchor.wall v = .ok m)

/-- Whether the added times that are given in the zone of the event are shown there. -/
def AddsShown [ZoneDatabase] (e : Event) : Prop :=
  ∀ rule ∈ e.rule, ∀ t, .time t ∈ rule.extras → t.moment.zone = e.calendarZone → t.moment.IsReal

/-- Whether the added times are whole milliseconds away from the start. -/
def AddsWholeMillis (e : Event) : Prop :=
  ∀ rule ∈ e.rule, ∀ t, .time t ∈ rule.extras → t.moment.instant % 1000 = e.start.instant % 1000

/-- Every start is in the zone of the event's calendar. -/
theorem IsStart.zone [ZoneDatabase] (hz : e.calendarZone.IsOrderly) (h : e.IsStart rule limits m) :
    m.zone = e.calendarZone := by
  rcases h with ⟨-, -, hm⟩ | ⟨-, -, hm⟩
  · exact (Moment.of_localize hz hm).1
  · unfold extraMoment at hm
    split at hm
    · exact (Moment.of_localize hz hm).1
    · exact Moment.zone_of_inZone hm

/-- **Every start is shown on the wall.** -/
theorem IsStart.isReal [ZoneDatabase] (hz : e.calendarZone.IsOrderly) (hrule : e.rule = some rule)
    (hshown : e.AddsShown) (h : e.IsStart rule limits m) : m.IsReal := by
  rcases h with ⟨-, -, hm⟩ | ⟨-, hv, hm⟩
  · exact (Moment.of_localize hz hm).2.2
  · unfold extraMoment at hm
    split at hm
    · exact (Moment.of_localize hz hm).2.2
    · next t => exact Moment.isReal_of_inZone hz hm (hshown rule hrule t hv)

/-- Every start is whole milliseconds away from that of the event. -/
theorem IsStart.instant_emod [ZoneDatabase] (hz : e.calendarZone.IsOrderly)
    (hrule : e.rule = some rule) (hmillis : e.AddsWholeMillis) (h : e.IsStart rule limits m) :
    m.instant % 1000 = e.start.instant % 1000 := by
  rcases h with ⟨ha, hc, hm⟩ | ⟨ha, hv, hm⟩
  · rw [← Moment.instant_of_inZone hz ha]
    exact Moment.instant_emod_of_localize hz hm (Series.time_of_cursorAt hc)
  · unfold extraMoment at hm
    split at hm
    · rw [← Moment.instant_of_inZone hz ha]
      exact Moment.instant_emod_of_localize hz hm rfl
    · next t =>
      rw [Moment.instant_of_inZone hz hm]
      exact hmillis rule hrule t hv

/-! ## The order of the starts -/

/-- What a walk gives starts at one of its cursors. -/
theorem isStart_of_gives [ZoneDatabase] {c : CheckedQuery} {w : Walk} {n : Nat} {d : Wall}
    (hw : e.walk rule limits c = .ok w) (h : w.Gives n d o) :
    e.IsStart rule limits o.start ∧ e.occurrenceAt e.calendarZone true o.start = .ok o := by
  obtain ⟨anchor, days, window, ha, -, -, rfl⟩ := walk_eq_ok_iff.1 hw
  exact ⟨.cursor ha h.cursor h.localized, h.made⟩

/-- The occurrences of a series are in order. -/
theorem isOrdered_of_run [ZoneDatabase] {c : CheckedQuery} {w : Walk} {cut : Bool}
    (hz : e.calendarZone.IsOrderly) (hw : e.walk rule limits c = .ok w)
    (hend : w.run.ending = .finished cut) :
    Run.IsOrdered e.calendarZone w.run.occurrences := by
  obtain ⟨n, -, hmade⟩ := Walk.exists_endsAt_of_run hend
  rw [hmade]
  constructor
  · intro o ho
    obtain ⟨k, -, d, hgives⟩ := Walk.exists_gives_of_mem ho
    exact (isStart_of_gives hw hgives).1.zone hz
  · refine Walk.pairwise_madeBefore (fun m k c d o o' hmk hgives hgives' => ?_) n
    have hknown : w.zone.IsOrderly := zone_of_walk hw ▸ hz
    have hle := Series.wall_le_of_cursorAt hknown (hknown.gapWithin_day _)
      (hknown.gapWithin_day _) (by decide) (Int.le_refl _) hmk hgives.cursor hgives'.cursor
      hgives.localized hgives'.localized
    omega

/-- The added occurrences are in order. -/
theorem isOrdered_of_extrasIn [ZoneDatabase] {c : CheckedQuery} {extras : List Occurrence}
    (hz : e.calendarZone.IsOrderly) (h : e.extrasIn rule c = .ok extras) :
    Run.IsOrdered e.calendarZone extras := by
  obtain ⟨hsorted, hstarts⟩ := of_extrasIn_eq_ok h
  refine ⟨fun o ho => ?_, hsorted.imp fun hlt => Int.le_of_lt hlt⟩
  obtain ⟨-, anchor, ha, v, hv, hm⟩ := hstarts o ho
  have hstart : e.IsStart rule .standard o.start := .added ha hv hm
  exact hstart.zone hz

/-- Whether a moment is that of a cursor on a day that the zone skips. -/
def IsOnSkippedDay [ZoneDatabase] (e : Event) (rule : Rule) (limits : Limits) (m : Moment) : Prop :=
  ∃ anchor n c, e.start.inZone e.calendarZone = .ok anchor ∧
    (seriesAt rule limits anchor).cursorAt n = some c ∧
    Moment.localize c e.calendarZone = .ok m ∧ e.calendarZone.SkipsDayOf c.count

/-- Cursors that are on no skipped day are localized in the strict order of the wall. -/
theorem earlier_of_gives [ZoneDatabase] {c : CheckedQuery} {w : Walk} {m n : Nat} {d d' : Wall}
    {o o' : Occurrence} (hz : e.calendarZone.IsOrderly) (hw : e.walk rule limits c = .ok w)
    (hmn : m < n) (h : w.Gives m d o) (h' : w.Gives n d' o')
    (hday : ¬e.IsOnSkippedDay rule limits o.start)
    (hday' : ¬e.IsOnSkippedDay rule limits o'.start) : o.start.EarlierOnWall o'.start := by
  obtain ⟨anchor, days, window, ha, -, -, rfl⟩ := walk_eq_ok_iff.1 hw
  have hgap := hz.gapWithin_of_not_skipsDayOf fun hskips =>
    hday ⟨anchor, m, d, ha, h.cursor, h.localized, hskips⟩
  have hgap' := hz.gapWithin_of_not_skipsDayOf fun hskips =>
    hday' ⟨anchor, n, d', ha, h'.cursor, h'.localized, hskips⟩
  have hle := Series.wall_le_of_cursorAt hz hgap hgap' (by decide) (by decide) hmn h.cursor
    h'.cursor h.localized h'.localized
  unfold Moment.EarlierOnWall
  omega

/-- **The occurrences of a rule start in the strict order of the wall**, if none of them is on a day
that is skipped or there are added ones. -/
theorem earlier_of_expand [ZoneDatabase] {x : Expansion} (hz : e.calendarZone.IsOrderly)
    (hrule : e.rule = some rule)
    (hday : rule.extras = [] → ∀ o ∈ x.occurrences, ¬e.IsOnSkippedDay rule limits o.start)
    (h : e.expand limits q = .ok x) :
    x.occurrences.Pairwise fun o o' => o.start.EarlierOnWall o'.start := by
  by_cases hx : rule.extras = []
  · obtain ⟨c, w, n, -, hw, -, hmade⟩ := exists_endsAt_of_expand hrule hx h
    have hpairs := Walk.pairwise_madeBefore
      (fun _ _ _ _ _ _ hmn hgives hgives' => earlier_of_gives hz hw hmn hgives hgives') n
    rw [← hmade] at hpairs
    exact hpairs.imp_of_mem fun ho ho' hearlier => hearlier (hday hx _ ho) (hday hx _ ho')
  · obtain ⟨c, w, extras, -, hw, hextras, hend, hmade⟩ := exists_extras_of_expand hrule hx h
    rw [hmade]
    exact ((isOrdered_of_run hz hw hend).merge
      (isOrdered_of_extrasIn hz hextras)).pairwise_dropRepeats none

/-- What a run collects starts at cursors of its walk. -/
theorem isStart_of_run [ZoneDatabase] {c : CheckedQuery} {w : Walk} {cut : Bool}
    (hw : e.walk rule limits c = .ok w) (hend : w.run.ending = .finished cut)
    (ho : o ∈ w.run.occurrences) :
    e.IsStart rule limits o.start ∧ e.occurrenceAt e.calendarZone true o.start = .ok o := by
  obtain ⟨n, -, hmade⟩ := Walk.exists_endsAt_of_run hend
  rw [hmade] at ho
  obtain ⟨m, -, d, hgives⟩ := Walk.exists_gives_of_mem ho
  exact isStart_of_gives hw hgives

/-- **Every occurrence of a rule is made for one of its starts.** -/
theorem isStart_of_expand [ZoneDatabase] {x : Expansion} (hrule : e.rule = some rule)
    (h : e.expand limits q = .ok x) (ho : o ∈ x.occurrences) :
    e.IsStart rule limits o.start ∧ e.occurrenceAt e.calendarZone true o.start = .ok o := by
  by_cases hx : rule.extras = []
  · obtain ⟨c, w, -, hw, hrun⟩ := exists_walk_of_expand hrule hx h
    exact isStart_of_run hw (congrArg Run.ending hrun) (by rw [hrun]; exact ho)
  · obtain ⟨c, w, extras, -, hw, hextras, hend, hmade⟩ := exists_extras_of_expand hrule hx h
    rw [hmade] at ho
    rcases Run.mem_of_mem_merge ((Run.dropRepeats_sublist none _).subset ho) with ho | ho
    · exact isStart_of_run hw hend ho
    · obtain ⟨hmade, anchor, ha, v, hv, hm⟩ := (of_extrasIn_eq_ok hextras).2 o ho
      exact ⟨.added ha hv hm, hmade⟩

/-! ## The identifiers -/

/-- An occurrence of a rule is named after its start. -/
theorem id_of_occurrenceAt {z : Zone} (h : e.occurrenceAt z true m = .ok o) :
    o.id = occurrenceId e.id m := by
  obtain ⟨-, -, -, -, -, -, -, -, -, rfl⟩ := occurrenceAt_eq_ok_iff.1 h
  rfl

/-- An event without a rule has one occurrence at most. -/
theorem single_of_expand [ZoneDatabase] {x : Expansion} (hrule : e.rule = none)
    (h : e.expand limits q = .ok x) : x.occurrences = [] ∨ ∃ o, x.occurrences = [o] := by
  obtain ⟨c, -, hrun⟩ := expand_eq_ok_iff.1 h
  rw [occurrences, hrule] at hrun
  have hmade : (e.singleRun c).occurrences = x.occurrences := congrArg Run.occurrences hrun
  rw [← hmade]
  unfold singleRun
  split
  · split
    · next o _ => exact Or.inr ⟨o, rfl⟩
    · exact Or.inl rfl
  · exact Or.inl rfl

/-- The occurrences of a rule start at different instants, and are named after their
milliseconds. -/
theorem pairwise_of_expand [ZoneDatabase] {x : Expansion} (hz : e.calendarZone.IsOrderly)
    (hrule : e.rule = some rule) (hshown : e.AddsShown)
    (hday : rule.extras = [] → ∀ o ∈ x.occurrences, ¬e.IsOnSkippedDay rule limits o.start)
    (h : e.expand limits q = .ok x) :
    x.occurrences.Pairwise fun o o' => o.start.instant ≠ o'.start.instant ∧
      (o.id = o'.id ↔ o.start.epochMillis = o'.start.epochMillis) := by
  refine (earlier_of_expand hz hrule hday h).imp_of_mem fun {o o'} ho ho' hlt => ?_
  obtain ⟨hstart, hmade⟩ := isStart_of_expand hrule h ho
  obtain ⟨hstart', hmade'⟩ := isStart_of_expand hrule h ho'
  constructor
  · intro hsame
    have hcount := (hstart.isReal hz hrule hshown).count_eq (hstart'.isReal hz hrule hshown)
      ((hstart.zone hz).trans (hstart'.zone hz).symm) hsame
    exact Int.ne_of_lt hlt hcount
  · rw [id_of_occurrenceAt hmade, id_of_occurrenceAt hmade']
    exact occurrenceId_eq_iff

/--
**All occurrences of an expansion start at different instants, and two of them have one identifier
exactly if they start in one millisecond.** So the identifiers are distinct if the added times are
whole milliseconds away from the start.
-/
theorem ids_of_expand [ZoneDatabase] {x : Expansion} (hz : e.calendarZone.IsOrderly)
    (hshown : e.AddsShown)
    (hday : ∀ rule ∈ e.rule, rule.extras = [] →
      ∀ o ∈ x.occurrences, ¬e.IsOnSkippedDay rule limits o.start)
    (h : e.expand limits q = .ok x) :
    (x.occurrences.Pairwise fun o o' => o.start.instant ≠ o'.start.instant ∧
      (o.id = o'.id ↔ o.start.epochMillis = o'.start.epochMillis)) ∧
    (e.AddsWholeMillis → (x.occurrences.map fun o => o.id).Nodup) := by
  cases hrule : e.rule with
  | none =>
    rcases single_of_expand hrule h with hx | ⟨o, hx⟩
    · rw [hx]
      exact ⟨List.Pairwise.nil, fun _ => List.nodup_nil⟩
    · rw [hx]
      exact ⟨List.pairwise_singleton _ o, fun _ => List.pairwise_singleton _ o.id⟩
  | some rule =>
    have hpairs := pairwise_of_expand hz hrule hshown (hday rule hrule) h
    refine ⟨hpairs, fun hmillis => List.pairwise_map.2 ?_⟩
    refine hpairs.imp_of_mem fun {o o'} ho ho' hdiffer hid => hdiffer.1 ?_
    have hfraction := (isStart_of_expand hrule h ho).1.instant_emod hz hrule hmillis
    have hfraction' := (isStart_of_expand hrule h ho').1.instant_emod hz hrule hmillis
    exact Moment.instant_eq_of_epochMillis (hdiffer.2.1 hid) (hfraction.trans hfraction'.symm)

/-! ## Examples -/

/-- A morning in UTC, some microseconds after nine o'clock. -/
def morning (day : Int) (micros : Fin 1000) : Moment :=
  .ofUtc ⟨.near 2024 1 day,
    ⟨32400000000 + micros, by omega, by simp only [dayMicros]; omega⟩, .first⟩

/-- One morning, to which two are added that are a tenth of a millisecond apart. -/
def nearMornings : Event where
  id := "mornings"
  start := morning 1 0
  finish := .ofUtc ⟨.near 2024 1 1, .ofMinutes 600, .first⟩
  rule := some { Rule.daily 1 with rdates := some [
    .time ⟨(morning 5 100).wall, some .utc⟩, .time ⟨(morning 5 200).wall, some .utc⟩] }
  finish_after_start := by decide +kernel

/-- The first days of the year. -/
def newYear : Query where
  start := .ofUtc ⟨.near 2024 1 1, .midnight, .first⟩
  finish := .ofUtc ⟨.near 2024 2 1, .midnight, .first⟩

/-- The two added ones have one identifier. -/
theorem nearMornings_share_id : ∃ x, nearMornings.expand .standard newYear = .ok x ∧
    ¬(x.occurrences.map fun o => o.id).Nodup :=
  exists_ok_of_any (by decide +kernel)

/-- The mornings at Apia, and one more a few days later. -/
def apiaMorningsAndMore : Event :=
  apiaMornings.withRule (some { Rule.every .daily with rdates := some [
    .time ⟨⟨.near 2012 1 2, .ofMinutes 720, .first⟩, some .utc⟩] })

/-- With an added occurrence the morning that would be made twice is there once. -/
theorem apiaMorningsAndMore_ids : ∃ x, apiaMorningsAndMore.expand .standard yearsEnd = .ok x ∧
    x.occurrences.map (fun o => o.start) = [apia 28 600, apia 29 600, apia 31 600,
      ⟨⟨.near 2012 1 1, .ofMinutes 600, .first⟩, .region .apia⟩,
      ⟨⟨.near 2012 1 3, .ofMinutes 120, .first⟩, .region .apia⟩] ∧
    (x.occurrences.map fun o => o.id).Nodup := by
  obtain ⟨x, hx, hstarts⟩ : ∃ x, apiaMorningsAndMore.expand .standard yearsEnd = .ok x ∧
      x.occurrences.map (fun o => o.start) = [apia 28 600, apia 29 600, apia 31 600,
        ⟨⟨.near 2012 1 1, .ofMinutes 600, .first⟩, .region .apia⟩,
        ⟨⟨.near 2012 1 3, .ofMinutes 120, .first⟩, .region .apia⟩] :=
    exists_ok_of_any (by decide +kernel)
  refine ⟨x, hx, hstarts, (ids_of_expand (by decide +kernel) ?_ ?_ hx).2 ?_⟩
  · intro rule hrule t ht hzone
    cases hrule
    cases List.mem_singleton.1 ht
    exact absurd hzone (by decide +kernel)
  · intro rule hrule hextras
    cases hrule
    cases hextras
  · intro rule hrule t ht
    cases hrule
    cases List.mem_singleton.1 ht
    decide +kernel

end Event

end RecurringEvents
