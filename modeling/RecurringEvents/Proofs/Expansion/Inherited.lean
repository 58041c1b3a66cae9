import RecurringEvents.Proofs.Expansion.Batch
import RecurringEvents.Proofs.Expansion.Once

/-!
# What an occurrence has from its event

There are three ways to an occurrence: the walk through a series, the added values of a rule, and an
event without a rule that occurs itself. All of them end in `Event.occurrenceAt`, also those of an
expansion that fails later, so what that one function leaves of the event is true of every
occurrence of every expansion.

* `Event.Makes`, `Event.makes_of_mem_occurrences`: the common end of the three ways.
* `Event.HasOccurrence`: an occurrence of some expansion, read as a whole or only at its beginning.
* `Occurrence.IsOf`, `Event.HasOccurrence.isOf`: what an occurrence has from its event.
-/

namespace RecurringEvents

variable {e : Event} {rule : Rule} {r : Region} {limits : Limits} {q : Query} {k : CheckedQuery}
  {w : Walk} {o : Occurrence}

namespace Event

/-! ## How occurrences are made -/

/-- An event makes an occurrence in its calendar, as one of many if it has a rule; without a rule
the occurrence starts when the event does. -/
structure Makes [ZoneDatabase] (e : Event) (o : Occurrence) : Prop where
  made : e.occurrenceAt e.calendarZone e.rule.isSome o.start = .ok o
  at_start : e.rule = none → o.start = e.start

theorem makes_of_rule [ZoneDatabase] (hrule : e.rule = some rule)
    (h : e.occurrenceAt e.calendarZone true o.start = .ok o) : e.Makes o where
  made := by rwa [hrule]
  at_start := fun hnone => by cases hrule.symm.trans hnone

/-- An occurrence of a walk is made by the event, also if the walk fails later. -/
theorem makes_of_mem_seriesRun [ZoneDatabase] (hrule : e.rule = some rule)
    (h : o ∈ (e.seriesRun rule limits k).occurrences) : e.Makes o := by
  unfold seriesRun at h
  split at h
  · next w hw =>
    obtain ⟨n, c, hmakes⟩ := Walk.exists_makes_of_mem_run h
    have hmade := hmakes.made
    rw [event_of_walk hw, zone_of_walk hw] at hmade
    exact makes_of_rule hrule hmade
  · cases h

/-- An event without a rule makes its only occurrence. -/
theorem makes_of_mem_singleRun [ZoneDatabase] (hrule : e.rule = none)
    (h : o ∈ (e.singleRun k).occurrences) :
    e.Makes o := by
  unfold singleRun at h
  split at h
  · split at h
    · next o' ho' =>
      cases List.mem_singleton.1 h
      have hstart := start_of_occurrenceAt ho'
      exact ⟨by rw [hrule, hstart]; exact ho', fun _ => hstart⟩
    · cases h
  · cases h

/-- **Whatever an expansion comes to is made by the event.** -/
theorem makes_of_mem_occurrences [ZoneDatabase] (h : o ∈ (e.occurrences limits k).occurrences) :
    e.Makes o := by
  unfold occurrences at h
  split at h
  · next hrule => exact makes_of_mem_singleRun hrule h
  · next rule hrule =>
    split at h
    · exact makes_of_mem_seriesRun hrule h
    · split at h
      · cases h
      · next extras hextras =>
        rcases Run.mem_of_mem_merge ((Run.dropRepeats_sublist none _).subset h) with ho | ho
        · exact makes_of_mem_seriesRun hrule ho
        · exact makes_of_rule hrule ((of_extrasIn_eq_ok hextras).2 o ho).1

/-- An occurrence of an event: one of an expansion that succeeds, or one of the first that are read
of an expansion, whatever comes of it later. -/
inductive HasOccurrence [ZoneDatabase] (e : Event) (o : Occurrence) : Prop where
  | expanded {limits : Limits} {q : Query} {x : Expansion}
      (expanded : e.expand limits q = .ok x) (mem : o ∈ x.occurrences)
  | read {limits : Limits} {q : Query} {n : Nat} {os : List Occurrence} {reach : Reach}
      (read : e.take limits q n = .ok (os, reach)) (mem : o ∈ os)

/-- Every occurrence of an event is made by it. -/
theorem HasOccurrence.makes [ZoneDatabase] (h : e.HasOccurrence o) : e.Makes o := by
  cases h with
  | @expanded limits q x hx ho =>
    obtain ⟨k, -, hrun⟩ := expand_eq_ok_iff.1 hx
    have hos : (e.occurrences limits k).occurrences = x.occurrences := congrArg Run.occurrences hrun
    exact makes_of_mem_occurrences (hos ▸ ho)
  | read hread ho =>
    obtain ⟨k, -, hread⟩ := bind_eq_ok_iff.1 hread
    cases hread
    rw [take_firstOccurrences] at ho
    exact makes_of_mem_occurrences (List.mem_of_mem_take ho)

end Event

/-! ## What is left of the event -/

/-- What an occurrence has from its event. It lasts as long in elapsed time, whatever its zone does
meanwhile. One of a rule is named after the millisecond in which it starts, counted from 1970 and
rounded down; without a rule it is the event itself. -/
structure Occurrence.IsOf (o : Occurrence) (e : Event) : Prop where
  elapsed : o.finish.instant - o.start.instant = e.finish.instant - e.start.instant
  duration : o.duration = e.duration
  instanceDate : o.instanceDate = o.start
  title : o.title = e.title
  location : o.location = e.location
  description : o.description = e.description
  timeZone : o.timeZone = e.timeZone
  rule : o.rule = e.rule
  recurring : o.recurring = e.rule.isSome
  named : o.recurring = true → o.masterId = some e.id ∧
    ∃ n, o.id = e.id ++ "_" ++ String.ofList (Text.integer n) ∧
      1000 * n ≤ o.start.instant ∧ o.start.instant < 1000 * (n + 1)
  itself : o.recurring = false → o.masterId = none ∧ o.id = e.id ∧
    o.start.instant = e.start.instant ∧ o.finish.instant = e.finish.instant

namespace Event

/-- An occurrence that is made starts and ends in the calendar of UTC, so its length is measured as
that of the event is. -/
theorem duration_of_occurrenceAt {z : Zone} (hz : z.IsOrderly) {recurring : Bool} {start : Moment}
    (h : e.occurrenceAt z recurring start = .ok o) : o.duration = e.duration := by
  have hends := finish_of_occurrenceAt hz h
  obtain ⟨u, d, v, finish, hu, hd, hv, hf, hlater, rfl⟩ := occurrenceAt_eq_ok_iff.1 h
  have hvzone : v.zone = .utc := (Moment.add_eq_ok_of_utc (Moment.count_of_inUtc hu).1 hv).1
  have hvutc : v.inUtc = .ok v := by
    rw [Moment.inUtc, ← hvzone]
    exact Moment.inZone_self (by rw [hvzone]; rfl)
  have hfinish : ∃ v, finish.inUtc = .ok v := by
    rw [Moment.exists_inUtc_iff, Moment.instant_of_inZone hz hf]
    exact Moment.exists_inUtc_iff.1 ⟨v, hvutc⟩
  have hlength : d = finish.instant - start.instant := by
    rw [(duration_eq_ok_iff.1 hd).2.2, hends, length]
    omega
  rw [hd]
  exact duration_eq_ok_iff.2 ⟨hfinish, ⟨u, hu⟩, hlength⟩

/-- What is left of an event in the occurrence that starts at a moment. -/
theorem isOf_of_occurrenceAt {z : Zone} (hz : z.IsOrderly) {start : Moment}
    (h : e.occurrenceAt z e.rule.isSome start = .ok o) (hstart : e.rule = none → start = e.start) :
    o.IsOf e := by
  have hends := finish_of_occurrenceAt hz h
  have hduration := duration_of_occurrenceAt hz h
  rw [length] at hends
  obtain ⟨-, -, -, finish, -, -, -, -, hlater, rfl⟩ := occurrenceAt_eq_ok_iff.1 h
  refine ⟨by simp only at hends ⊢; omega, hduration, rfl, rfl, rfl, rfl, rfl, rfl, rfl, ?_, ?_⟩
  · intro hrecurring
    simp only at hrecurring ⊢
    rw [hrecurring]
    refine ⟨rfl, start.epochMillis, rfl, ?_⟩
    rw [Moment.epochMillis]
    omega
  · intro hsingle
    simp only at hsingle hends ⊢
    rw [hsingle]
    cases hstart (Option.not_isSome_iff_eq_none.1 (by rw [hsingle]; decide))
    exact ⟨rfl, rfl, rfl, by omega⟩

/-- **Every occurrence of an event whose zone names a region has from it what `Occurrence.IsOf`
tells.** -/
theorem HasOccurrence.isOf [ZoneDatabase] (hr : ZoneName.resolve? e.timeZone = some r)
    (h : e.HasOccurrence o) : o.IsOf e :=
  isOf_of_occurrenceAt (isOrderly_of_resolve? hr) h.makes.made h.makes.at_start

/-- Half a millisecond after eleven in the evening, in London. -/
def late (day : Int) : Moment :=
  ⟨⟨.near 1967 10 day, ⟨82800000500, by decide, by decide⟩, .first⟩, .region .london⟩

/-- Two nights of six hours before 1970. In the second one the clock is put back. -/
def nightShifts : Event where
  id := "shift"
  title := "Night shift"
  location := some "Harbour"
  start := late 27
  finish := ⟨⟨.near 1967 10 28, ⟨18000000500, by decide, by decide⟩, .first⟩, .region .london⟩
  timeZone := "Europe/London"
  rule := some (.daily 2)
  finish_after_start := by decide +kernel

/-- The first of these nights without a rule. -/
def loneShift : Event := { nightShifts with rule := none }

/-- The second night ends an hour earlier by the clock. Its millisecond is rounded down, away from
1970. Without a rule the first night is the event itself. -/
theorem nightShifts_with_loneShift : ZoneName.resolve? nightShifts.timeZone = some .london ∧
    (∃ o, nightShifts.HasOccurrence o ∧ o.start = late 28 ∧ o.start.instant = -68695199999500 ∧
      o.id = "shift_-68695200000" ∧ o.finish.wall.date = .near 1967 10 29 ∧
      o.finish.wall.time.micros = 14400000500 ∧ o.IsOf nightShifts) ∧
    ∃ o, loneShift.HasOccurrence o ∧ o.recurring = false ∧ o.masterId = none ∧ o.id = "shift" ∧
      o.start = late 27 ∧ o.IsOf loneShift := by
  have hzone : ZoneName.resolve? nightShifts.timeZone = some .london := by decide +kernel
  have hlone : ZoneName.resolve? loneShift.timeZone = some .london := hzone
  obtain ⟨x, hx, o, ho, htold⟩ :
      ∃ x, nightShifts.expand .standard ⟨late 27, late 30, none⟩ = .ok x ∧
      ∃ o ∈ x.occurrences, o.start = late 28 ∧ o.start.instant = -68695199999500 ∧
        o.id = "shift_-68695200000" ∧ o.finish.wall.date = .near 1967 10 29 ∧
        o.finish.wall.time.micros = 14400000500 :=
    exists_ok_of_any (by decide +kernel)
  have hof := HasOccurrence.isOf hzone (.expanded hx ho)
  obtain ⟨y, hy, u, hu, hrec, hmaster, hid, hstart⟩ : ∃ y,
      loneShift.expand .standard ⟨late 27, late 30, none⟩ = .ok y ∧
      ∃ u ∈ y.occurrences, u.recurring = false ∧ u.masterId = none ∧ u.id = "shift" ∧
        u.start = late 27 :=
    exists_ok_of_any (by decide +kernel)
  have huof := HasOccurrence.isOf hlone (.expanded hy hu)
  exact ⟨hzone, ⟨o, .expanded hx ho, htold.1, htold.2.1, htold.2.2.1, htold.2.2.2.1, htold.2.2.2.2,
    hof⟩, u, .expanded hy hu, hrec, hmaster, hid, hstart, huof⟩

end Event

end RecurringEvents
