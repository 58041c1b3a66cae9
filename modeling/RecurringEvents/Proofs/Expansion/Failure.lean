import RecurringEvents.Proofs.Expansion.Totality

/-!
# Why the steps of an expansion fail

Zones are changed and moments are moved within the years 1 to 9999, and a step that deals with the
calendar fails only where it leaves these years. Besides, an occurrence is refused if it does not
end after its start. So a run fails in one way only if none of the occurrences that it asks for is
refused.

* `Moment.failsOnly_inZone`, `Moment.failsOnly_add`: moments.
* `Event.failsOnly_walk`, `Event.failsOnly_extraStarts`: what is found before occurrences are made.
* `Event.failsOnly_occurrenceAt`: occurrences.
* `Walk.failsOnly_run`, `Event.failsOnly_expand`: runs and expansions.
-/

namespace RecurringEvents

namespace Zone

theorem failsOnly_atInstant (z : Zone) (t : Int) : FailsOnly .outOfRange (z.atInstant t) := by
  unfold atInstant
  split
  · exact failsOnly_ok _
  · exact failsOnly_error

end Zone

namespace Moment

/-- A moment has none of a zone only where the calendar ends. -/
theorem failsOnly_inZone (m : Moment) (z : Zone) : FailsOnly .outOfRange (m.inZone z) := by
  unfold inZone
  split
  · exact failsOnly_ok m
  · exact z.failsOnly_atInstant m.instant

theorem failsOnly_inUtc (m : Moment) : FailsOnly .outOfRange m.inUtc := m.failsOnly_inZone .utc

theorem failsOnly_add (m : Moment) (k : Int) : FailsOnly .outOfRange (m.add k) := by
  unfold add
  split
  · exact failsOnly_ok _
  · exact failsOnly_error

theorem failsOnly_elapsed (m n : Moment) : FailsOnly .outOfRange (elapsed m n) := by
  refine n.failsOnly_inUtc.bind fun v _ => ?_
  refine m.failsOnly_inUtc.bind fun u _ => ?_
  exact failsOnly_ok (v.instant - u.instant)

theorem failsOnly_localize (w : Wall) (z : Zone) : FailsOnly .outOfRange (localize w z) :=
  (failsOnly_inUtc _).bind fun u _ => u.failsOnly_inZone z

end Moment

namespace Event

variable {e : Event} {rule : Rule} {limits : Limits} {c : CheckedQuery}

theorem failsOnly_lift {α : Type} {err : CalendarError} {x : Except CalendarError α}
    (h : FailsOnly err x) : FailsOnly (.calendar err) (lift x) := by
  cases hx : x with
  | ok a => exact failsOnly_ok a
  | error err' =>
    rw [h err' hx]
    exact failsOnly_error

theorem failsOnly_daysIn (z : Zone) (vs : List TimeValue) :
    FailsOnly .outOfRange (daysIn z vs) := by
  refine failsOnly_mapM fun v _ => ?_
  cases v with
  | date d => exact failsOnly_ok d
  | time t => exact (t.moment.failsOnly_inZone z).bind fun m _ => failsOnly_ok m.wall.date

theorem failsOnly_extraMoment (z : Zone) (anchor : Wall) (v : TimeValue) :
    FailsOnly .outOfRange (extraMoment z anchor v) := by
  cases v with
  | date d => exact Moment.failsOnly_localize _ z
  | time t => exact t.moment.failsOnly_inZone z

theorem failsOnly_duration (e : Event) : FailsOnly .outOfRange e.duration :=
  Moment.failsOnly_elapsed e.start e.finish

theorem failsOnly_windowOf (e : Event) (c : CheckedQuery) :
    FailsOnly (.calendar .outOfRange) (e.windowOf c) := by
  refine (failsOnly_lift e.failsOnly_duration).bind fun d _ => ?_
  refine (failsOnly_lift (c.start.failsOnly_add (-d))).bind fun start _ => ?_
  exact failsOnly_ok _

/-- A walk does not begin only where the calendar ends. -/
theorem failsOnly_walk [ZoneDatabase] (e : Event) (rule : Rule) (limits : Limits)
    (c : CheckedQuery) :
    FailsOnly (.calendar .outOfRange) (e.walk rule limits c) := by
  refine (failsOnly_lift (e.start.failsOnly_inZone e.calendarZone)).bind fun anchor _ => ?_
  refine (failsOnly_lift (failsOnly_daysIn e.calendarZone rule.excluded)).bind fun days _ => ?_
  refine (e.failsOnly_windowOf c).bind fun window _ => ?_
  exact failsOnly_ok _

/-- An occurrence is not made only where the calendar ends, or if it is refused. -/
theorem failsOnly_occurrenceAt {z : Zone} {recurring : Bool} {start : Moment}
    (hafter : ∀ u d v finish, start.inUtc = .ok u → e.duration = .ok d → u.add d = .ok v →
      v.inZone z = .ok finish → finish.notAfter start = false) :
    FailsOnly (.calendar .outOfRange) (e.occurrenceAt z recurring start) := by
  refine (failsOnly_lift start.failsOnly_inUtc).bind fun u hu => ?_
  refine (failsOnly_lift e.failsOnly_duration).bind fun d hd => ?_
  refine (failsOnly_lift (u.failsOnly_add d)).bind fun v hv => ?_
  refine (failsOnly_lift (v.failsOnly_inZone z)).bind fun finish hf => ?_
  rw [dif_pos (hafter u d v finish (lift_eq_ok_iff.1 hu) (lift_eq_ok_iff.1 hd) (lift_eq_ok_iff.1 hv)
    (lift_eq_ok_iff.1 hf))]
  exact failsOnly_ok _

theorem failsOnly_extraStarts [ZoneDatabase] (e : Event) (rule : Rule) (c : CheckedQuery) :
    FailsOnly (.calendar .outOfRange) (e.extraStarts rule c) := by
  refine (e.failsOnly_windowOf c).bind fun window _ => ?_
  refine (failsOnly_lift (failsOnly_daysIn e.calendarZone rule.excluded)).bind fun days _ => ?_
  refine (failsOnly_lift (e.start.failsOnly_inZone e.calendarZone)).bind fun anchor _ => ?_
  refine (failsOnly_lift (failsOnly_mapM fun v _ =>
    failsOnly_extraMoment e.calendarZone anchor.wall v)).bind fun moments _ => ?_
  exact failsOnly_ok _

end Event

/-! ## Runs -/

/-- Whether a run can fail in one way only. -/
def Run.FailsOnly (err : ExpansionError) (r : Run) : Prop :=
  ∀ err', r.ending = .failed err' → err' = err

/-- **A run fails only where the calendar ends**, if the occurrences of its event do. -/
theorem Walk.failsOnly_run {w : Walk}
    (hmade : ∀ start, FailsOnly (.calendar .outOfRange) (w.event.occurrenceAt w.zone true start)) :
    w.run.FailsOnly (.calendar .outOfRange) := by
  intro err hend
  obtain ⟨p, -, hmove, -⟩ := w.exists_reached_of_run
  rw [hend] at hmove
  rcases move_eq_stop hmove with ⟨-, hfinished⟩ | ⟨cursor, -, ⟨err', hlocal, hfailed⟩ |
    ⟨start, -, hstop | ⟨-, -, -, err', herr, hfailed⟩⟩⟩
  · cases hfinished
  · cases hfailed
    rw [Moment.failsOnly_localize _ _ _ hlocal]
  · obtain ⟨cut, hcut⟩ := exists_of_stops? hstop
    cases hcut
  · cases hfailed
    exact hmade start _ herr

namespace Event

variable {e : Event} {rule : Rule} {limits : Limits} {q : Query} {c : CheckedQuery}

/-- No occurrence of an event is refused. -/
def NoneRefused [ZoneDatabase] (e : Event) : Prop :=
  ∀ recurring start,
    FailsOnly (.calendar .outOfRange) (e.occurrenceAt e.calendarZone recurring start)

theorem failsOnly_singleRun [ZoneDatabase] (h : e.NoneRefused) :
    (e.singleRun c).FailsOnly (.calendar .outOfRange) := by
  intro err hend
  unfold singleRun at hend
  split at hend
  · split at hend
    · cases hend
    · next err' herr =>
      cases hend
      exact h false e.start _ herr
  · cases hend

theorem failsOnly_seriesRun [ZoneDatabase] (h : e.NoneRefused) :
    (e.seriesRun rule limits c).FailsOnly (.calendar .outOfRange) := by
  intro err hend
  unfold seriesRun at hend
  split at hend
  · next w hw =>
    refine Walk.failsOnly_run (fun start => ?_) err hend
    rw [event_of_walk hw, zone_of_walk hw]
    exact h true start
  · next err' herr =>
    cases hend
    exact e.failsOnly_walk rule limits c _ herr

theorem failsOnly_extrasIn [ZoneDatabase] (h : e.NoneRefused) :
    FailsOnly (.calendar .outOfRange) (e.extrasIn rule c) := by
  rw [extrasIn_eq]
  exact (e.failsOnly_extraStarts rule c).bind fun ms _ => failsOnly_mapM fun m _ => h true m

/-- **An expansion that has passed its checks fails only where the calendar ends**, if no occurrence
is refused. -/
theorem failsOnly_expand [ZoneDatabase] (h : e.NoneRefused) (hc : q.check limits = .ok c) :
    FailsOnly (.calendar .outOfRange) (e.expand limits q) := by
  have hrun : (e.occurrences limits c).FailsOnly (.calendar .outOfRange) := by
    intro err hend
    unfold occurrences at hend
    split at hend
    · exact failsOnly_singleRun h err hend
    · split at hend
      · exact failsOnly_seriesRun h err hend
      · split at hend
        · next err' herr =>
          cases hend
          exact failsOnly_extrasIn h _ herr
        · exact failsOnly_seriesRun h err hend
  intro err hfail
  unfold expand at hfail
  simp only [hc, bind, Except.bind] at hfail
  split at hfail
  · cases hfail
  · next err' hend =>
    cases hfail
    exact hrun _ hend

/-- What has passed its checks succeeds if its run does not fail. -/
theorem exists_expand_iff_finished [ZoneDatabase] (hc : q.check limits = .ok c) :
    (∃ x, e.expand limits q = .ok x) ↔ ∃ cut, (e.occurrences limits c).ending = .finished cut := by
  constructor
  · rintro ⟨x, hx⟩
    obtain ⟨c', hc', hrun⟩ := expand_eq_ok_iff.1 hx
    cases hc.symm.trans hc'
    exact ⟨x.cutShort, by rw [hrun]⟩
  · rintro ⟨cut, hcut⟩
    exact ⟨⟨(e.occurrences limits c).occurrences, cut⟩, expand_eq_ok_iff.2 ⟨c, hc, by rw [← hcut]⟩⟩

end Event

end RecurringEvents
