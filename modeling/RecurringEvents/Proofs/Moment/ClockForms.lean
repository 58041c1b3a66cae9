import RecurringEvents.Moment.Conversion
import RecurringEvents.Proofs.Expansion.Universal
import RecurringEvents.Proofs.Iso.Clock
import RecurringEvents.Proofs.Moment.WallClock

/-!
# Which texts are read on a wall clock

The texts of a date and a time of day are read on the wall clock of a zone exactly if they are,
after trimming, in one of the accepted forms, and then as the instant of the date and the time that
they denote. They are refused exactly if one of them is not. Among the accepted forms the documented
ones are told by the places of their separators. An offset is accepted and makes no difference.

* `Host.writes_or_refused`: two texts denote a date and a time of day, or are refused.
* `Host.instantOfWallClock_iff_writes`: what comes of every two texts.
-/

namespace RecurringEvents

open Text Iso

/-- A moment has no representation in UTC only because it is out of range. -/
theorem Moment.inUtc_ne_invalidDate (m : Moment) : m.inUtc ≠ .error .invalidDate := by
  intro hm
  unfold inUtc inZone at hm
  split at hm
  · cases hm
  · unfold Zone.atInstant at hm
    split at hm <;> cases hm

namespace Host

variable {h : Host} {env : Environment} {date time : String} {name : Option String} {d : Date}
  {t : TimeOfDay} {m : Moment}

/-- Two texts denote a date and a time of day, or one of them denotes none. -/
theorem writes_or_refused [ZoneDatabase] (h : Host) (env : Environment) (date time : String)
    (name : Option String) :
    (∃ d t, WritesDay (trim date.toList) d ∧ WritesTime (trim time.toList) t ∧
      h.instantOfWallClock env date time name
        = Moment.inUtc ⟨⟨d, t, .first⟩, h.zoneOr env name⟩) ∨
    (¬∃ d t, WritesDay (trim date.toList) d ∧ WritesTime (trim time.toList) t) ∧
      h.instantOfWallClock env date time name = .error .invalidDate := by
  cases hd : day? (trim date.toList) with
  | none =>
    refine Or.inr ⟨?_, instantOfWallClock_of_none (Or.inl hd)⟩
    rintro ⟨d, t, hday, -⟩
    cases hd.symm.trans (day?_eq_some_iff.2 hday)
  | some d =>
    cases ht : clock? (trim time.toList) with
    | none =>
      refine Or.inr ⟨?_, instantOfWallClock_of_none (Or.inr ht)⟩
      rintro ⟨d, t, -, htime⟩
      cases ht.symm.trans (clock?_eq_some_iff.2 htime)
    | some t =>
      exact Or.inl ⟨d, t, day?_eq_some_iff.1 hd, clock?_eq_some_iff.1 ht,
        instantOfWallClock_of_found hd ht⟩

/-- The texts that are accepted are read on the wall clock. -/
theorem instantOfWallClock_of_writes [ZoneDatabase] (hd : WritesDay (trim date.toList) d)
    (ht : WritesTime (trim time.toList) t) : h.instantOfWallClock env date time name
      = Moment.inUtc ⟨⟨d, t, .first⟩, h.zoneOr env name⟩ :=
  instantOfWallClock_of_found (day?_eq_some_iff.2 hd) (clock?_eq_some_iff.2 ht)

theorem instantOfWallClock_eq_ok_iff [ZoneDatabase] : h.instantOfWallClock env date time name = .ok
    m ↔
    ∃ d t, WritesDay (trim date.toList) d ∧ WritesTime (trim time.toList) t ∧
      Moment.inUtc ⟨⟨d, t, .first⟩, h.zoneOr env name⟩ = .ok m := by
  constructor
  · intro hm
    rcases writes_or_refused h env date time name with ⟨d, t, hd, ht, hread⟩ | ⟨-, hrefused⟩
    · exact ⟨d, t, hd, ht, hread.symm.trans hm⟩
    · cases hrefused.symm.trans hm
  · rintro ⟨d, t, hd, ht, hm⟩
    exact (instantOfWallClock_of_writes hd ht).trans hm

/-- **What comes of every two texts, on every wall clock.** An instant is read exactly from a date
and a time of day in the accepted forms, and it is the one at which the clock shows them, whenever
that is in the calendar. Everything else is refused. The documented date is the accepted form with a
dash after the year and without the letter of a week, and the documented times of day are the
accepted forms of their shape. -/
theorem instantOfWallClock_iff_writes [ZoneDatabase] (h : Host) (env : Environment)
    (date time : String) (name : Option String) :
    (∀ m, h.instantOfWallClock env date time name = .ok m ↔
      ∃ d t, WritesDay (trim date.toList) d ∧ WritesTime (trim time.toList) t ∧
        Moment.inUtc ⟨⟨d, t, .first⟩, h.zoneOr env name⟩ = .ok m) ∧
    ((∃ m, h.instantOfWallClock env date time name = .ok m) ↔
      ∃ d t, WritesDay (trim date.toList) d ∧ WritesTime (trim time.toList) t ∧
        InCalendar ((h.zoneOr env name).readAt .first (Wall.count ⟨d, t, .first⟩))) ∧
    (h.instantOfWallClock env date time name = .error .invalidDate ↔
      ¬∃ d t, WritesDay (trim date.toList) d ∧ WritesTime (trim time.toList) t) ∧
    (∀ d, trim date.toList = Wall.dateText d ↔ WritesDay (trim date.toList) d ∧
      (trim date.toList)[4]? = some '-' ∧ 'W' ∉ trim date.toList) ∧
    (∀ t, IsClockText (trim time.toList) t ↔
      WritesTime (trim time.toList) t ∧ HasClockShape (trim time.toList)) := by
  refine ⟨fun m => instantOfWallClock_eq_ok_iff, ?_, ?_, fun d => dateText_iff,
    fun t => isClockText_iff⟩
  · constructor
    · rintro ⟨m, hm⟩
      obtain ⟨d, t, hd, ht, hutc⟩ := instantOfWallClock_eq_ok_iff.1 hm
      refine ⟨d, t, hd, ht, ?_⟩
      rw [← Moment.instant_eq ⟨⟨d, t, .first⟩, h.zoneOr env name⟩]
      exact Moment.exists_inUtc_iff.1 ⟨m, hutc⟩
    · rintro ⟨d, t, hd, ht, hrange⟩
      rw [← Moment.instant_eq ⟨⟨d, t, .first⟩, h.zoneOr env name⟩] at hrange
      obtain ⟨m, hm⟩ := Moment.exists_inUtc_iff.2 hrange
      exact ⟨m, instantOfWallClock_eq_ok_iff.2 ⟨d, t, hd, ht, hm⟩⟩
  · rcases writes_or_refused h env date time name with ⟨d, t, hd, ht, hread⟩ | ⟨hnot, hrefused⟩
    · rw [hread]
      exact iff_of_false (Moment.inUtc_ne_invalidDate _) (not_not_intro ⟨d, t, hd, ht⟩)
    · exact iff_of_true hrefused hnot

/-- Half past nine with an offset of five hours is read as half past nine in UTC, though it is none
of the documented forms. -/
theorem morningWithOffset_read :
    instantOfWallClock {} {} "2024-01-15" "09:30+05:00" (some "UTC")
      = .ok (.ofUtc (Wall.ofMinutes (.near 2024 1 15) 570)) ∧
    ¬∃ t, IsClockText (trim "09:30+05:00".toList) t := by
  have hzone : zoneOr {} {} (some "UTC") = .region .utc := rfl
  have hday : day? (trim "2024-01-15".toList) = some (.near 2024 1 15) := by decide +kernel
  have hclock : clock? (trim "09:30+05:00".toList) = some (.ofMinutes 570) := by decide +kernel
  constructor
  · rw [instantOfWallClock_of_found hday hclock, hzone]
    rfl
  · rintro ⟨t, ht⟩
    have hsign := (ht.hasClockShape.chars '+' (by decide)).plain.1
    cases hsign

end Host

end RecurringEvents
