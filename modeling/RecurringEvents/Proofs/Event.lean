import RecurringEvents.Proofs.Expansion.Totality
import RecurringEvents.Proofs.Moment.Passes

/-!
# Which events are accepted

An event is accepted if its end comes after its start, as moments are compared. This is the order of
time if the two are in different zones. In one zone it is the order of the wall, which misleads
where the clock is set back in between: an event that ends later may be refused, and one that ends
earlier may be accepted. Of moments that are shown on the wall, this happens only if they are in the
two passes of a repeated hour.

* `Moment.Misleads`: when the comparison is not that of the instants.
* `Moment.Misleads.crosses`: when this happens.
* `Event.length_pos_iff`: how long an accepted event is.
* `Event.exists_check_iff_later`: which events are accepted.
-/

namespace RecurringEvents

namespace Moment

variable {m n : Moment}

/-- Whether the wall of a zone misleads about two moments: it shows the second one later though it
is not, or it does not show it later though it is. -/
inductive Misleads (m n : Moment) : Prop
  | ahead (zone : m.zone = n.zone) (wall : m.wall.count < n.wall.count)
      (instant : n.instant ≤ m.instant)
  | behind (zone : m.zone = n.zone) (wall : n.wall.count ≤ m.wall.count)
      (instant : m.instant < n.instant)

theorem Misleads.zone (h : m.Misleads n) : m.zone = n.zone := by
  cases h with
  | ahead hzone _ _ => exact hzone
  | behind hzone _ _ => exact hzone

/-- **Moments are compared by their instants, unless the wall misleads about them.** -/
theorem before_iff_instant : (m.before n = true ↔ m.instant < n.instant) ↔ ¬m.Misleads n := by
  by_cases hzone : m.zone = n.zone
  · have hbefore : m.before n = true ↔ m.wall.count < n.wall.count := by
      simp [before, places, hzone]
    rw [hbefore]
    constructor
    · rintro h (⟨-, hwall, hinstant⟩ | ⟨-, hwall, hinstant⟩)
      · have := h.1 hwall
        omega
      · have := h.2 hinstant
        omega
    · intro hnot
      constructor
      · intro hwall
        exact Int.not_le.1 fun hle => hnot (.ahead hzone hwall hle)
      · intro hinstant
        exact Int.not_le.1 fun hle => hnot (.behind hzone hle hinstant)
  · have hclear : ¬m.Misleads n := fun h => hzone h.zone
    simp [before_of_ne hzone, hclear]

/-- **The wall misleads about two moments that it shows only if they are in the two passes of a
repeated hour.** -/
theorem Misleads.crosses (hz : n.zone.IsOrderly) (hm : m.IsReal) (hn : n.IsReal)
    (h : m.Misleads n) : m.Crosses n ∨ n.Crosses m := by
  cases h with
  | ahead hzone hwall hinstant =>
    rcases instant_le_or_crosses hz hzone hm hn (Int.le_of_lt hwall) with hle | hcross
    · have hsame := hm.count_eq hn hzone (Int.le_antisymm hle hinstant)
      omega
    · exact Or.inl hcross
  | behind hzone hwall hinstant =>
    rcases instant_le_or_crosses (hzone ▸ hz) hzone.symm hn hm hwall with hle | hcross
    · omega
    · exact Or.inr hcross

end Moment

namespace Event

/-- The start of an event is before its end, as moments are compared. -/
theorem before_finish (e : Event) : e.start.before e.finish = true := by
  rw [Moment.before_eq_not_notAfter, e.finish_after_start]
  rfl

/-- **An event takes time exactly if the wall does not mislead about its start and its end.** -/
theorem length_pos_iff (e : Event) : 0 < e.length ↔ ¬e.start.Misleads e.finish := by
  rw [← Moment.before_iff_instant]
  simp only [e.before_finish, true_iff, length]
  omega

/-- What is accepted has the times of the draft. -/
theorem times_of_check {d : EventDraft} {start finish : Reading} {e : Event}
    (hs : d.start = some start) (hf : d.finish = some finish) (h : check d = .ok e) :
    e.start = start.moment ∧ e.finish = finish.moment := by
  unfold check at h
  rw [hs, hf] at h
  simp only at h
  split at h
  · cases h
    exact ⟨rfl, rfl⟩
  · cases h

/--
**Which events are accepted.** An event with any start and end is accepted exactly if the end is a
later instant than the start, unless the wall misleads about the two. It does so only if they are in
one zone, and if the zone shows both of them, only if one is in the first and the other one in the
second pass of a repeated hour. Every accepted event about whose times it does not mislead lasts for
a positive time.
-/
theorem exists_check_iff_later {d : EventDraft} {start finish : Reading} (hs : d.start = some start)
    (hf : d.finish = some finish) (hz : finish.moment.zone.IsOrderly) :
    (((∃ e, check d = .ok e) ↔ start.moment.instant < finish.moment.instant) ↔
      ¬start.moment.Misleads finish.moment) ∧
    (start.moment.Misleads finish.moment → start.moment.zone = finish.moment.zone ∧
      (start.moment.IsReal → finish.moment.IsReal →
        start.moment.Crosses finish.moment ∨ finish.moment.Crosses start.moment)) ∧
    ∀ e, check d = .ok e → (0 < e.length ↔ ¬start.moment.Misleads finish.moment) ∧
      ∀ n, e.duration = .ok n → n = e.length := by
  refine ⟨?_, ?_, ?_⟩
  · rw [check_eq_ok_iff hs hf]
    exact Moment.before_iff_instant
  · intro h
    exact ⟨h.zone, fun hreal hreal' => h.crosses hz hreal hreal'⟩
  · intro e he
    obtain ⟨hstart, hfinish⟩ := times_of_check hs hf he
    refine ⟨?_, fun n hn => (duration_eq_ok_iff.1 hn).2.2⟩
    rw [length_pos_iff, hstart, hfinish]

/-! ## Examples -/

/-- What the clock in London shows on the night in which the hour from one to two comes twice. -/
def londonNight (minutes : Nat) (pass : Pass) : Reading :=
  ⟨⟨.near 2024 10 27, .ofMinutes minutes, pass⟩, some (.region .london)⟩

/-- A draft of an event with a start and an end. -/
def fromTo (start finish : Reading) : EventDraft where
  id := "night"
  start := some start
  finish := some finish

/-- From a quarter past one in the second pass to a quarter to two in the first it is half an hour
less than nothing, which is accepted. The other way round it is half an hour, which is refused. -/
theorem fromTo_misjudged :
    (∃ e, check (fromTo (londonNight 75 .second) (londonNight 105 .first)) = .ok e ∧
      e.duration.toOption = some (-1800000000)) ∧
    (londonNight 105 .first).moment.instant + 1800000000 = (londonNight 75 .second).moment.instant ∧
    check (fromTo (londonNight 105 .first) (londonNight 75 .second)) = .error [endIssue] :=
  ⟨exists_ok_of_any (by decide +kernel), by decide +kernel, eq_error_of_fault? (by decide +kernel)⟩

/-- From a quarter past one in the first pass to a quarter to two in the second it is an hour and a
half, as it should be. -/
theorem fromTo_judged :
    ∃ e, check (fromTo (londonNight 75 .first) (londonNight 105 .second)) = .ok e ∧
      e.length = 5400000000 ∧ 0 < e.length ∧
    ((∃ e, check (fromTo (londonNight 75 .first) (londonNight 105 .second)) = .ok e) ↔
      (londonNight 75 .first).moment.instant < (londonNight 105 .second).moment.instant) := by
  obtain ⟨hjudged, -, hlength⟩ := exists_check_iff_later
    (d := fromTo (londonNight 75 .first) (londonNight 105 .second)) rfl rfl (by decide +kernel)
  have hclear : ¬(londonNight 75 .first).moment.Misleads (londonNight 105 .second).moment :=
    Moment.before_iff_instant.1 (by decide +kernel)
  obtain ⟨e, he, hhours⟩ :
      ∃ e, check (fromTo (londonNight 75 .first) (londonNight 105 .second)) = .ok e ∧
        e.length = 5400000000 := exists_ok_of_any (by decide +kernel)
  exact ⟨e, he, hhours, (hlength e he).1.2 hclear, hjudged.2 hclear⟩

end Event

end RecurringEvents
