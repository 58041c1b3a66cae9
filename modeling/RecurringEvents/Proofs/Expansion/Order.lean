import RecurringEvents.Proofs.Expansion.Course
import RecurringEvents.Proofs.Expansion.Selection
import RecurringEvents.Proofs.Zone.Later

/-!
# The order of occurrences

The cursors of a series are some whole days apart. Localized, they may move towards each other, but
they do not pass each other: neither in time nor on the wall of the zone. So the occurrences of a
series are in order, whether it was cut short or not.

* `Series.instant_le_of_cursorAt`, `Series.wall_le_of_cursorAt`: two cursors, localized.
* `Moment.NoLater`, `Walk.isPast_of_noLater`: what a walk is past stays past.
* `Event.in_order_of_expand`: all occurrences of an event without added ones.
-/

namespace RecurringEvents

namespace Moment

variable {m n last : Moment}

/-- Whether a moment is no later than another one of its zone, neither on the wall nor in time. -/
structure NoLater (m n : Moment) : Prop where
  zone : m.zone = n.zone
  wall : m.wall.count ≤ n.wall.count
  instant : m.instant ≤ n.instant

/-- What is before a moment is before all that is no earlier than that. -/
theorem NoLater.before (h : m.NoLater n) (hm : last.before m = true) : last.before n = true := by
  obtain ⟨hzone, hwall, hinstant⟩ := h
  by_cases hsame : last.zone = m.zone
  · rw [Moment.before, places, if_pos hsame, decide_eq_true_eq] at hm
    rw [Moment.before, places, if_pos (hsame.trans hzone), decide_eq_true_eq]
    exact Int.lt_of_lt_of_le hm hwall
  · rw [before_of_ne hsame, decide_eq_true_eq] at hm
    rw [before_of_ne (hzone ▸ hsame), decide_eq_true_eq]
    exact Int.lt_of_lt_of_le hm hinstant

/-- What is not after a moment is not after all that is no earlier than that. -/
theorem NoLater.notAfter (h : m.NoLater n) (hm : last.notAfter m = true) :
    last.notAfter n = true := by
  obtain ⟨hzone, hwall, hinstant⟩ := h
  by_cases hsame : last.zone = m.zone
  · rw [Moment.notAfter, places, if_pos hsame, decide_eq_true_eq] at hm
    rw [Moment.notAfter, places, if_pos (hsame.trans hzone), decide_eq_true_eq]
    exact Int.le_trans hm hwall
  · rw [notAfter_of_ne hsame, decide_eq_true_eq] at hm
    rw [notAfter_of_ne (hzone ▸ hsame), decide_eq_true_eq]
    exact Int.le_trans hm hinstant

end Moment

/-- **What a walk is past stays past.** -/
theorem Walk.isPast_of_noLater {w : Walk} {start later : Moment} (h : start.NoLater later)
    (hpast : w.isPast start = true) : w.isPast later = true := by
  unfold isPast at *
  simp only [Moment.before_eq_not_notAfter _ w.window.finish, Bool.not_not, Bool.or_eq_true,
    Option.any_eq_true] at *
  exact hpast.imp (fun ⟨last, hlast, hbefore⟩ => ⟨last, hlast, h.before hbefore⟩) h.notAfter

namespace Series

variable {s : Series} {z : Zone} {m n : Nat} {c d : Wall} {start later : Moment} {b : Int}

/-- Two cursors are at one time of day. -/
theorem time_eq_of_cursorAt (hc : s.cursorAt m = some c) (hd : s.cursorAt n = some d) :
    c.time = d.time :=
  (time_of_cursorAt hc).trans (time_of_cursorAt hd).symm

/-- **Of two cursors the later one is localized to no earlier instant.** -/
theorem instant_le_of_cursorAt (hz : z.IsOrderly) (hmn : m < n) (hc : s.cursorAt m = some c)
    (hd : s.cursorAt n = some d) (hstart : Moment.localize c z = .ok start)
    (hlater : Moment.localize d z = .ok later) : start.instant ≤ later.instant :=
  Moment.instant_le_of_localize hz (time_eq_of_cursorAt hc hd) (later_of_cursorAt hmn hc hd) hstart
    hlater

/-- **On the wall it is no earlier either**, but later by what their gaps leave of a day. -/
theorem wall_le_of_cursorAt (hz : z.IsOrderly) (hb : z.GapWithin c.count b)
    (hb' : z.GapWithin d.count b) (hhour : 3600 * secondMicros ≤ b) (hday : b ≤ dayMicros)
    (hmn : m < n) (hc : s.cursorAt m = some c) (hd : s.cursorAt n = some d)
    (hstart : Moment.localize c z = .ok start) (hlater : Moment.localize d z = .ok later) :
    start.wall.count + (dayMicros - b) ≤ later.wall.count := by
  obtain ⟨days, hdays⟩ :=
    Wall.exists_days (time_eq_of_cursorAt hc hd) (later_of_cursorAt hmn hc hd)
  obtain ⟨hzone, hfrom, hreal⟩ := Moment.of_localize hz hstart
  obtain ⟨hzone', hto, hreal'⟩ := Moment.of_localize hz hlater
  rw [← hreal, ← hreal', hfrom, hto, hzone, hzone']
  exact hz.shown_readAt_later hdays hb hb' hhour hday c.pass d.pass

/-- **Localized cursors do not pass each other.** -/
theorem noLater_of_cursorAt (hz : z.IsOrderly) (hmn : m ≤ n) (hc : s.cursorAt m = some c)
    (hd : s.cursorAt n = some d) (hstart : Moment.localize c z = .ok start)
    (hlater : Moment.localize d z = .ok later) : start.NoLater later := by
  have hzone := (Moment.of_localize hz hstart).1.trans (Moment.of_localize hz hlater).1.symm
  rcases Nat.eq_or_lt_of_le hmn with rfl | hlt
  · cases hc.symm.trans hd
    cases hstart.symm.trans hlater
    exact ⟨rfl, Int.le_refl _, Int.le_refl _⟩
  · have hle := wall_le_of_cursorAt hz (hz.gapWithin_day _) (hz.gapWithin_day _) (by decide)
      (Int.le_refl _) hlt hc hd hstart hlater
    exact ⟨hzone, by omega, instant_le_of_cursorAt hz hlt hc hd hstart hlater⟩

end Series

/-- What holds of any two occurrences of which the cursor of one is before that of the other. -/
theorem Walk.pairwise_madeBefore {w : Walk} {R : Occurrence → Occurrence → Prop}
    (h : ∀ m n c d o o', m < n → w.Gives m c o → w.Gives n d o' → R o o') (n : Nat) :
    (w.madeBefore n).Pairwise R := by
  rw [madeBefore, List.pairwise_filterMap]
  refine List.pairwise_lt_range.imp fun {m k} hmk o ho o' ho' => ?_
  obtain ⟨c, hgives⟩ := madeAt?_eq_some_iff.1 ho
  obtain ⟨d, hgives'⟩ := madeAt?_eq_some_iff.1 ho'
  exact h m k c d o o' hmk hgives hgives'

namespace Event

variable {e : Event} {rule : Rule} {limits : Limits} {q : Query}

/-- An expansion without added occurrences is what the cursors before the end of its walk give. -/
theorem exists_endsAt_of_expand [ZoneDatabase] {x : Expansion} (hrule : e.rule = some rule)
    (hx : rule.extras = []) (h : e.expand limits q = .ok x) :
    ∃ c w n, q.check limits = .ok c ∧ e.walk rule limits c = .ok w ∧ w.EndsAt n x.cutShort ∧
      x.occurrences = w.madeBefore n := by
  obtain ⟨c, w, hc, hw, hrun⟩ := exists_walk_of_expand hrule hx h
  obtain ⟨n, hends, hmade⟩ := Walk.exists_endsAt_of_run (congrArg Run.ending hrun)
  exact ⟨c, w, n, hc, hw, hends, (congrArg Run.occurrences hrun).symm.trans hmade⟩

/-- **The occurrences of a series are in the order of time**, whatever changes of the clock it
crosses. -/
theorem in_order_of_expand [ZoneDatabase] {x : Expansion} (hz : e.calendarZone.IsOrderly)
    (hrule : e.rule = some rule) (hx : rule.extras = []) (h : e.expand limits q = .ok x) :
    x.occurrences.Pairwise fun o o' => o.start.instant ≤ o'.start.instant := by
  obtain ⟨c, w, -, hw, hrun⟩ := exists_walk_of_expand hrule hx h
  have hend : w.run.ending = .finished x.cutShort := by rw [hrun]
  obtain ⟨n, -, hmade⟩ := Walk.exists_endsAt_of_run hend
  rw [hrun] at hmade
  rw [show x.occurrences = w.madeBefore n from hmade]
  refine Walk.pairwise_madeBefore (fun m k c d o o' hmk hgives hgives' => ?_) n
  exact Series.instant_le_of_cursorAt (zone_of_walk hw ▸ hz) hmk hgives.cursor hgives'.cursor
    hgives.localized hgives'.localized

/-! ## An example -/

/-- What the clock at Apia shows on a day of December 2011, some minutes after midnight. -/
def apia (day : Int) (minutes : Nat) : Moment :=
  ⟨⟨.near 2011 12 day, .ofMinutes minutes, .first⟩, .region .apia⟩

/-- Mornings at Apia around the day that was skipped there, the 30th of December 2011. -/
def apiaMornings : Event where
  id := "apia"
  start := apia 28 600
  finish := apia 28 660
  timeZone := "Pacific/Apia"
  rule := some (.every .daily)
  finish_after_start := by decide +kernel

/-- The days around it, with a cap. -/
def yearsEnd : Query where
  start := .ofUtc ⟨.near 2011 12 28, .midnight, .first⟩
  finish := .ofUtc ⟨.near 2012 1 4, .midnight, .first⟩
  cap := some 5

/-- The mornings of the 30th and the 31st are one and the same, and none is out of order. -/
theorem apiaMornings_in_order : ∃ x, apiaMornings.expand .standard yearsEnd = .ok x ∧
    x.occurrences.map (fun o => o.start) = [apia 28 600, apia 29 600, apia 31 600, apia 31 600,
      ⟨⟨.near 2012 1 1, .ofMinutes 600, .first⟩, .region .apia⟩] ∧
    x.occurrences.Pairwise fun o o' => o.start.instant ≤ o'.start.instant := by
  obtain ⟨x, hx, hstarts⟩ : ∃ x, apiaMornings.expand .standard yearsEnd = .ok x ∧
      x.occurrences.map (fun o => o.start) = [apia 28 600, apia 29 600, apia 31 600, apia 31 600,
        ⟨⟨.near 2012 1 1, .ofMinutes 600, .first⟩, .region .apia⟩] :=
    exists_ok_of_any (by decide +kernel)
  exact ⟨x, hx, hstarts, in_order_of_expand (by decide +kernel) rfl rfl hx⟩

end Event

end RecurringEvents
