import RecurringEvents.Moment.Conversion
import RecurringEvents.Proofs.Calendar.Order
import RecurringEvents.Proofs.Moment.ClockText
import RecurringEvents.Proofs.Moment.Passes

/-!
# Instants and the wall clock of a zone

The texts of a date and a minute are read on the wall clock of a zone as an instant, and an instant
is written as the date and the minute that the zone shows. The two are inverse to each other: a wall
time that the zone shows is written as it was read, one that is skipped comes later by the length of
its gap, and an instant is read back unless its wall time was shown before. In the hour at Nuuk that
is read early both fail.

* `Host.instantOfTexts_eq`, `Host.wallClockOfInstant_eq`: the texts.
* `Zone.readAt_first_eq`: the first instant that shows a wall time.
* `Host.wallClock_roundTrip`: both ways.
-/

namespace RecurringEvents

/-! ## Wall times -/

/-- An earlier wall time is in no later year. -/
theorem Wall.year_le_of_count_le {v w : Wall} (h : v.count ≤ w.count) :
    v.date.year ≤ w.date.year := by
  refine Int.not_lt.1 fun hlt => ?_
  have hdays := Date.dayNumber_lt_of_year_lt hlt
  have hv := v.time.nonneg
  have hw := w.time.lt
  simp only [count, dayMicros] at *
  omega

/-- The texts of a wall time: the date with a year of at least four digits, and the minute. -/
def Wall.texts (w : Wall) : List Char × List Char := (dateText w.date, minuteText w.time)

/-- A minute of a day, in the first pass. -/
def Wall.ofMinutes (d : Date) (n : Nat) : Wall := ⟨d, .ofMinutes n, .first⟩

/-- Wall times with the same count have the same texts. -/
theorem Wall.texts_eq_of_count_eq {v w : Wall} (h : v.count = w.count) : v.texts = w.texts := by
  obtain ⟨hdate, htime⟩ := eq_of_count_eq h
  rw [texts, hdate, htime, texts]

namespace Zone

/-- Whether a wall time stays in the years 1 to 9999 when it is read as an instant and shown
again. -/
structure StaysInYears (z : Zone) (n : Int) : Prop where
  instant : Wall.firstCount ≤ z.readAt .first n ∧ z.readAt .first n < Wall.endCount
  shown : Wall.firstCount ≤ z.shown (z.readAt .first n) ∧
    z.shown (z.readAt .first n) < Wall.endCount

/-- Whether no instant before `t` shows the same wall time as `t`. -/
def IsFirst (z : Zone) (t : Int) : Prop := ∀ t' < t, z.shown t' ≠ z.shown t

/-- An instant is the first to show a wall time that is read in one way. -/
theorem IsSettled.isFirst {z : Zone} (hz : z.IsOrderly) {t : Int} (h : z.IsSettled (z.shown t)) :
    z.IsFirst t := by
  intro t' ht heq
  have hearlier := (h.shown_iff hz (z.passAt t) t').1
  rw [hz.readAt_shown] at hearlier
  have := hearlier.2 ht
  omega

/-- **A wall time is read as the first instant that shows it**, apart from the hour at Nuuk. -/
theorem readAt_first_eq {r : Region} (hr : r.IsOrderly) {t : Int}
    (hfirst : (region r).IsFirst t)
    (hclear : ¬r.IsResetHour .first ((region r).shown t / secondMicros)) :
    (region r).readAt .first ((region r).shown t) = t := by
  have hknown : (region r).IsOrderly := hr
  have hback := Region.shown_readAt_of_shows hr ⟨t, rfl⟩ hclear
  rcases Int.lt_trichotomy ((region r).readAt .first ((region r).shown t)) t with hlt | heq | hgt
  · exact absurd hback (hfirst _ hlt)
  · exact heq
  · have := hknown.shown_lt_of_first hback hgt
    omega

end Zone

/-! ## Moments -/

namespace Moment

/-- A moment is shown in a zone at its own instant. -/
theorem exists_inZone_of_shown {m : Moment} {z : Zone} {w : Wall} (hm : m.zone = z → m.IsReal)
    (hrange : Wall.firstCount ≤ m.instant ∧ m.instant < Wall.endCount)
    (hw : w.count = z.shown m.instant) : ∃ u, m.inZone z = .ok u ∧ u.wall.count = w.count := by
  unfold inZone
  split
  · next hown =>
    obtain ⟨rfl, -⟩ := hown
    exact ⟨m, rfl, (hm rfl).symm.trans hw.symm⟩
  · obtain ⟨u, hu⟩ := z.exists_atInstant hrange.1 hrange.2 (hw ▸ w.firstCount_le) (hw ▸ w.count_lt)
    exact ⟨u, hu, (Zone.atInstant_eq_ok_iff.1 hu).2.2.1.trans hw.symm⟩

end Moment

/-! ## Texts -/

namespace Host

section

variable {h : Host} {env : Environment} {date time : String} {name : Option String} {d : Date}
  {t : TimeOfDay}

/-- A date and a time of day that are found are read on the wall clock. -/
theorem instantOfWallClock_of_found [ZoneDatabase] (hd : Iso.day? (Text.trim date.toList) = some d)
    (ht : Iso.clock? (Text.trim time.toList) = some t) : h.instantOfWallClock env date time name
      = Moment.inUtc ⟨⟨d, t, .first⟩, h.zoneOr env name⟩ := by
  rw [instantOfWallClock, hd, ht]

/-- Without a date or a time of day nothing is read. -/
theorem instantOfWallClock_of_none [ZoneDatabase]
    (hnone : Iso.day? (Text.trim date.toList) = none ∨ Iso.clock? (Text.trim time.toList) = none) :
    h.instantOfWallClock env date time name = .error .invalidDate := by
  rw [instantOfWallClock]
  rcases hnone with hd | ht
  · rw [hd]
  · rw [ht]
    cases Iso.day? (Text.trim date.toList) <;> rfl

end

variable (h : Host) (env : Environment) {name : String} {r : Region}

theorem zoneOr_of_resolve? [ZoneDatabase] (hr : ZoneName.resolve? name = some r) :
    h.zoneOr env (some name) = .region r := by
  rw [zoneOr, regionOr, Option.bind_some, hr]
  rfl

/-- The instant that is read from the texts of a wall time. -/
def instantOfTexts [ZoneDatabase] (texts : List Char × List Char) (name : String) :
    Except CalendarError Moment :=
  h.instantOfWallClock env (String.ofList texts.1) (String.ofList texts.2) (some name)

/-- The texts are read on the wall of the zone, in the first pass. -/
theorem instantOfTexts_eq [ZoneDatabase] {w : Wall} (ht : w.time.IsWholeMinute) :
    h.instantOfTexts env w.texts name
      = Moment.inUtc ⟨{ w with pass := .first }, h.zoneOr env (some name)⟩ := by
  refine instantOfWallClock_of_found ?_ ?_
  · rw [String.toList_ofList, Wall.texts,
      Wall.trim_of_textChars fun c hc => Wall.mem_textChars_of_dateText hc, Iso.day?_dateText]
  · rw [String.toList_ofList, Wall.texts,
      Wall.trim_of_textChars fun c hc => Wall.mem_textChars_of_minuteText hc,
      Iso.clock?_minuteText ht]

/-- The texts of what the zone shows are written, without leading zeros in the year. -/
theorem wallClockOfInstant_eq_ok [ZoneDatabase] {m u : Moment} {zone : Option String}
    (hu : m.inZone (h.zoneOr env zone) = .ok u) : h.wallClockOfInstant env m zone
      = .ok (Wall.clockDate u.wall.date, Wall.minuteText u.wall.time) := by
  rw [wallClockOfInstant, hu]
  rfl

/-- They are those that are read if the year has four digits. -/
theorem wallClockOfInstant_eq [ZoneDatabase] {m u : Moment}
    (hu : m.inZone (h.zoneOr env (some name)) = .ok u) (hy : 1000 ≤ u.wall.date.year) :
    h.wallClockOfInstant env m (some name) = .ok u.wall.texts := by
  rw [wallClockOfInstant_eq_ok h env hu, Wall.clockDate_of_le hy]
  rfl

/-! ## Both ways -/

section

variable [ZoneDatabase] (hr : ZoneName.resolve? name = some r)

include hr

/-- A wall time is read as an instant, if this is in range. -/
theorem exists_instantOfTexts {w : Wall} (ht : w.time.IsWholeMinute)
    (hrange : Wall.firstCount ≤ (Zone.region r).readAt .first w.count ∧
      (Zone.region r).readAt .first w.count < Wall.endCount) :
    ∃ m, h.instantOfTexts env w.texts name = .ok m ∧ m.zone = .utc ∧
      m.instant = (Zone.region r).readAt .first w.count := by
  have hinstant : Moment.instant ⟨{ w with pass := .first }, .region r⟩
      = (Zone.region r).readAt .first w.count := Moment.instant_eq _
  rw [instantOfTexts_eq h env ht, zoneOr_of_resolve? h env hr]
  obtain ⟨m, hm⟩ := Moment.exists_inUtc_iff.2 (hinstant ▸ hrange)
  exact ⟨m, hm, Moment.zone_of_inZone hm,
    (Moment.instant_of_inZone Zone.isOrderly_utc hm).trans hinstant⟩

/-- At the instant that a wall time is read as, the texts of what the zone shows are written. -/
theorem exists_written {w : Wall} (ht : w.time.IsWholeMinute)
    (hrange : (Zone.region r).StaysInYears w.count) :
    ∃ m v, h.instantOfTexts env w.texts name = .ok m ∧
      Wall.count v = (Zone.region r).shown ((Zone.region r).readAt .first w.count) ∧
      (1000 ≤ v.date.year → h.wallClockOfInstant env m (some name) = .ok v.texts) := by
  obtain ⟨m, hm, hzone, hinstant⟩ :=
    exists_instantOfTexts h env hr ht hrange.instant
  have hutc : m.zone = .region r → m.IsReal := fun hz => by
    rw [hzone] at hz
    cases hz
  obtain ⟨v, hv⟩ := Wall.exists_ofCount? hrange.shown.1 hrange.shown.2
  have hcount := (Wall.count_of_ofCount? hv).1
  obtain ⟨u, hu, hshown⟩ := Moment.exists_inZone_of_shown hutc (hinstant ▸ hrange.instant)
    (hcount.trans (by rw [hinstant]))
  rw [← zoneOr_of_resolve? h env hr] at hu
  exact ⟨m, u.wall, hm, hshown.trans hcount, wallClockOfInstant_eq h env hu⟩

/-- The instant that first shows a wall time is read back. -/
theorem exists_readBack {m : Moment} {w : Wall}
    (hreal : m.zone = .region r → m.IsReal)
    (hrange : Wall.firstCount ≤ m.instant ∧ m.instant < Wall.endCount)
    (hw : w.count = (Zone.region r).shown m.instant) (hy : 1000 ≤ w.date.year)
    (ht : w.time.IsWholeMinute) (hfirst : (Zone.region r).IsFirst m.instant)
    (hclear : ¬r.IsResetHour .first (w.count / secondMicros)) :
    ∃ texts n, h.wallClockOfInstant env m (some name) = .ok texts ∧
      h.instantOfTexts env texts name = .ok n ∧ n.zone = .utc ∧ n.instant = m.instant := by
  have hread : (Zone.region r).readAt .first w.count = m.instant := by
    rw [hw] at hclear ⊢
    exact Zone.readAt_first_eq (ZoneName.isOrderly_of_resolve? hr) hfirst hclear
  obtain ⟨u, hu, hcount⟩ := Moment.exists_inZone_of_shown hreal hrange hw
  rw [← zoneOr_of_resolve? h env hr] at hu
  obtain ⟨n, hn, hzone, hinstant⟩ :=
    exists_instantOfTexts h env hr ht (hread.symm ▸ hrange)
  rw [← Wall.texts_eq_of_count_eq hcount] at hn
  refine ⟨_, n, wallClockOfInstant_eq h env hu ?_, hn, hzone, hinstant.trans hread⟩
  exact Int.le_trans hy (Wall.year_le_of_count_le (Int.le_of_eq hcount.symm))

end

/-- **The wall clock of a zone and its instants are inverse to each other**, apart from the hour at
Nuuk that is read early. A wall time with a year of four digits that stays in the years 1 to 9999 is
written as it was read if the zone shows it, and later by the length of its gap if the zone skips
it. An instant whose wall time has a year of four digits and is on a whole minute is read back if no
earlier instant shows this wall time. -/
theorem wallClock_roundTrip [ZoneDatabase] (hr : ZoneName.resolve? name = some r) :
    (∀ w : Wall, 1000 ≤ w.date.year → w.time.IsWholeMinute →
      (Zone.region r).StaysInYears w.count → ¬r.IsResetHour .first (w.count / secondMicros) →
      ∃ m, h.instantOfTexts env w.texts name = .ok m ∧
        ((Zone.region r).Shows w.count → h.wallClockOfInstant env m (some name) = .ok w.texts) ∧
        (¬(Zone.region r).Shows w.count → ∃ lo hi v, (Zone.region r).IsGap lo hi ∧
          lo ≤ w.count ∧ w.count < hi ∧ Wall.count v = w.count + (hi - lo) ∧
          h.wallClockOfInstant env m (some name) = .ok v.texts)) ∧
    (∀ (m : Moment) (w : Wall), (m.zone = .region r → m.IsReal) →
      (Wall.firstCount ≤ m.instant ∧ m.instant < Wall.endCount) →
      w.count = (Zone.region r).shown m.instant → 1000 ≤ w.date.year → w.time.IsWholeMinute →
      (Zone.region r).IsFirst m.instant → ¬r.IsResetHour .first (w.count / secondMicros) →
      ∃ texts n, h.wallClockOfInstant env m (some name) = .ok texts ∧
        h.instantOfTexts env texts name = .ok n ∧ n.zone = .utc ∧ n.instant = m.instant) := by
  have hall := ZoneName.isOrderly_of_resolve? hr
  refine ⟨fun w hy ht hrange hclear => ?_, fun m w => exists_readBack h env hr⟩
  obtain ⟨m, v, hm, hv, hwritten⟩ := exists_written h env hr ht hrange
  refine ⟨m, hm, fun hn => ?_, fun hn => ?_⟩
  · have hsame : v.count = w.count := hv.trans (Region.shown_readAt_of_shows hall hn hclear)
    rw [hwritten (Int.le_trans hy (Wall.year_le_of_count_le (Int.le_of_eq hsame.symm))),
      Wall.texts_eq_of_count_eq hsame]
  · obtain ⟨lo, hi, hgap, hlo, hhi, hlater, -⟩ := Region.exists_gap hall hn
    have hlt := hgap.lt
    refine ⟨lo, hi, v, hgap, hlo, hhi, hv.trans hlater, hwritten ?_⟩
    exact Int.le_trans hy (Wall.year_le_of_count_le (by omega))

/-! ### Examples -/

/-- Half past eleven in the evening is shown at Nuuk on this day, but read as the instant at which
the clock shows an hour less. -/
theorem nuukEvening_not_roundTrip : ZoneName.resolve? "America/Nuuk" = some .nuuk ∧
    (Wall.ofMinutes (.near 2023 10 28) 1410).time.IsWholeMinute ∧
    (Zone.region .nuuk).StaysInYears (Wall.ofMinutes (.near 2023 10 28) 1410).count ∧
    (Zone.region .nuuk).Shows (Wall.ofMinutes (.near 2023 10 28) 1410).count ∧
    ∃ m, instantOfTexts {} {} (Wall.ofMinutes (.near 2023 10 28) 1410).texts "America/Nuuk" =
      .ok m ∧ wallClockOfInstant {} {} m (some "America/Nuuk")
        = .ok (Wall.ofMinutes (.near 2023 10 28) 1350).texts := by
  have hwhole : (Wall.ofMinutes (.near 2023 10 28) 1410).time.IsWholeMinute := by decide
  have hrange : (Zone.region .nuuk).StaysInYears (Wall.ofMinutes (.near 2023 10 28) 1410).count :=
    ⟨by decide +kernel, by decide +kernel⟩
  have hr : ZoneName.resolve? "America/Nuuk" = some .nuuk := by decide +kernel
  obtain ⟨m, v, hm, hv, hwritten⟩ := exists_written {} {} hr hwhole hrange
  have hearly : v.count = (Wall.ofMinutes (.near 2023 10 28) 1350).count :=
    hv.trans (by decide +kernel)
  have hyear := Wall.year_le_of_count_le (Int.le_of_eq hearly.symm)
  refine ⟨hr, hwhole, hrange, ⟨1698543000000000, by decide +kernel⟩, m, hm, ?_⟩
  rw [← Wall.texts_eq_of_count_eq hearly]
  exact hwritten (Int.le_trans (by decide) hyear)

/-- Half past one is skipped in London on the last Sunday of March, and half past two is written; an
instant in winter is read back. -/
theorem londonClock_roundTrip :
    (∃ m, instantOfTexts {} {} (Wall.ofMinutes (.near 2025 3 30) 90).texts "Europe/London" = .ok m ∧
      ∃ lo hi v, (Zone.region .london).IsGap lo hi ∧
        lo ≤ (Wall.ofMinutes (.near 2025 3 30) 90).count ∧
        (Wall.ofMinutes (.near 2025 3 30) 90).count < hi ∧
        Wall.count v = (Wall.ofMinutes (.near 2025 3 30) 90).count + (hi - lo) ∧
        wallClockOfInstant {} {} m (some "Europe/London") = .ok v.texts) ∧
    ∃ texts n, wallClockOfInstant {} {} (.ofUtc (Wall.ofMinutes (.near 2025 1 6) 540))
        (some "Europe/London") = .ok texts ∧
      instantOfTexts {} {} texts "Europe/London" = .ok n ∧ n.zone = .utc ∧
      n.instant = Moment.instant (.ofUtc (Wall.ofMinutes (.near 2025 1 6) 540)) := by
  have hclear : ∀ s, ¬Region.london.IsResetHour .first s := fun s h =>
    absurd (congrArg Region.name h.1) (by decide)
  have hr : ZoneName.resolve? "Europe/London" = some .london := by decide +kernel
  obtain ⟨hwall, hinstant⟩ := wallClock_roundTrip {} {} hr
  constructor
  · obtain ⟨m, hm, -, hskipped⟩ := hwall (Wall.ofMinutes (.near 2025 3 30) 90) (by decide)
      (by decide) ⟨by decide +kernel, by decide +kernel⟩ (hclear _)
    refine ⟨m, hm, hskipped fun hn => ?_⟩
    -- what is shown would be read back
    exact absurd (Region.shown_readAt_of_shows (by decide +kernel) hn (hclear _))
      (by decide +kernel)
  · have hsettled : (Zone.region .london).IsSettled ((Zone.region .london).shown
        (Moment.instant (.ofUtc (Wall.ofMinutes (.near 2025 1 6) 540)))) := by decide +kernel
    exact hinstant _ (Wall.ofMinutes (.near 2025 1 6) 540) (fun h => by cases h)
      (by decide +kernel) (by decide +kernel) (by decide) (by decide)
      (hsettled.isFirst (by decide +kernel)) (hclear _)

end Host

end RecurringEvents
