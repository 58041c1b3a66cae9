import RecurringEvents.Proofs.Zone.Reading

/-!
# Wall times that a zone skips

When a clock is set forward, some wall times are never shown. Read in the first pass, such a time
moves forward by the length of the gap; read in the second pass, it moves back by as much. Every
wall time that is shown is read as an instant at which it is shown, whatever its pass, except for
one hour at Nuuk.

* `Zone.Shows`, `Zone.IsGap`: what is shown, and what is not.
* `Region.shown_readAt_of_shows`: a wall time that is shown stays.
* `Region.exists_gap`: a wall time that is skipped moves by the length of its gap.
* `Region.shown_readAt_of_nuuk`: the exception.
* `Region.ReadsEarly`: the wall times that are read early.
-/

namespace RecurringEvents

/-! ## One turn -/

namespace Turn

/-- Whether the clock is set forward over a wall time. -/
def Skips (c : Turn) (s : Int) : Prop := c.instant + c.before ≤ s ∧ s < c.instant + c.after

/-- Within a day of `x` a clock has the offsets of the turn. -/
structure Shapes (c : Turn) (k : Clock) (x : Int) : Prop where
  small : c.IsSmall
  typeAt : ∀ t, x - 86400 ≤ t → t ≤ x + 86400 → (k.typeAt t).1.offset = c.offsetAt t

theorem Fits.shapes {c : Turn} {k : Clock} {x : Int} (h : c.Fits k x) : c.Shapes k x :=
  ⟨h.small, h.offsetAt⟩

variable {c : Turn} {s : Int}

/-- A wall time that is not skipped is shown at the instant that it is read as. -/
theorem offsetAt_of_not_skips (h : ¬c.Skips s) (pass : Pass) :
    c.offsetAt (s - c.offsetFor pass s) = c.offsetFor pass s := by
  simp only [Skips] at h
  by_cases hlt : s < c.wallStart pass
  · have hfor : c.offsetFor pass s = c.before := if_pos hlt
    rw [hfor]
    refine offsetAt_of_lt ?_
    cases pass <;> simp only [wallStart] at hlt <;> omega
  · have hfor : c.offsetFor pass s = c.after := if_neg hlt
    rw [hfor]
    refine offsetAt_of_le ?_
    cases pass <;> simp only [wallStart] at hlt <;> omega

/-- In the first pass a skipped wall time is read with the old offset, and shown with the new
one. -/
theorem first_of_skips (h : c.Skips s) :
    c.offsetFor .first s = c.before ∧ c.offsetAt (s - c.before) = c.after :=
  ⟨if_pos (show s < c.instant + max c.before c.after by have := h.2; omega),
    offsetAt_of_le (by have := h.1; omega)⟩

/-- In the second pass it is the other way round. -/
theorem second_of_skips (h : c.Skips s) :
    c.offsetFor .second s = c.after ∧ c.offsetAt (s - c.after) = c.before :=
  ⟨if_neg (show ¬s < c.instant + min c.before c.after by have := h.1; omega),
    offsetAt_of_lt (by have := h.2; omega)⟩

end Turn

/-! ## Clocks -/

namespace Clock

/-- The offset of a clock at an instant. -/
def offset (k : Clock) (t : Int) : Int := (k.typeAt t).1.offset

/-- Whether a clock shows a wall time at some instant. -/
def Shows (k : Clock) (s : Int) : Prop := ∃ t, t + k.offset t = s

variable {k : Clock} {c : Turn} {s : Int}

/-- Whether a wall time is shown is decided within a day of it. -/
theorem shows_iff (hk : ∀ t, -86400 < k.offset t ∧ k.offset t < 86400) (h : c.Shapes k s) :
    k.Shows s ↔ ¬c.Skips s := by
  constructor
  · rintro ⟨t, ht⟩ ⟨hlo, hhi⟩
    have hnear := hk t
    have hoff : k.offset t = c.offsetAt t := h.typeAt t (by omega) (by omega)
    unfold Turn.offsetAt at hoff
    split at hoff <;> omega
  · intro hs
    have hfor := h.small.offsetFor_lt .first s
    refine ⟨s - c.offsetFor .first s, ?_⟩
    rw [offset, h.typeAt _ (by omega) (by omega), c.offsetAt_of_not_skips hs]
    omega

/-- A clock that is set forward at an instant skips what is between. -/
theorem not_shows_of_jump (hk : ∀ t, -86400 < k.offset t ∧ k.offset t < 86400)
    (h : c.Shapes k s) {t : Int} (h1 : t + k.offset (t - 1) ≤ s) (h2 : s < t + k.offset t) :
    ¬k.Shows s := by
  have hold := hk (t - 1)
  have hnew := hk t
  rw [shows_iff hk h, Classical.not_not]
  have e1 : k.offset (t - 1) = c.offsetAt (t - 1) := h.typeAt _ (by omega) (by omega)
  have e2 : k.offset t = c.offsetAt t := h.typeAt t (by omega) (by omega)
  unfold Turn.Skips
  unfold Turn.offsetAt at e1 e2
  split at e1 <;> split at e2 <;> omega

end Clock

/-! ## Zones -/

namespace Zone

/-- Whether a zone shows the wall time with a count at some instant. -/
def Shows (z : Zone) (n : Int) : Prop := ∃ t, z.shown t = n

/-- Whether a zone skips the wall times from `lo` up to `hi`, and no others around them. -/
structure IsGap (z : Zone) (lo hi : Int) : Prop where
  lt : lo < hi
  skips : ∀ n, lo ≤ n → n < hi → ¬z.Shows n
  before : z.Shows (lo - 1)
  after : z.Shows hi

end Zone

namespace Region

variable {r : Region} {n : Int}

theorem shows_iff (r : Region) (n : Int) :
    (Zone.region r).Shows n ↔ r.clock.Shows (n / secondMicros) := by
  constructor
  · rintro ⟨t, rfl⟩
    refine ⟨t / secondMicros, ?_⟩
    simp only [Zone.shown, Zone.offsetAt, Clock.offset, secondMicros]
    omega
  · rintro ⟨t, ht⟩
    refine ⟨t * secondMicros + n % secondMicros, ?_⟩
    have hs : (t * secondMicros + n % secondMicros) / secondMicros = t := by
      simp only [secondMicros]
      omega
    simp only [Zone.shown, Zone.offsetAt, hs]
    simp only [Clock.offset, secondMicros] at *
    omega

/-- What becomes of a wall time when it is read and shown again. -/
theorem shown_readAt (r : Region) (pass : Pass) (n : Int) {o : Int}
    (ho : (r.clock.localType pass (n / secondMicros)).offset = o) :
    (Zone.region r).shown ((Zone.region r).readAt pass n)
      = n + (r.clock.offset (n / secondMicros - o) - o) * secondMicros := by
  have hs : (n - o * secondMicros) / secondMicros = n / secondMicros - o := by
    simp only [secondMicros]
    omega
  have hread : (Zone.region r).readAt pass n = n - o * secondMicros := by
    rw [Zone.readAt, Zone.offsetFor, ho]
  rw [hread, Zone.shown, Zone.offsetAt, hs, Clock.offset]
  simp only [secondMicros]
  omega

theorem offset_lt (hr : r.IsOrderly) (t : Int) :
    -86400 < r.clock.offset t ∧ r.clock.offset t < 86400 :=
  (soundAt hr t).offset_lt

/-- Whether a wall time is read at Nuuk with an offset that the clock does not have. -/
def IsResetHour (r : Region) (pass : Pass) (s : Int) : Prop :=
  r = nuuk ∧ pass = .first ∧ nuukReset - 7200 < s ∧ s < nuukReset - 3600

/-- Around the reset, Nuuk has one offset. -/
theorem nuuk_shapes {x : Int} (h1 : nuukReset - 172800 ≤ x) (h2 : x ≤ nuukReset + 172800) :
    (Turn.still x (-7200)).Shapes nuuk.clock x := by
  refine ⟨Turn.still_isSmall (by decide) (by decide), fun t ht1 ht2 => ?_⟩
  rw [(nuuk_typeAt (t := t) (by omega) (by omega)).1, Turn.offsetAt_still]

/-- Around every wall time the offsets of an orderly region are those of one turn, with which the
wall is read as well, apart from the hour at Nuuk. -/
theorem exists_shapes (hr : r.IsOrderly) (x : Int) : ∃ c : Turn, c.Shapes r.clock x ∧
    ∀ pass, ¬r.IsResetHour pass x → (r.clock.localType pass x).offset = c.offsetFor pass x := by
  rcases exists_fits_or_reset hr x with ⟨c, hc⟩ | ⟨rfl, h1, h2⟩
  · exact ⟨c, hc.shapes, fun pass _ => hc.offsetFor pass⟩
  · refine ⟨_, nuuk_shapes (by omega) (by omega), fun pass hp => ?_⟩
    rw [nuuk_localType pass (by omega) (by omega), Turn.offsetFor_still]
    exact if_neg fun h => hp ⟨rfl, h⟩

/-- **A wall time that is shown is read as an instant at which it is shown**, apart from the hour at
Nuuk. -/
theorem shown_readAt_of_shows (hr : r.IsOrderly) {pass : Pass} (hn : (Zone.region r).Shows n)
    (hreset : ¬r.IsResetHour pass (n / secondMicros)) :
    (Zone.region r).shown ((Zone.region r).readAt pass n) = n := by
  obtain ⟨c, hc, hread⟩ := exists_shapes hr (n / secondMicros)
  have hskips := (Clock.shows_iff (offset_lt hr) hc).1 ((r.shows_iff n).1 hn)
  have hfor := hc.small.offsetFor_lt pass (n / secondMicros)
  have hoff : r.clock.offset (n / secondMicros - c.offsetFor pass (n / secondMicros))
      = c.offsetFor pass (n / secondMicros) :=
    (hc.typeAt _ (by omega) (by omega)).trans (c.offsetAt_of_not_skips hskips pass)
  rw [shown_readAt r pass n (hread pass hreset), hoff]
  omega

/-- In the hour before its reset, Nuuk reads the first pass of what it shows an hour too early. -/
theorem shown_readAt_of_nuuk {pass : Pass} (h : r.IsResetHour pass (n / secondMicros)) :
    (Zone.region r).Shows n ∧
      (Zone.region r).shown ((Zone.region r).readAt pass n) = n - 3600 * secondMicros := by
  obtain ⟨rfl, rfl, h1, h2⟩ := h
  constructor
  · refine (shows_iff _ n).2 ⟨n / secondMicros + 7200, ?_⟩
    rw [Clock.offset, (nuuk_typeAt (by omega) (by omega)).1]
    omega
  · have ho : (nuuk.clock.localType .first (n / secondMicros)).offset = -3600 := by
      rw [nuuk_localType .first (by omega) (by omega)]
      exact if_pos ⟨rfl, h1, h2⟩
    rw [shown_readAt nuuk .first n ho, Clock.offset, (nuuk_typeAt (by omega) (by omega)).1]
    omega

/-- Where the offset grows, the wall skips what lies between the old and the new reading. -/
theorem isGap_of_jump (hr : r.IsOrderly) {t before after : Int}
    (hold : r.clock.offset (t - 1) = before) (hnew : r.clock.offset t = after)
    (hlt : before < after) :
    (Zone.region r).IsGap ((t + before) * secondMicros) ((t + after) * secondMicros) := by
  refine ⟨?_, fun m h1 h2 => ?_, ?_, ?_⟩
  · simp only [secondMicros]
    omega
  · obtain ⟨c, hc, -⟩ := exists_shapes hr (m / secondMicros)
    rw [shows_iff]
    simp only [secondMicros] at h1 h2
    exact Clock.not_shows_of_jump (offset_lt hr) hc (t := t)
      (by rw [hold]; simp only [secondMicros]; omega)
      (by rw [hnew]; simp only [secondMicros]; omega)
  · refine (shows_iff _ _).2 ⟨t - 1, ?_⟩
    rw [hold]
    simp only [secondMicros]
    omega
  · refine (shows_iff _ _).2 ⟨t, ?_⟩
    rw [hnew]
    simp only [secondMicros]
    omega

/-- Whether a clock is set forward over a wall time, at the second `t` from the offset `before` to
the offset `after`. In the first pass the wall time is read with the old offset and shown with the
new one, in the second pass it is the other way round. -/
structure IsSkippedAt (r : Region) (n t before after : Int) : Prop where
  old : r.clock.offset (t - 1) = before
  new : r.clock.offset t = after
  start_le : (t + before) * secondMicros ≤ n
  lt_finish : n < (t + after) * secondMicros
  first : (Zone.region r).offsetFor .first n = before ∧
    (Zone.region r).offsetAt ((Zone.region r).readAt .first n) = after
  second : (Zone.region r).offsetFor .second n = after ∧
    (Zone.region r).offsetAt ((Zone.region r).readAt .second n) = before

/-- **A clock is set forward over every wall time that it skips.** -/
theorem exists_isSkippedAt (hr : r.IsOrderly) (hn : ¬(Zone.region r).Shows n) :
    ∃ t before after, r.IsSkippedAt n t before after := by
  obtain ⟨c, hc, hread⟩ := exists_shapes hr (n / secondMicros)
  have hskips : c.Skips (n / secondMicros) := by
    rw [shows_iff, Clock.shows_iff (offset_lt hr) hc] at hn
    exact Classical.not_not.1 hn
  have hreset : ∀ pass, ¬r.IsResetHour pass (n / secondMicros) :=
    fun pass h => hn (shown_readAt_of_nuuk h).1
  obtain ⟨hb1, hb2⟩ := hc.small.before_lt
  obtain ⟨ha1, ha2⟩ := hc.small.after_lt
  obtain ⟨hlo, hhi⟩ := hskips
  -- what is read with an offset is shown with that of its instant
  have hshown : ∀ pass o o', c.offsetFor pass (n / secondMicros) = o →
      c.offsetAt (n / secondMicros - o) = o' → -86400 < o → o < 86400 →
      (Zone.region r).offsetFor pass n = o ∧
        (Zone.region r).offsetAt ((Zone.region r).readAt pass n) = o' := by
    intro pass o o' hfor hat ho1 ho2
    have hoffset : (Zone.region r).offsetFor pass n = o := (hread pass (hreset pass)).trans hfor
    have hsecond : (n - o * secondMicros) / secondMicros = n / secondMicros - o := by
      simp only [secondMicros]
      omega
    refine ⟨hoffset, ?_⟩
    rw [Zone.readAt, hoffset, Zone.offsetAt, hsecond, hc.typeAt _ (by omega) (by omega), hat]
  obtain ⟨hfirst, hfirst'⟩ := Turn.first_of_skips ⟨hlo, hhi⟩
  obtain ⟨hsecond, hsecond'⟩ := Turn.second_of_skips ⟨hlo, hhi⟩
  refine ⟨c.instant, c.before, c.after, ?_, ?_, ?_, ?_, ?_, ?_⟩
  · exact (hc.typeAt _ (by omega) (by omega)).trans (Turn.offsetAt_of_lt (by omega))
  · exact (hc.typeAt _ (by omega) (by omega)).trans (Turn.offsetAt_of_le (by omega))
  · simp only [secondMicros] at *
    omega
  · simp only [secondMicros] at *
    omega
  · exact hshown .first _ _ hfirst hfirst' hb1 hb2
  · exact hshown .second _ _ hsecond hsecond' ha1 ha2

/-- What is skipped lies in a gap. -/
theorem IsSkippedAt.isGap {t before after : Int} (hr : r.IsOrderly)
    (h : r.IsSkippedAt n t before after) :
    (Zone.region r).IsGap ((t + before) * secondMicros) ((t + after) * secondMicros) := by
  obtain ⟨hold, hnew, hlo, hhi, -, -⟩ := h
  refine isGap_of_jump hr hold hnew ?_
  simp only [secondMicros] at hlo hhi
  omega

/-- **A wall time that is skipped moves by the length of its gap**: forward in the first pass, back
in the second. -/
theorem exists_gap (hr : r.IsOrderly) (hn : ¬(Zone.region r).Shows n) :
    ∃ lo hi, (Zone.region r).IsGap lo hi ∧ lo ≤ n ∧ n < hi ∧
      (Zone.region r).shown ((Zone.region r).readAt .first n) = n + (hi - lo) ∧
      (Zone.region r).shown ((Zone.region r).readAt .second n) = n - (hi - lo) := by
  obtain ⟨t, before, after, h⟩ := exists_isSkippedAt hr hn
  refine ⟨_, _, h.isGap hr, h.start_le, h.lt_finish, ?_, ?_⟩
  · rw [Zone.shown, h.first.2, Zone.readAt, h.first.1]
    simp only [secondMicros]
    omega
  · rw [Zone.shown, h.second.2, Zone.readAt, h.second.1]
    simp only [secondMicros]
    omega

/-- Whether a wall time is read earlier than it should be: in the second pass if it is skipped, and
in the hour at Nuuk. -/
def ReadsEarly (r : Region) (pass : Pass) (n : Int) : Prop :=
  (pass = .second ∧ ¬(Zone.region r).Shows n) ∨ r.IsResetHour pass (n / secondMicros)

/-- A wall time that is read early is shown before it. -/
theorem ReadsEarly.shown_lt {pass : Pass} (hr : r.IsOrderly) (h : r.ReadsEarly pass n) :
    (Zone.region r).shown ((Zone.region r).readAt pass n) < n := by
  rcases h with ⟨rfl, hn⟩ | hreset
  · obtain ⟨lo, hi, hgap, -, -, -, hsecond⟩ := exists_gap hr hn
    have := hgap.lt
    omega
  · rw [(shown_readAt_of_nuuk hreset).2]
    simp only [secondMicros]
    omega

end Region

end RecurringEvents
