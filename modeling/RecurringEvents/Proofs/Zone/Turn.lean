import RecurringEvents.Zone.Regular

/-!
# One turn of a clock

Around any wall time the clock of a region is set at most once: its changes are more than two days
apart. What such a clock shows, and how its wall is read, is said by three numbers: when it is set,
and the offsets before and after. Both are seconds, as in `Zone/Region.lean`.

* `Clock`: the two questions that a region is asked.
* `Turn.Fits`: around a wall time, a clock answers both as if it was set only once.
* `exists_fits_listed`: listed changes that are far apart give such a turn around every wall time.
-/

namespace RecurringEvents

/-- What a clock is asked: the local time type and the pass at an instant, and the local time type
that a wall time of a pass is read with. -/
structure Clock where
  typeAt : Int → LocalType × Pass
  localType : Pass → Int → LocalType

namespace Turn

/-- The offset at an instant. -/
def offsetAt (c : Turn) (t : Int) : Int := if t < c.instant then c.before else c.after

/-- The pass of the wall time that is shown at an instant: the second while the clock repeats what
it showed before it was set back. -/
def passAt (c : Turn) (t : Int) : Pass :=
  if c.instant ≤ t ∧ t < c.instant + (c.before - c.after) then .second else .first

/-- The wall time from which the new offset is read. -/
def wallStart (c : Turn) : Pass → Int
  | .first => c.instant + max c.before c.after
  | .second => c.instant + min c.before c.after

/-- The offset that a wall time is read with. -/
def offsetFor (c : Turn) (pass : Pass) (t : Int) : Int :=
  if t < c.wallStart pass then c.before else c.after

/-- Offsets are less than a day, and the clock is set by at most a day. -/
structure IsSmall (c : Turn) : Prop where
  before_lt : -86400 < c.before ∧ c.before < 86400
  after_lt : -86400 < c.after ∧ c.after < 86400
  set_le : c.after - c.before ≤ 86400 ∧ c.before - c.after ≤ 86400

theorem IsSmall.offsetAt_lt {c : Turn} (h : c.IsSmall) (t : Int) :
    -86400 < c.offsetAt t ∧ c.offsetAt t < 86400 := by
  unfold offsetAt
  split
  · exact h.before_lt
  · exact h.after_lt

theorem IsSmall.offsetFor_lt {c : Turn} (h : c.IsSmall) (pass : Pass) (t : Int) :
    -86400 < c.offsetFor pass t ∧ c.offsetFor pass t < 86400 := by
  unfold offsetFor
  split
  · exact h.before_lt
  · exact h.after_lt

/--
Around the wall time `x` a clock answers as if it was set only at the turn: at the instants within a
day of it, and when `x` is read.

The passes are those of the turn only from where the wall has come to `x`. What it shows before may
be repeated after an earlier turn.
-/
structure Fits (c : Turn) (k : Clock) (x : Int) : Prop where
  small : c.IsSmall
  offsetAt : ∀ t, x - 86400 ≤ t → t ≤ x + 86400 → (k.typeAt t).1.offset = c.offsetAt t
  passAt : ∀ t, x - 86400 ≤ t → t ≤ x + 86400 → x ≤ t + c.offsetAt t →
    (k.typeAt t).2 = c.passAt t
  offsetFor : ∀ pass, (k.localType pass x).offset = c.offsetFor pass x

/-- A clock that is not set. -/
def still (x offset : Int) : Turn := ⟨x, offset, offset⟩

theorem still_isSmall {x o : Int} (h1 : -86400 < o) (h2 : o < 86400) : (still x o).IsSmall :=
  ⟨⟨h1, h2⟩, ⟨h1, h2⟩, by simp only [still]; omega⟩

@[simp] theorem offsetAt_still (x o t : Int) : (still x o).offsetAt t = o := ite_self o

@[simp] theorem offsetFor_still (x o : Int) (pass : Pass) (t : Int) :
    (still x o).offsetFor pass t = o := ite_self o

theorem offsetAt_of_lt {c : Turn} {t : Int} (h : t < c.instant) : c.offsetAt t = c.before :=
  if_pos h

theorem offsetAt_of_le {c : Turn} {t : Int} (h : c.instant ≤ t) : c.offsetAt t = c.after :=
  if_neg (by omega)

theorem passAt_of_lt {c : Turn} {t : Int} (h : t < c.instant) : c.passAt t = .first :=
  if_neg (by omega)

theorem passAt_of_le {c : Turn} {t : Int} (h : c.instant + (c.before - c.after) ≤ t) :
    c.passAt t = .first :=
  if_neg (by omega)

/-- A clock that is set forward shows nothing twice. -/
theorem passAt_of_forward {c : Turn} (h : c.before ≤ c.after) {t : Int} : c.passAt t = .first :=
  if_neg (by omega)

/-- What was shown before the clock was set back is shown again. -/
theorem passAt_of_repeated {c : Turn} {t : Int} (h1 : c.instant ≤ t)
    (h2 : t < c.instant + (c.before - c.after)) : c.passAt t = .second :=
  if_pos ⟨h1, h2⟩

@[simp] theorem passAt_still (x o t : Int) : (still x o).passAt t = .first :=
  passAt_of_forward (Int.le_refl o)

/-- On the wall a turn is less than a day away from its instant. -/
theorem IsSmall.wallStart_near {c : Turn} (h : c.IsSmall) (pass : Pass) :
    c.instant - 86400 < c.wallStart pass ∧ c.wallStart pass < c.instant + 86400 := by
  have hb := h.before_lt
  have ha := h.after_lt
  cases pass <;> simp only [wallStart] <;> omega

end Turn

/-! ## Listed changes -/

namespace Region

variable {first : LocalType} {c : Change} {cs : List Change}

theorem IsSpaced.tail (h : IsSpaced first (c :: cs)) : IsSpaced first cs := h.2.2.2.2

theorem IsSpaced.typeAfter_lt (h : IsSpaced first cs) :
    -86400 < (typeAfter first cs).offset ∧ (typeAfter first cs).offset < 86400 := by
  cases cs with
  | nil => exact h
  | cons c cs => exact h.1

theorem IsSpaced.turnOf_isSmall (h : IsSpaced first (c :: cs)) : (turnOf first c cs).IsSmall :=
  ⟨h.tail.typeAfter_lt, h.1, h.2.1, h.2.2.1⟩

theorem wallStart_eq (pass : Pass) :
    wallStart pass (typeAfter first cs) c = (turnOf first c cs).wallStart pass := by
  cases pass <;> rfl

/-- From the latest change on its offset holds. -/
theorem listedAt_of_le {t : Int} (ht : ∀ c ∈ cs.head?, c.start ≤ t) :
    (listedAt first t cs).1 = typeAfter first cs := by
  cases cs with
  | nil => rfl
  | cons c cs =>
    have hc := ht c rfl
    rw [listedAt, if_neg (show ¬t < c.start by omega)]
    rfl

/-- Once the wall is a day past the latest change, nothing is repeated any more. -/
theorem passAt_of_settled (h : IsSpaced first cs) {t : Int} (ht : ∀ c ∈ cs.head?, c.start ≤ t)
    (hw : ∀ c ∈ cs.head?, c.start + 86400 ≤ t + (typeAfter first cs).offset) :
    (listedAt first t cs).2 = .first := by
  cases cs with
  | nil => rfl
  | cons c cs =>
    have hc := ht c rfl
    have hshown : c.start + 86400 ≤ t + c.type.offset := hw c rfl
    have hold := h.turnOf_isSmall.before_lt
    simp only [turnOf] at hold
    rw [listedAt, if_neg (show ¬t < c.start by omega)]
    exact if_neg (show ¬t - c.start < (typeAfter first cs).offset - c.type.offset by omega)

/-- A wall time that is a day past the latest change is read with its offset. -/
theorem listedFor_of_settled (h : IsSpaced first cs) (pass : Pass) {t : Int}
    (ht : ∀ c ∈ cs.head?, c.start + 86400 ≤ t) :
    listedFor first pass t cs = typeAfter first cs := by
  cases cs with
  | nil => rfl
  | cons c cs =>
    have hc := ht c rfl
    have hw : (turnOf first c cs).wallStart pass < c.start + 86400 :=
      (h.turnOf_isSmall.wallStart_near pass).2
    rw [listedFor, wallStart_eq, if_neg (by omega)]
    rfl

/-- Up to two days before a change the change before it has been made. -/
theorem IsSpaced.before_le (h : IsSpaced first (c :: cs)) {t : Int} (ht : c.start - 172800 ≤ t) :
    ∀ d ∈ cs.head?, d.start ≤ t := by
  intro d hd
  have := h.2.2.2.1 d hd
  omega

/-- Up to a day before a change the change before it is settled on the wall. -/
theorem IsSpaced.settled_before (h : IsSpaced first (c :: cs)) {t : Int}
    (ht : c.start - 86400 ≤ t) : ∀ d ∈ cs.head?, d.start + 86400 ≤ t := by
  intro d hd
  have := h.2.2.2.1 d hd
  omega

/-- From the change before it on, the offsets are those of the turn of the latest change. -/
theorem listedAt_eq_turn {t : Int} (ht : ∀ d ∈ cs.head?, d.start ≤ t) :
    (listedAt first t (c :: cs)).1.offset = (turnOf first c cs).offsetAt t := by
  by_cases hlt : t < c.start
  · rw [listedAt, if_pos hlt, listedAt_of_le ht, Turn.offsetAt_of_lt hlt]
    rfl
  · rw [listedAt, if_neg hlt, Turn.offsetAt_of_le (show (turnOf first c cs).instant ≤ t from
      Int.not_lt.1 hlt)]
    rfl

/-- The passes are those of this turn once the wall is a day past the change before it. -/
theorem listedPassAt_eq_turn (h : IsSpaced first (c :: cs)) {t : Int}
    (ht : ∀ d ∈ cs.head?, d.start ≤ t)
    (hw : ∀ d ∈ cs.head?, d.start + 86400 ≤ t + (turnOf first c cs).offsetAt t) :
    (listedAt first t (c :: cs)).2 = (turnOf first c cs).passAt t := by
  by_cases hlt : t < c.start
  · rw [Turn.offsetAt_of_lt hlt] at hw
    rw [listedAt, if_pos hlt, passAt_of_settled h.tail ht hw, Turn.passAt_of_lt hlt]
  · have hle : (turnOf first c cs).instant ≤ t := Int.not_lt.1 hlt
    rw [listedAt, if_neg hlt]
    by_cases hb : t - c.start < (typeAfter first cs).offset - c.type.offset
    · rw [Turn.passAt_of_repeated hle
        (show t < c.start + ((typeAfter first cs).offset - c.type.offset) by omega)]
      exact if_pos hb
    · rw [Turn.passAt_of_le (show c.start + ((typeAfter first cs).offset - c.type.offset) ≤ t by
        omega)]
      exact if_neg hb

/-- A day past the change before it, the wall is read as of the turn of the latest change. -/
theorem listedFor_eq_turn (h : IsSpaced first (c :: cs)) (pass : Pass) {t : Int}
    (ht : ∀ d ∈ cs.head?, d.start + 86400 ≤ t) :
    (listedFor first pass t (c :: cs)).offset = (turnOf first c cs).offsetFor pass t := by
  rw [listedFor, wallStart_eq]
  unfold Turn.offsetFor
  by_cases hlt : t < (turnOf first c cs).wallStart pass
  · rw [if_pos hlt, if_pos hlt, listedFor_of_settled h.tail pass ht]
    rfl
  · rw [if_neg hlt, if_neg hlt]
    rfl

/-- The clock of listed changes alone. -/
def listedClock (first : LocalType) (cs : List Change) : Clock :=
  ⟨fun t => listedAt first t cs, fun pass t => listedFor first pass t cs⟩

/-- A change that is more than a day ahead is not seen. -/
theorem fits_of_ahead {x : Int} {d : Turn} (h : IsSpaced first (c :: cs))
    (hx : x + 86400 < c.start) (hd : d.Fits (listedClock first cs) x) :
    d.Fits (listedClock first (c :: cs)) x := by
  have hunseen : ∀ t, t ≤ x + 86400 →
      (listedClock first (c :: cs)).typeAt t = (listedClock first cs).typeAt t := by
    intro t ht
    simp only [listedClock, listedAt]
    exact if_pos (by omega)
  refine ⟨hd.small, fun t h1 h2 => ?_, fun t h1 h2 hw => ?_, fun pass => ?_⟩
  · rw [hunseen t h2]
    exact hd.offsetAt t h1 h2
  · rw [hunseen t h2]
    exact hd.passAt t h1 h2 hw
  · have hw : c.start - 86400 < (turnOf first c cs).wallStart pass :=
      (h.turnOf_isSmall.wallStart_near pass).1
    have hread : (listedClock first (c :: cs)).localType pass x
        = (listedClock first cs).localType pass x := by
      simp only [listedClock, listedFor]
      rw [wallStart_eq, if_pos (by omega)]
    rw [hread]
    exact hd.offsetFor pass

/-- **Around every wall time, listed changes that are far apart are one turn at most.** -/
theorem exists_fits_listed (h : IsSpaced first cs) (x : Int) :
    ∃ d : Turn, d.Fits (listedClock first cs) x := by
  induction cs with
  | nil =>
    exact ⟨.still x first.offset, Turn.still_isSmall h.1 h.2,
      fun t _ _ => (Turn.offsetAt_still ..).symm, fun t _ _ _ => (Turn.passAt_still ..).symm,
      fun pass => (Turn.offsetFor_still ..).symm⟩
  | cons c cs ih =>
    by_cases hx : x + 86400 < c.start
    · obtain ⟨d, hd⟩ := ih h.tail
      exact ⟨d, fits_of_ahead h hx hd⟩
    · exact ⟨turnOf first c cs, h.turnOf_isSmall,
        fun t h1 _ => listedAt_eq_turn (h.before_le (by omega)),
        fun t h1 _ hw => listedPassAt_eq_turn h (h.before_le (by omega))
          (h.settled_before (by omega)),
        fun pass => listedFor_eq_turn h pass (h.settled_before (by omega))⟩

end Region

end RecurringEvents
