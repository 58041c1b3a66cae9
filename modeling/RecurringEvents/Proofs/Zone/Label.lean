import RecurringEvents.Proofs.Text.Width
import RecurringEvents.Zone.Label

/-!
# What the labels of offsets tell

A label tells a number of minutes. The label of an offset tells the offset rounded down to whole
minutes: an offset to the east loses its seconds, and one to the west that has seconds gains the
rest of a minute. So the labels of opposite offsets differ in more than the sign unless the offset
is of whole minutes.

* `ZoneLabel.Denotes`: what a label tells.
* `ZoneLabel.denotes_ofOffset_iff`: what the label of an offset tells.
* `ZoneLabel.ofMinutes_neg`: the label of the opposite number of minutes.
* `ZoneLabel.ofOffset_rounds_down`: the labels of all offsets, and which of them tell the offset cut
  off to minutes.
-/

namespace RecurringEvents.ZoneLabel

open Text

variable {label clock : List Char} {m n : Int} {k j : Nat}

/-! ## What a label tells -/

/-- The minutes of a clock: whole hours, or hours and two digits of minutes. -/
inductive DenotesClock : List Char → Nat → Prop where
  | hours (hour : Nat) : DenotesClock (decimal hour) (60 * hour)
  | minutes (hour : Nat) {minute : Nat} (lt : minute < 60) :
      DenotesClock (decimal hour ++ ':' :: padded 2 minute) (60 * hour + minute)

/-- The sign before the clock. -/
def signOf (west : Bool) : Char := if west then '-' else '+'

/-- The minutes that a label tells: none, or those of a clock to the east or to the west. -/
inductive Denotes : List Char → Int → Prop where
  | universal : Denotes "UTC".toList 0
  | placed (west : Bool) {clock : List Char} {k : Nat} (h : DenotesClock clock k) :
      Denotes ("UTC".toList ++ signOf west :: clock) (signed west k)

theorem colon_not_mem_decimal (n : Nat) : ':' ∉ decimal n := by
  intro h
  exact absurd (isDigit_of_mem_decimal h) (by decide)

theorem decimal_inj {m n : Nat} (h : decimal m = decimal n) : m = n := by
  rw [← ofDigitChars_decimal m, h, ofDigitChars_decimal]

/-- A clock is cut at its colon, if it has one, into the hour and the minute. -/
theorem DenotesClock.cut (h : DenotesClock clock k) :
    (∃ hour, cut? ':' clock = none ∧ clock = decimal hour ∧ k = 60 * hour) ∨
    ∃ hour minute, cut? ':' clock = some (decimal hour, padded 2 minute) ∧
      k = 60 * hour + minute := by
  cases h with
  | hours hour => exact Or.inl ⟨hour, cut?_eq_none_iff.2 (colon_not_mem_decimal hour), rfl, rfl⟩
  | minutes hour lt => exact Or.inr ⟨hour, _, cut?_append (colon_not_mem_decimal hour) _, rfl⟩

theorem DenotesClock.unique (h : DenotesClock clock k) (h' : DenotesClock clock j) : k = j := by
  rcases h.cut with ⟨hour, hcut, hclock, rfl⟩ | ⟨hour, minute, hcut, rfl⟩
  · rcases h'.cut with ⟨hour', -, hclock', rfl⟩ | ⟨hour', minute', hcut', -⟩
    · rw [decimal_inj (hclock.symm.trans hclock')]
    · rw [hcut] at hcut'
      cases hcut'
  · rcases h'.cut with ⟨hour', hcut', -, -⟩ | ⟨hour', minute', hcut', rfl⟩
    · rw [hcut] at hcut'
      cases hcut'
    · rw [hcut, Option.some.injEq, Prod.mk.injEq] at hcut'
      rw [decimal_inj hcut'.1, padded_inj hcut'.2]

theorem signOf_inj {a b : Bool} (h : signOf a = signOf b) : a = b := by
  cases a <;> cases b <;> first | rfl | exact absurd h (by decide)

/-- **A label tells one number of minutes at most.** -/
theorem Denotes.unique (h : Denotes label m) (h' : Denotes label n) : m = n := by
  have hno : ∀ (c : Char) (s : List Char), "UTC".toList ≠ "UTC".toList ++ c :: s :=
    fun c s heq =>
      List.cons_ne_nil c s (List.append_cancel_left ((List.append_nil _).trans heq)).symm
  cases h with
  | universal =>
    generalize hlabel : "UTC".toList = label at h'
    cases h' with
    | universal => rfl
    | placed west' h' => exact absurd hlabel (hno _ _)
  | @placed west clock k h =>
    generalize hlabel : "UTC".toList ++ signOf west :: clock = label at h'
    cases h' with
    | universal => exact absurd hlabel.symm (hno _ _)
    | placed west' h' =>
      obtain ⟨hsign, rfl⟩ := List.cons.inj (List.append_cancel_left hlabel)
      rw [signOf_inj hsign, h.unique h']

/-! ## Labels of whole minutes -/

/-- The hours and, if there are any, the minutes. -/
def clockText (k : Nat) : List Char :=
  decimal (k / 60) ++ if k % 60 = 0 then [] else ':' :: padded 2 (k % 60)

/-- The label of an offset of whole minutes. -/
def ofMinutes (m : Int) : List Char := ofOffset (m * 60000000)

theorem ofMinutes_zero : ofMinutes 0 = "UTC".toList := rfl

theorem ofMinutes_of_ne_zero (h : m ≠ 0) :
    ofMinutes m = "UTC".toList ++ signOf (decide (m < 0)) :: clockText m.natAbs := by
  have hminutes : m * 60000000 / 60000000 = m := by omega
  have hsign : (if 0 < m then '+' else '-') = signOf (decide (m < 0)) := by
    by_cases hlt : m < 0
    · rw [if_neg (by omega), decide_eq_true hlt]
      rfl
    · rw [if_pos (by omega), decide_eq_false hlt]
      rfl
  simp only [ofMinutes, ofOffset, hminutes, if_neg h, hsign, clockText, List.append_assoc,
    List.cons_append]

theorem denotesClock_clockText (k : Nat) : DenotesClock (clockText k) k := by
  have hlt : k % 60 < 60 := Nat.mod_lt _ (by decide)
  unfold clockText
  by_cases h : k % 60 = 0
  · have hours := DenotesClock.hours (k / 60)
    rw [if_pos h, List.append_nil]
    rwa [show 60 * (k / 60) = k by omega] at hours
  · have minutes := DenotesClock.minutes (k / 60) hlt
    rw [if_neg h]
    rwa [show 60 * (k / 60) + k % 60 = k by omega] at minutes

theorem denotes_ofMinutes (m : Int) : Denotes (ofMinutes m) m := by
  by_cases h : m = 0
  · rw [h, ofMinutes_zero]
    exact .universal
  · have hplaced := Denotes.placed (decide (m < 0)) (denotesClock_clockText m.natAbs)
    have hsigned : signed (decide (m < 0)) m.natAbs = m := by
      simp only [signed, decide_eq_true_eq]
      split <;> omega
    rw [hsigned] at hplaced
    rwa [ofMinutes_of_ne_zero h]

theorem ofMinutes_inj (h : ofMinutes m = ofMinutes n) : m = n :=
  (denotes_ofMinutes m).unique (h ▸ denotes_ofMinutes n)

/-! ## Opposite labels -/

/-- The other sign; what is no sign stays. -/
def otherSign (c : Char) : Char := if c = '+' then '-' else if c = '-' then '+' else c

/-- A label with its sign exchanged. -/
def mirrored (label : List Char) : List Char := label.map otherSign

theorem otherSign_signOf (west : Bool) : otherSign (signOf west) = signOf !west := by
  cases west <;> rfl

theorem mirrored_clockText (k : Nat) : mirrored (clockText k) = clockText k := by
  have hdigit : ∀ {c : Char}, isDigit c = true → otherSign c = c := by
    intro c hc
    unfold otherSign
    rw [if_neg, if_neg]
    · rintro rfl
      exact absurd hc (by decide)
    · rintro rfl
      exact absurd hc (by decide)
  refine (List.map_congr_left fun c hc => ?_).trans (List.map_id _)
  rcases List.mem_append.1 hc with hc | hc
  · exact hdigit (isDigit_of_mem_decimal hc)
  · split at hc
    · cases hc
    · rcases List.mem_cons.1 hc with rfl | hc
      · rfl
      · exact hdigit (isDigit_of_mem_padded hc)

theorem mirrored_placed (west : Bool) (k : Nat) :
    mirrored ("UTC".toList ++ signOf west :: clockText k)
      = "UTC".toList ++ signOf (!west) :: clockText k := by
  have hutc : mirrored "UTC".toList = "UTC".toList := by decide
  have hclock := mirrored_clockText k
  unfold mirrored at hutc hclock ⊢
  rw [List.map_append, List.map_cons, hutc, hclock, otherSign_signOf]

/-- **The label of the opposite number of minutes has the other sign.** -/
theorem ofMinutes_neg (m : Int) : ofMinutes (-m) = mirrored (ofMinutes m) := by
  by_cases h : m = 0
  · subst h
    decide
  · have hwest : decide (-m < 0) = !decide (m < 0) := by
      rw [← decide_not, decide_eq_decide]
      omega
    rw [ofMinutes_of_ne_zero h, ofMinutes_of_ne_zero (Int.neg_ne_zero.2 h), mirrored_placed, hwest,
      Int.natAbs_neg]

/-! ## Labels of offsets -/

/-- The label of an offset of whole seconds is that of its minutes, rounded down. -/
theorem ofOffset_seconds (d : Int) : ofOffset (d * secondMicros) = ofMinutes (d / 60) := by
  have hseconds : d * secondMicros / 60000000 = d / 60 := by
    simp only [secondMicros]
    omega
  have hminutes : d / 60 * 60000000 / 60000000 = d / 60 := by omega
  simp only [ofMinutes, ofOffset, hseconds, hminutes]

/-- **The label of an offset tells the offset rounded down to whole minutes**, and nothing else. -/
theorem denotes_ofOffset_iff (d : Int) : Denotes (ofOffset (d * secondMicros)) m ↔ m = d / 60 := by
  rw [ofOffset_seconds]
  constructor
  · intro h
    exact h.unique (denotes_ofMinutes _)
  · rintro rfl
    exact denotes_ofMinutes _

/-- Rounding down cuts off what is positive or whole, and only that. -/
theorem tdiv_eq_ediv_iff (d : Int) : d.tdiv 60 = d / 60 ↔ 0 ≤ d ∨ 60 ∣ d := by
  rw [Int.tdiv_eq_ediv]
  split
  · next h => simp [h]
  · next h =>
    refine iff_of_false ?_ h
    have hsign : (60 : Int).sign = 1 := rfl
    omega

/-- **What the labels of offsets of whole seconds tell.** The offset is rounded down to whole
minutes, so two offsets have one label exactly if they lie in one minute. It is the offset cut off
to minutes exactly if it is to the east or whole, and opposite offsets have opposite labels exactly
if they are whole. -/
theorem ofOffset_rounds_down (d : Int) :
    (∀ m, Denotes (ofOffset (d * secondMicros)) m ↔ m = d / 60) ∧
    (∀ e : Int, ofOffset (d * secondMicros) = ofOffset (e * secondMicros) ↔ d / 60 = e / 60) ∧
    (Denotes (ofOffset (d * secondMicros)) (d.tdiv 60) ↔ 0 ≤ d ∨ 60 ∣ d) ∧
    (ofOffset (-d * secondMicros) = mirrored (ofOffset (d * secondMicros)) ↔ 60 ∣ d) := by
  refine ⟨fun m => denotes_ofOffset_iff d, fun e => ?_, ?_, ?_⟩
  · rw [ofOffset_seconds, ofOffset_seconds]
    exact ⟨ofMinutes_inj, fun h => h ▸ rfl⟩
  · rw [denotes_ofOffset_iff, tdiv_eq_ediv_iff]
  · rw [ofOffset_seconds, ofOffset_seconds, ← ofMinutes_neg]
    constructor
    · intro h
      have := ofMinutes_inj h
      omega
    · intro h
      rw [show -d / 60 = -(d / 60) by omega]

/-- The local time of New York before 1883 was 4 hours, 56 minutes and 2 seconds to the west. Its
label tells a minute more, and that of the opposite offset does not. -/
theorem newYork_localMeanTime :
    ofOffset (-17762 * secondMicros) = "UTC-4:57".toList ∧
    ¬Denotes (ofOffset (-17762 * secondMicros)) ((-17762 : Int).tdiv 60) ∧
    ofOffset (17762 * secondMicros) = "UTC+4:56".toList ∧
    ofOffset (-17762 * secondMicros) ≠ mirrored (ofOffset (17762 * secondMicros)) := by
  refine ⟨by decide, ?_, by decide, by decide⟩
  rw [denotes_ofOffset_iff]
  decide

end RecurringEvents.ZoneLabel
