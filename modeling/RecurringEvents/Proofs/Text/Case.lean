import Mathlib
import RecurringEvents.Proofs.Text.Trimmed

/-!
# ASCII text and words in any case

The parts of ASCII text are ASCII text, and its letters change their case one by one. A word that is
looked for in any case is given in capital letters. Characters that are no letters stay as they are.

* `IsAscii.upper_eq`: upper-casing letter by letter.
* `lower_eq_iff`: a text is a word in small letters if it is this word in capital letters.
* `map_toUpper_eq_iff`: what has no letters in it has the one case.
-/

namespace RecurringEvents.Text

/-- Whether a text has no character outside ASCII. -/
def IsAscii (s : List Char) : Prop := ∀ c ∈ s, c.toNat < 0x80

/-- Whether a text is a word in any case; the word is in capital letters. -/
def IsInAnyCase (word s : List Char) : Prop := s.map Char.toUpper = word

variable {c : Char} {s t w : List Char}

/-! ## Parts of ASCII text -/

theorem IsAscii.trim (h : IsAscii s) : IsAscii (trim s) := by
  intro c hc
  exact h c (mem_of_mem_trim hc)

theorem isAscii_append : IsAscii (s ++ t) ↔ IsAscii s ∧ IsAscii t := List.forall_mem_append

theorem isAscii_nil : IsAscii [] := fun _ h => nomatch h

theorem isAscii_cons : IsAscii (c :: s) ↔ c.toNat < 0x80 ∧ IsAscii s := List.forall_mem_cons

theorem isAscii_of_isDigit (h : ∀ c ∈ s, isDigit c = true) : IsAscii s := fun c hc => by
  have := isDigit_iff.1 (h c hc)
  omega

theorem IsAscii.drop (h : IsAscii s) (n : Nat) : IsAscii (s.drop n) := by
  intro c hc
  exact h c (List.mem_of_mem_drop hc)

theorem IsAscii.of_mem_splitOn {sep : Char} (h : IsAscii s) (hw : w ∈ splitOn sep s) :
    IsAscii w := by
  intro c hc
  exact h c (mem_of_mem_splitOn hw hc)

/-! ## Upper and lower case -/

theorem IsAscii.upper_eq (h : IsAscii s) : upper s = s.map Char.toUpper := upper_ascii h

theorem IsAscii.lower_eq (h : IsAscii s) : lower s = s.map Char.toLower := by
  refine List.map_congr_left fun c hc => ?_
  have hsmall := h c hc
  exact if_neg (by omega)

/-- A text is a word in small letters if it is this word in capital letters. -/
theorem lower_eq_iff (h : IsAscii s) (hw : w.map Char.toLower = w) :
    lower s = w ↔ IsInAnyCase (w.map Char.toUpper) s := by
  have hupper : (s.map Char.toLower).map Char.toUpper = s.map Char.toUpper := by
    rw [List.map_map]
    exact List.map_congr_left fun c _ => Char.toUpper_toLower_eq_toUpper c
  have hlower : ∀ l : List Char, (l.map Char.toUpper).map Char.toLower = l.map Char.toLower := by
    intro l
    rw [List.map_map]
    exact List.map_congr_left fun c _ => Char.toLower_toUpper_eq_toLower c
  rw [h.lower_eq, IsInAnyCase]
  constructor
  · intro heq
    rw [← hupper, heq]
  · intro heq
    rw [← hlower s, heq, hlower w, hw]

/-- What has no letters in it has the one case. -/
theorem map_toUpper_eq_iff (hw : ∀ c ∈ w, c.isAlpha = false) : s.map Char.toUpper = w ↔ s = w := by
  have hself : ∀ l : List Char, (∀ c ∈ l, c.isAlpha = false) → l.map Char.toUpper = l := by
    intro l hl
    refine (List.map_congr_left fun c hc => ?_).trans (List.map_id l)
    refine Char.toUpper_eq_of_not_isLower fun hlower => ?_
    have hletter := hl c hc
    rw [Char.isAlpha, hlower, Bool.or_true] at hletter
    cases hletter
  constructor
  · rintro rfl
    -- a letter is a letter in either case
    refine (hself s fun c hc => ?_).symm
    rw [← Char.isAlpha_toUpper_eq_isAlpha]
    exact hw _ (List.mem_map_of_mem hc)
  · rintro rfl
    exact hself s hw

end RecurringEvents.Text
