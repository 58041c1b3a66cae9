import Mathlib.Data.List.DropRight
import RecurringEvents.Iso.Day
import RecurringEvents.Text.Split
import RecurringEvents.Text.Upper

/-!
# Written text

What is written has no white space in it and no small letters, so trimming and upper-casing leave it
alone. Written numbers consist of ten digits and a sign, and digits are read back by their places.

* `trim_eq_self_iff`: a text is trimmed if its ends are not blank.
* `mem_of_mem_integer`: the characters of a written number.
* `digits?_padded`: a number filled up to a width is read back.
-/

namespace RecurringEvents.Text

variable {c : Char} {p : Char → Bool} {s t : List Char}

/-- What is decided for the characters of a list one by one holds of each of them. -/
theorem forall_mem_of_all {p : Char → Prop} [DecidablePred p]
    (h : s.all (fun c => decide (p c)) = true) : ∀ c ∈ s, p c := fun c hc =>
  of_decide_eq_true (List.all_eq_true.1 h c hc)

/-! ## Trimming -/

theorem trimBy_eq_rdropWhile (p : Char → Bool) (s : List Char) :
    trimBy p s = (s.dropWhile p).rdropWhile p :=
  rfl

theorem not_of_head?_dropWhile (h : c ∈ (s.dropWhile p).head?) : p c = false := by
  have hfirst := List.head?_dropWhile_not p s
  rw [h] at hfirst
  exact hfirst

/-- A trimmed text does not begin with a character of the class. -/
theorem not_of_head?_trimBy (h : c ∈ (trimBy p s).head?) : p c = false := by
  -- the first character is that of the text without the ones in front
  obtain ⟨r, hr⟩ := List.rdropWhile_prefix p (s.dropWhile p)
  refine not_of_head?_dropWhile (s := s) ?_
  rw [← hr, List.head?_append, Option.mem_def, Option.or_eq_some_iff]
  exact Or.inl h

/-- Nor does it end with one. -/
theorem not_of_getLast?_trimBy (h : c ∈ (trimBy p s).getLast?) : p c = false := by
  rw [trimBy_eq_rdropWhile, List.rdropWhile, List.getLast?_reverse] at h
  exact not_of_head?_dropWhile h

/-- A text is trimmed if there is no white space at its ends. -/
theorem trim_eq_self_iff : trim s = s ↔
    (∀ c ∈ s.head?, isBlank c = false) ∧ (∀ c ∈ s.getLast?, isBlank c = false) := by
  refine ⟨fun h => ?_, fun h => trimBy_eq_self h.1 h.2⟩
  rw [← h]
  exact ⟨fun _ => not_of_head?_trimBy, fun _ => not_of_getLast?_trimBy⟩

/-- A text without white space is trimmed. -/
theorem trim_eq_self (h : ∀ c ∈ s, isBlank c = false) : trim s = s :=
  trim_eq_self_iff.2
    ⟨fun c hc => h c (List.mem_of_head? hc), fun c hc => h c (List.mem_of_getLast? hc)⟩

/-- A text of two parts does not end with white space if neither part does. -/
theorem getLast?_append_not_blank (hs : ∀ c ∈ s.getLast?, isBlank c = false)
    (ht : ∀ c ∈ t.getLast?, isBlank c = false) : ∀ c ∈ (s ++ t).getLast?, isBlank c = false := by
  intro c hc
  rw [List.getLast?_append, Option.mem_def, Option.or_eq_some_iff] at hc
  rcases hc with hc | ⟨-, hc⟩
  · exact ht c hc
  · exact hs c hc

/-! ## Upper case and lists -/

/-- A text of which every character is its own upper case is in upper case. -/
theorem upper_eq_self (h : ∀ c ∈ s, upperChar c = [c]) : upper s = s := by
  induction s with
  | nil => rfl
  | cons c s ih =>
    rw [upper_cons, h c List.mem_cons_self, ih fun d hd => h d (List.mem_cons_of_mem c hd),
      List.singleton_append]

/-- The characters of a join are those of the separator and of the words. -/
theorem mem_of_mem_join {sep : List Char} {ws : List (List Char)} (h : c ∈ join sep ws) :
    c ∈ sep ∨ ∃ w ∈ ws, c ∈ w := by
  fun_induction join sep ws with
  | case1 => cases h
  | case2 w => exact Or.inr ⟨w, List.mem_cons_self, h⟩
  | case3 w v ws ih =>
    rcases List.mem_append.1 h with h | h
    · rcases List.mem_append.1 h with h | h
      · exact Or.inr ⟨w, List.mem_cons_self, h⟩
      · exact Or.inl h
    · rcases ih h with h | ⟨u, hu, h⟩
      · exact Or.inl h
      · exact Or.inr ⟨u, List.mem_cons_of_mem w hu, h⟩

/-! ## Digits -/

theorem isDigit_iff : isDigit c = true ↔ 48 ≤ c.toNat ∧ c.toNat ≤ 57 := by
  simp only [isDigit, Bool.and_eq_true, decide_eq_true_eq, Char.le_def, UInt32.le_iff_toNat_le]
  rfl

/-- The digits and the sign of written numbers. -/
def numberChars : List Char := ['-', '0', '1', '2', '3', '4', '5', '6', '7', '8', '9']

theorem mem_numberChars_of_isDigit (h : isDigit c = true) : c ∈ numberChars := by
  obtain ⟨h1, h2⟩ := isDigit_iff.1 h
  rw [← Char.ofNat_toNat c]
  -- there are ten code points to look at
  generalize c.toNat = n at h1 h2
  obtain rfl | rfl | rfl | rfl | rfl | rfl | rfl | rfl | rfl | rfl : n = 48 ∨ n = 49 ∨ n = 50 ∨
      n = 51 ∨ n = 52 ∨ n = 53 ∨ n = 54 ∨ n = 55 ∨ n = 56 ∨ n = 57 := by omega
  all_goals decide

/-- The characters of a written number. -/
theorem mem_of_mem_integer {n : Int} (h : c ∈ integer n) : c ∈ numberChars := by
  unfold integer at h
  split at h
  · rcases List.mem_cons.1 h with rfl | h
    · exact List.mem_cons_self
    · exact mem_numberChars_of_isDigit (isDigit_of_mem_decimal h)
  · exact mem_numberChars_of_isDigit (isDigit_of_mem_decimal h)

theorem integer_ne_nil (n : Int) : integer n ≠ [] := by
  unfold integer
  split
  · exact List.cons_ne_nil _ _
  · exact decimal_ne_nil _

/-- A smaller number has no more digits. -/
theorem length_decimal_mono {m n : Nat} (h : m ≤ n) : (decimal m).length ≤ (decimal n).length := by
  have hpos : 0 < (decimal n).length := List.length_pos_iff.2 (decimal_ne_nil n)
  have hn := (Nat.length_toDigits_le_iff (by decide) hpos).1 (Nat.le_refl (decimal n).length)
  exact (Nat.length_toDigits_le_iff (by decide) hpos).2 (Nat.lt_of_le_of_lt h hn)

/-- A number below ten has one digit. -/
theorem length_decimal_le_one {n : Nat} (h : n < 10) : (decimal n).length ≤ 1 :=
  Nat.le_trans (length_decimal_mono (Nat.le_of_lt_succ h)) (by decide : (decimal 9).length ≤ 1)

/-- A number below a hundred has at most two digits. -/
theorem length_decimal_le_two {n : Nat} (h : n < 100) : (decimal n).length ≤ 2 :=
  Nat.le_trans (length_decimal_mono (Nat.le_of_lt_succ h)) (by decide : (decimal 99).length ≤ 2)

/-- A number below ten thousand has at most four digits. -/
theorem length_decimal_le_four {n : Nat} (h : n < 10000) : (decimal n).length ≤ 4 :=
  Nat.le_trans (length_decimal_mono (Nat.le_of_lt_succ h))
    (by decide : (decimal 9999).length ≤ 4)

/-! ## Numbers of a width -/

/-- A number with as many digits as the width is not filled up. -/
theorem padded_eq_decimal {w n : Nat} (h : (decimal n).length = w) : padded w n = decimal n := by
  rw [padded, h, Nat.sub_self]
  rfl

theorem isDigit_of_mem_padded {w n : Nat} (h : c ∈ padded w n) : isDigit c = true := by
  rcases List.mem_append.1 h with h | h
  · rw [List.eq_of_mem_replicate h]
    rfl
  · exact isDigit_of_mem_decimal h

theorem length_padded {w n : Nat} (h : (decimal n).length ≤ w) : (padded w n).length = w := by
  rw [padded, List.length_append, List.length_replicate]
  omega

theorem ofDigitChars_padded (w n : Nat) : Nat.ofDigitChars 10 (padded w n) 0 = n := by
  rw [padded, Nat.ofDigitChars_append, Nat.ofDigitChars_replicate_zero, Nat.mul_zero,
    ofDigitChars_decimal]

/-- Digits in front of a text are read by their places. -/
theorem digits?_append {ds : List Char} (h : ∀ c ∈ ds, isDigit c = true) (s : List Char) :
    Iso.digits? ds.length (ds ++ s) = some (((Nat.ofDigitChars 10 ds 0 : Nat) : Int), s) := by
  rw [Iso.digits?, List.take_left, List.drop_left, if_pos ⟨rfl, List.all_eq_true.2 h⟩]

/-- A number that was filled up to a width is read back. -/
theorem digits?_padded {w n : Nat} (h : (decimal n).length ≤ w) (s : List Char) :
    Iso.digits? w (padded w n ++ s) = some ((n : Int), s) := by
  have hread := digits?_append (fun c => isDigit_of_mem_padded (w := w) (n := n)) s
  rwa [length_padded h, ofDigitChars_padded] at hread

/-- A field of a date or a time is read back from its digits. -/
theorem digits?_padded_toNat {w : Nat} {n : Int} (h : (decimal n.toNat).length ≤ w) (hn : 0 ≤ n)
    (s : List Char) : Iso.digits? w (padded w n.toNat ++ s) = some (n, s) := by
  rw [digits?_padded h, Int.toNat_of_nonneg hn]

end RecurringEvents.Text
