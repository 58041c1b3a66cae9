import RecurringEvents.Text.Blank
import RecurringEvents.Text.Digit

/-!
# Whole numbers in text

Two ways to read a whole number, and one to write it.

* The strict form of rule texts: an optional sign and ASCII digits (`isInteger`, `integerValue`).
* The loose form of settings and command-line options: blanks around it, digits of any script,
  single underscores between digits (`looseInteger?`).

Neither form may have more than `digitLimit` digits.
-/

namespace RecurringEvents.Text

/-- The longest run of digits that is read as a number. -/
def digitLimit : Nat := 4300

/-- Takes a sign off the front: whether it was a minus, and the rest. -/
def splitSign : List Char → Bool × List Char
  | '-' :: s => (true, s)
  | '+' :: s => (false, s)
  | s => (false, s)

/-- Whether a text is an optional sign followed by ASCII digits, at least one. -/
def isInteger (s : List Char) : Bool :=
  let ds := (splitSign s).2
  !ds.isEmpty && ds.all isDigit

/-- Whether a number text is short enough to be read. -/
def withinDigitLimit (s : List Char) : Bool := (splitSign s).2.length ≤ digitLimit

/-- The number with a sign. -/
def signed (negative : Bool) (n : Nat) : Int := if negative then -(n : Int) else n

/-- The value of a text for which `isInteger` holds. -/
def integerValue (s : List Char) : Int :=
  signed (splitSign s).1 (Nat.ofDigitChars 10 (splitSign s).2 0)

/-- Digits of any script, with single underscores between them. -/
def groupedDigits? : List Char → Option (List Nat)
  | [] => none
  | [c] => (digitValue? c).map ([·])
  | c :: '_' :: s => do
    let d ← digitValue? c
    let ds ← groupedDigits? s
    pure (d :: ds)
  | c :: s => do
    let d ← digitValue? c
    let ds ← groupedDigits? s
    pure (d :: ds)

/-- The blanks around a loose number: white space other than the information separators. -/
def isNumberBlank (c : Char) : Bool := isBlank c && !(0x1c ≤ c.toNat && c.toNat ≤ 0x1f)

/-- A number in the loose form. -/
def looseInteger? (s : List Char) : Option Int :=
  let (negative, body) := splitSign (trimBy isNumberBlank s)
  match groupedDigits? body with
  | none => none
  | some ds =>
    if digitLimit < ds.length then none
    else some (signed negative (ds.foldl (fun n d => 10 * n + d) 0))

/-- The decimal digits of a natural number. -/
def decimal (n : Nat) : List Char := Nat.toDigits 10 n

/-- A whole number: a minus sign if it is negative, then its digits. -/
def integer (n : Int) : List Char := if n < 0 then '-' :: decimal n.natAbs else decimal n.natAbs

/-- The digits of a number, filled up with zeros on the left to a width. -/
def padded (width n : Nat) : List Char :=
  List.replicate (width - (decimal n).length) '0' ++ decimal n

theorem isDigit_of_mem_decimal {c : Char} {n : Nat} (h : c ∈ decimal n) : isDigit c := by
  have := Nat.isDigit_of_mem_toDigits (by decide) (by decide) h
  simpa [isDigit, Char.isDigit, Char.le_def] using this

theorem decimal_ne_nil (n : Nat) : decimal n ≠ [] := Nat.toDigits_ne_nil

/-- The digits of a number read back as the number. -/
theorem ofDigitChars_decimal (n : Nat) : Nat.ofDigitChars 10 (decimal n) 0 = n :=
  Nat.ofDigitChars_toDigits (by decide) (by decide)

theorem splitSign_of_isDigit {s : List Char} (h : ∀ c ∈ s, isDigit c) :
    splitSign s = (false, s) := by
  match s with
  | [] => rfl
  | c :: s =>
    have hc := h c List.mem_cons_self
    unfold splitSign
    split
    · next heq => cases heq; exact absurd hc (by decide)
    · next heq => cases heq; exact absurd hc (by decide)
    · rfl

theorem splitSign_integer (n : Int) :
    splitSign (integer n) = (decide (n < 0), decimal n.natAbs) := by
  unfold integer
  split
  · next h => simp [splitSign, h]
  · next h =>
    rw [splitSign_of_isDigit fun c hc => isDigit_of_mem_decimal hc]
    simp [h]

theorem isInteger_integer (n : Int) : isInteger (integer n) := by
  simp only [isInteger, splitSign_integer, Bool.and_eq_true, List.all_eq_true]
  exact ⟨by simp [decimal_ne_nil], fun c hc => isDigit_of_mem_decimal hc⟩

/-- A written number reads back. -/
theorem integerValue_integer (n : Int) : integerValue (integer n) = n := by
  simp only [integerValue, splitSign_integer, ofDigitChars_decimal, signed, decide_eq_true_eq]
  split <;> omega

end RecurringEvents.Text
