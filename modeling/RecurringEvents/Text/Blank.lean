/-!
# White space

The white space of text (Unicode property White_Space and the four information separators),
trimming, and blank texts.
-/

namespace RecurringEvents.Text

/-- White space: it is trimmed from both ends of every text that is read. -/
def isBlank (c : Char) : Bool :=
  let n := c.toNat
  (9 ≤ n && n ≤ 13) || (0x1c ≤ n && n ≤ 0x20) || n == 0x85 || n == 0xa0 || n == 0x1680 ||
    (0x2000 ≤ n && n ≤ 0x200a) || n == 0x2028 || n == 0x2029 || n == 0x202f || n == 0x205f ||
    n == 0x3000

/-- The text without leading characters of a class. -/
def trimLeft (p : Char → Bool) (s : List Char) : List Char := s.dropWhile p

/-- The text without leading and trailing characters of a class. -/
def trimBy (p : Char → Bool) (s : List Char) : List Char :=
  ((s.dropWhile p).reverse.dropWhile p).reverse

/-- The text without leading and trailing white space. -/
def trim (s : List Char) : List Char := trimBy isBlank s

/-- A text that neither begins nor ends with white space is its own trimmed form. -/
theorem trimBy_eq_self {p : Char → Bool} {s : List Char} (h : ∀ c ∈ s.head?, p c = false)
    (h' : ∀ c ∈ s.getLast?, p c = false) : trimBy p s = s := by
  cases s with
  | nil => rfl
  | cons c s =>
    have hc : p c = false := h c (by simp)
    unfold trimBy
    rw [List.dropWhile_cons_of_neg (by simp [hc])]
    cases hr : (c :: s).reverse with
    | nil => simp at hr
    | cons d r =>
      have hd : p d = false := h' d (by
        rw [← List.head?_reverse, hr]; simp)
      rw [List.dropWhile_cons_of_neg (by simp [hd]), ← hr, List.reverse_reverse]

end RecurringEvents.Text
