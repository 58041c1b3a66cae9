/-!
# Splitting and joining

Lists of words with a separator character. Joining undoes splitting, and splitting undoes joining
of words that do not hold the separator.

* `splitOn_join`: splitting a join of separator-free words gives the words.
* `join_splitOn`: joining the parts of a text gives the text.
-/

namespace RecurringEvents.Text

/-- The parts of a text between the separators; there is always at least one. -/
def splitOn (sep : Char) : List Char → List (List Char)
  | [] => [[]]
  | c :: s =>
    if c = sep then [] :: splitOn sep s
    else match splitOn sep s with
      | [] => [[c]]
      | w :: ws => (c :: w) :: ws

/-- The text before the first separator and the text after it, if there is one. -/
def cut? (sep : Char) : List Char → Option (List Char × List Char)
  | [] => none
  | c :: s => if c = sep then some ([], s) else (cut? sep s).map fun r => (c :: r.1, r.2)

/-- The words with the separator text between each two. -/
def join (sep : List Char) : List (List Char) → List Char
  | [] => []
  | [w] => w
  | w :: v :: ws => w ++ sep ++ join sep (v :: ws)

/-- Cuts the text where a character satisfies `p`, which is left out. -/
def splitAny (p : Char → Bool) : List Char → List (List Char)
  | [] => [[]]
  | c :: s =>
    if p c then [] :: splitAny p s
    else match splitAny p s with
      | [] => [[c]]
      | w :: ws => (c :: w) :: ws

/-- What follows the first place where the text `mark` occurs. -/
def afterFirst? (mark : List Char) : List Char → Option (List Char)
  | [] => if mark.isEmpty then some [] else none
  | c :: s =>
    if mark.isPrefixOf (c :: s) then some ((c :: s).drop mark.length) else afterFirst? mark s

theorem splitOn_ne_nil (sep : Char) (s : List Char) : splitOn sep s ≠ [] := by
  cases s with
  | nil => simp [splitOn]
  | cons c s =>
    rw [splitOn]
    split
    · simp
    · split <;> simp

theorem splitOn_cons_ne {sep c : Char} (h : c ≠ sep) (s : List Char) :
    ∃ w ws, splitOn sep s = w :: ws ∧ splitOn sep (c :: s) = (c :: w) :: ws := by
  cases hs : splitOn sep s with
  | nil => exact absurd hs (splitOn_ne_nil sep s)
  | cons w ws => exact ⟨w, ws, rfl, by simp [splitOn, h, hs]⟩

/-- A text without the separator is its only part. -/
theorem splitOn_of_not_mem {sep : Char} {s : List Char} (h : sep ∉ s) : splitOn sep s = [s] := by
  induction s with
  | nil => rfl
  | cons c s ih =>
    simp only [List.mem_cons, not_or] at h
    simp [splitOn, Ne.symm h.1, ih h.2]

/-- What precedes the first separator is the first part. -/
theorem splitOn_append {sep : Char} {w : List Char} (h : sep ∉ w) (s : List Char) :
    splitOn sep (w ++ sep :: s) = w :: splitOn sep s := by
  induction w with
  | nil => simp [splitOn]
  | cons c w ih =>
    simp only [List.mem_cons, not_or] at h
    simp [splitOn, Ne.symm h.1, ih h.2]

theorem splitOn_join {sep : Char} {ws : List (List Char)} (hne : ws ≠ [])
    (h : ∀ w ∈ ws, sep ∉ w) : splitOn sep (join [sep] ws) = ws := by
  induction ws with
  | nil => exact absurd rfl hne
  | cons w ws ih =>
    cases ws with
    | nil => exact splitOn_of_not_mem (h w (by simp))
    | cons v ws =>
      have hw := splitOn_append (h w (by simp)) (join [sep] (v :: ws))
      rw [join, List.append_assoc, List.singleton_append, hw,
        ih (by simp) fun u hu => h u (List.mem_cons_of_mem _ hu)]

theorem join_splitOn (sep : Char) (s : List Char) : join [sep] (splitOn sep s) = s := by
  induction s with
  | nil => rfl
  | cons c s ih =>
    by_cases hc : c = sep
    · subst hc
      cases hs : splitOn c s with
      | nil => exact absurd hs (splitOn_ne_nil c s)
      | cons w ws =>
        rw [hs] at ih
        simp [splitOn, hs, join, ih]
    · obtain ⟨w, ws, hs, hcs⟩ := splitOn_cons_ne hc s
      rw [hs] at ih
      rw [hcs]
      cases ws with
      | nil => simpa [join] using ih
      | cons v ws => simpa [join] using ih

theorem cut?_append {sep : Char} {w : List Char} (h : sep ∉ w) (s : List Char) :
    cut? sep (w ++ sep :: s) = some (w, s) := by
  induction w with
  | nil => simp [cut?]
  | cons c w ih =>
    simp only [List.mem_cons, not_or] at h
    simp [cut?, Ne.symm h.1, ih h.2]

theorem cut?_eq_none_iff {sep : Char} {s : List Char} : cut? sep s = none ↔ sep ∉ s := by
  induction s with
  | nil => simp [cut?]
  | cons c s ih =>
    by_cases hc : c = sep
    · simp [cut?, hc]
    · simp [cut?, hc, ih, Ne.symm hc]

/-- The cut is at the first separator, and loses nothing. -/
theorem eq_of_cut? {sep : Char} {s a b : List Char} (h : cut? sep s = some (a, b)) :
    s = a ++ sep :: b ∧ sep ∉ a := by
  induction s generalizing a with
  | nil => simp [cut?] at h
  | cons c s ih =>
    by_cases hc : c = sep
    · simp only [cut?, hc, if_true, Option.some.injEq, Prod.mk.injEq] at h
      simp [← h.1, ← h.2, hc]
    · simp only [cut?, hc, if_false, Option.map_eq_some_iff, Prod.mk.injEq] at h
      obtain ⟨⟨a', b'⟩, hr, rfl, rfl⟩ := h
      obtain ⟨rfl, hn⟩ := ih hr
      simp [hn, Ne.symm hc]

end RecurringEvents.Text
