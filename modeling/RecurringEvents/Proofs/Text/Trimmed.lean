import Mathlib.Data.List.DropRight
import RecurringEvents.Proofs.Text.Written

/-!
# Trimming and splitting

What is left of a text when it is trimmed, what becomes of white space at the ends of a text when
the text is split, and of white space at the ends of its parts.

* `Trims`, `trimBy_eq_iff`: what is left of a text.
* `trim_append_blank`: white space at the end is trimmed away.
* `trim_append_of_not_blank`: a text that begins with a word is trimmed at its end.
* `mem_of_mem_splitAny`: the characters of the parts of a text are its own.
* `splitOn_append_of_not_mem`: what is written behind a text goes to its last part.
-/

namespace RecurringEvents.Text

variable {c : Char} {p : Char → Bool} {s t u w : List Char}

/-! ## Trimming -/

theorem trim_eq_rdropWhile (s : List Char) : trim s = (s.dropWhile isBlank).rdropWhile isBlank :=
  rfl

theorem mem_of_mem_trimBy (h : c ∈ trimBy p s) : c ∈ s :=
  (List.dropWhile_sublist p).subset ((List.rdropWhile_prefix p (s.dropWhile p)).subset h)

theorem mem_of_mem_trim (h : c ∈ trim s) : c ∈ s := mem_of_mem_trimBy h

theorem rdropWhile_append_of_forall (hw : ∀ c ∈ w, p c = true) :
    (s ++ w).rdropWhile p = s.rdropWhile p := by
  have hnil : w.reverse.dropWhile p = [] :=
    List.dropWhile_eq_nil_iff.2 fun c hc => hw c (List.mem_reverse.1 hc)
  rw [List.rdropWhile, List.reverse_append, List.dropWhile_append, hnil]
  rfl

/-- What is of the class at the end is trimmed away. -/
theorem trimBy_append (hw : ∀ c ∈ w, p c = true) : trimBy p (s ++ w) = trimBy p s := by
  rw [trimBy_eq_rdropWhile, trimBy_eq_rdropWhile, List.dropWhile_append]
  split
  · next hs =>
    rw [List.isEmpty_iff.1 hs, List.dropWhile_eq_nil_iff.2 hw]
  · exact rdropWhile_append_of_forall hw

/-- So is what is of the class in front. -/
theorem trimBy_append_left (hu : ∀ c ∈ u, p c = true) : trimBy p (u ++ s) = trimBy p s := by
  rw [trimBy_eq_rdropWhile, trimBy_eq_rdropWhile, List.dropWhile_append,
    List.dropWhile_eq_nil_iff.2 hu]
  rfl

/-- White space at the end is trimmed away. -/
theorem trim_append_blank (hw : ∀ c ∈ w, isBlank c = true) : trim (s ++ w) = trim s :=
  trimBy_append hw

/-- A trimmed text is not trimmed any more. -/
theorem trimBy_trimBy (p : Char → Bool) (s : List Char) : trimBy p (trimBy p s) = trimBy p s :=
  trimBy_eq_self (fun _ => not_of_head?_trimBy) fun _ => not_of_getLast?_trimBy

theorem trim_trim (s : List Char) : trim (trim s) = trim s := trimBy_trimBy isBlank s

/-- Whether `t` is left of `s` without the characters of a class at its ends. -/
structure Trims (p : Char → Bool) (s t : List Char) : Prop where
  around : ∃ u w, (∀ c ∈ u, p c = true) ∧ (∀ c ∈ w, p c = true) ∧ s = u ++ t ++ w
  first : ∀ c ∈ t.head?, p c = false
  last : ∀ c ∈ t.getLast?, p c = false

theorem trims_trimBy (p : Char → Bool) (s : List Char) : Trims p s (trimBy p s) where
  around := by
    refine ⟨s.takeWhile p, (s.dropWhile p).rtakeWhile p, fun _ hc => List.mem_takeWhile_imp hc,
      fun _ hc => List.mem_rtakeWhile_imp hc, ?_⟩
    rw [trimBy_eq_rdropWhile, List.append_assoc, List.rdropWhile_append_rtakeWhile,
      List.takeWhile_append_dropWhile]
  first _ := not_of_head?_trimBy
  last _ := not_of_getLast?_trimBy

/-- **Trimming leaves what is between the characters of the class at both ends.** -/
theorem trimBy_eq_iff : trimBy p s = t ↔ Trims p s t := by
  constructor
  · rintro rfl
    exact trims_trimBy p s
  · rintro ⟨⟨u, w, hu, hw, rfl⟩, hfirst, hlast⟩
    rw [trimBy_append hw, trimBy_append_left hu, trimBy_eq_self hfirst hlast]

/-- A first character that is not in the class stays the first one. -/
theorem Trims.head (h : Trims p (c :: s) t) (hc : p c = false) (hne : t ≠ []) :
    t.head? = some c := by
  obtain ⟨u, w, hu, -, hs⟩ := h.around
  cases u with
  | cons d u =>
    cases hs
    cases (hu c List.mem_cons_self).symm.trans hc
  | nil =>
    cases t with
    | nil => exact absurd rfl hne
    | cons d t =>
      cases hs
      rfl

theorem Trims.subset (h : Trims p s t) : t ⊆ s := by
  rw [← trimBy_eq_iff.2 h]
  exact fun _ => mem_of_mem_trimBy

/-- A text that begins with a word is trimmed at its end, and not into the word. -/
theorem trim_append_of_not_blank (hne : s ≠ []) (hhead : ∀ c ∈ s.head?, isBlank c = false)
    (hlast : ∀ c ∈ s.getLast?, isBlank c = false) :
    trim (s ++ t) = s ++ t.rdropWhile isBlank := by
  have hfirst : (s ++ t).dropWhile isBlank = s ++ t := by
    cases s with
    | nil => exact absurd rfl hne
    | cons c s =>
      rw [List.cons_append, List.dropWhile_cons_of_neg]
      simp [hhead c rfl]
  have hword : s.reverse.dropWhile isBlank = s.reverse := by
    cases hr : s.reverse with
    | nil => rfl
    | cons c r =>
      rw [List.dropWhile_cons_of_neg]
      rw [← List.head?_reverse, hr] at hlast
      simp [hlast c rfl]
  rw [trim_eq_rdropWhile, hfirst, List.rdropWhile, List.reverse_append, List.dropWhile_append,
    hword]
  split
  · next hblank =>
    rw [List.rdropWhile, List.isEmpty_iff.1 hblank, List.reverse_reverse, List.reverse_nil,
      List.append_nil]
  · rw [List.reverse_append, List.reverse_reverse, List.rdropWhile]

/-- What is cut off the end of a text is white space. -/
theorem exists_blank_append (s : List Char) :
    ∃ w, (∀ c ∈ w, isBlank c = true) ∧ s.rdropWhile isBlank ++ w = s :=
  ⟨s.rtakeWhile isBlank, fun _ hc => List.mem_rtakeWhile_imp hc, List.rdropWhile_append_rtakeWhile⟩

/-! ## Splitting -/

/-- The characters of the parts of a text are its own. -/
theorem mem_of_mem_splitAny (hw : w ∈ splitAny p s) (hc : c ∈ w) : c ∈ s := by
  induction s generalizing w with
  | nil =>
    rw [List.mem_singleton.1 hw] at hc
    cases hc
  | cons a s ih =>
    unfold splitAny at hw
    split at hw
    · rcases List.mem_cons.1 hw with rfl | hw
      · cases hc
      · exact List.mem_cons_of_mem a (ih hw hc)
    · split at hw
      · rw [List.mem_singleton.1 hw] at hc
        exact List.mem_cons.2 (Or.inl (List.mem_singleton.1 hc))
      · next v vs hs =>
        rw [hs] at ih
        rcases List.mem_cons.1 hw with rfl | hw
        · rcases List.mem_cons.1 hc with rfl | hc
          · exact List.mem_cons_self
          · exact List.mem_cons_of_mem a (ih List.mem_cons_self hc)
        · exact List.mem_cons_of_mem a (ih (List.mem_cons_of_mem v hw) hc)

theorem splitOn_eq_splitAny (sep : Char) (s : List Char) :
    splitOn sep s = splitAny (· = sep) s := by
  induction s with
  | nil => rfl
  | cons c s ih =>
    unfold splitOn splitAny
    rw [ih]
    simp only [decide_eq_true_eq]

theorem mem_of_mem_splitOn {sep : Char} (hw : w ∈ splitOn sep s) (hc : c ∈ w) : c ∈ s := by
  rw [splitOn_eq_splitAny] at hw
  exact mem_of_mem_splitAny hw hc

/-- What is written behind a text goes to its last part. -/
theorem splitOn_append_of_not_mem {sep : Char} (hw : sep ∉ w) (s : List Char) :
    ∃ before last, splitOn sep s = before ++ [last] ∧
      splitOn sep (s ++ w) = before ++ [last ++ w] := by
  induction s with
  | nil => exact ⟨[], [], rfl, splitOn_of_not_mem hw⟩
  | cons c s ih =>
    obtain ⟨before, last, hs, hsw⟩ := ih
    by_cases hc : c = sep
    · subst hc
      refine ⟨[] :: before, last, ?_, ?_⟩
      · rw [splitOn, if_pos rfl, hs, List.cons_append]
      · rw [List.cons_append, splitOn, if_pos rfl, hsw, List.cons_append]
    · obtain ⟨v, vs, hv, hcv⟩ := splitOn_cons_ne hc s
      obtain ⟨v', vs', hv', hcv'⟩ := splitOn_cons_ne hc (s ++ w)
      rw [hs] at hv
      rw [hsw] at hv'
      cases before with
      | nil =>
        cases hv
        cases hv'
        exact ⟨[], c :: last, hcv, hcv'⟩
      | cons u us =>
        cases hv
        cases hv'
        exact ⟨(c :: v) :: us, last, hcv, hcv'⟩

end RecurringEvents.Text
