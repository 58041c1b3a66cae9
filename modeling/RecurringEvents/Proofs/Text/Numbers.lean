import Mathlib.Data.Nat.Digits.Defs
import RecurringEvents.Proofs.Text.Trimmed
import RecurringEvents.Text.Integer

/-!
# Whole numbers in their loose form

What a whole number looks like in a setting, told without the reader: an optional sign and digits of
any script, with blanks around them and at most one underscore between two digits. A text of any
other form is no number, and neither is one of more than `digitLimit` digits.

* `Grouped`: the digits and the underscores.
* `LooseNumeral`: the texts and their numbers.
* `looseInteger?_eq_some_iff`: the reader takes these texts and no others.
* `looseInteger?_digits`: digits of ASCII among them.
-/

namespace RecurringEvents.Text

variable {c : Char} {s : List Char} {ds : List Nat} {n : Int}

/-! ## Digits -/

/-- Digits of any script, with at most one underscore between two of them. -/
inductive Grouped : List Char → List Nat → Prop where
  | single {c : Char} {d : Nat} (digit : digitValue? c = some d) : Grouped [c] [d]
  | next {c : Char} {d : Nat} {s : List Char} {ds : List Nat} (digit : digitValue? c = some d)
      (rest : Grouped s ds) : Grouped (c :: s) (d :: ds)
  | group {c : Char} {d : Nat} {s : List Char} {ds : List Nat} (digit : digitValue? c = some d)
      (rest : Grouped s ds) : Grouped (c :: '_' :: s) (d :: ds)

/-- Neither the underscore nor a sign is a digit. -/
theorem digitValue?_marks :
    digitValue? '_' = none ∧ digitValue? '-' = none ∧ digitValue? '+' = none := by decide

/-- Digits begin with a digit. -/
theorem Grouped.head (h : Grouped s ds) : ∃ c r d, s = c :: r ∧ digitValue? c = some d := by
  cases h with
  | single digit => exact ⟨_, _, _, rfl, digit⟩
  | next digit _ => exact ⟨_, _, _, rfl, digit⟩
  | group digit _ => exact ⟨_, _, _, rfl, digit⟩

/-- So there is no underscore in front of them. -/
theorem Grouped.not_underscore : ¬Grouped ('_' :: s) ds := by
  intro h
  obtain ⟨c, r, d, hc, hd⟩ := h.head
  cases hc
  rw [digitValue?_marks.1] at hd
  cases hd

/-- **The digits are read as they are grouped.** -/
theorem groupedDigits?_eq_some_iff : groupedDigits? s = some ds ↔ Grouped s ds := by
  constructor
  · intro h
    -- the cases are those of the reader
    induction s using groupedDigits?.induct generalizing ds with
    | case1 => cases h
    | case2 c =>
      obtain ⟨d, hd, rfl⟩ := Option.map_eq_some_iff.1 h
      exact .single hd
    | case3 c r ih =>
      rw [groupedDigits?] at h
      obtain ⟨d, hd, h⟩ := Option.bind_eq_some_iff.1 h
      obtain ⟨es, hes, h⟩ := Option.bind_eq_some_iff.1 h
      cases h
      exact .group hd (ih hes)
    | case4 c r hne hno ih =>
      rw [groupedDigits?] at h
      · obtain ⟨d, hd, h⟩ := Option.bind_eq_some_iff.1 h
        obtain ⟨es, hes, h⟩ := Option.bind_eq_some_iff.1 h
        cases h
        exact .next hd (ih hes)
      · exact hne
      · exact hno
  · intro h
    induction h with
    | single digit => simp [groupedDigits?, digit]
    | @next c d s ds digit rest ih =>
      rw [groupedDigits?]
      · simp [digit, ih]
      · rintro rfl
        cases rest
      · rintro r rfl
        exact rest.not_underscore
    | group digit _ ih =>
      rw [groupedDigits?]
      simp [digit, ih]

/-! ## Numbers -/

/-- A whole number: digits, which may have a sign before them, and blanks around all of it. -/
inductive LooseNumeral (s : List Char) : Int → Prop where
  | plain {body : List Char} {ds : List Nat} (spaced : Trims isNumberBlank s body)
      (digits : Grouped body ds) (length_le : ds.length ≤ digitLimit) :
      LooseNumeral s (Nat.ofDigits 10 ds.reverse : Nat)
  | plus {body : List Char} {ds : List Nat} (spaced : Trims isNumberBlank s ('+' :: body))
      (digits : Grouped body ds) (length_le : ds.length ≤ digitLimit) :
      LooseNumeral s (Nat.ofDigits 10 ds.reverse : Nat)
  | minus {body : List Char} {ds : List Nat} (spaced : Trims isNumberBlank s ('-' :: body))
      (digits : Grouped body ds) (length_le : ds.length ≤ digitLimit) :
      LooseNumeral s (-(Nat.ofDigits 10 ds.reverse : Nat))

/-- The digits are weighed by their places. -/
theorem foldl_digits (ds : List Nat) :
    ds.foldl (fun n d => 10 * n + d) 0 = Nat.ofDigits 10 ds.reverse := by
  rw [Nat.ofDigits_eq_foldr, List.foldr_reverse]
  refine congrArg (fun f => ds.foldl f 0) ?_
  funext n d
  exact Nat.add_comm _ _

/-- A number without a sign is all digits. -/
theorem splitSign_of_grouped (h : Grouped s ds) : splitSign s = (false, s) := by
  obtain ⟨c, r, d, rfl, hd⟩ := h.head
  unfold splitSign
  split
  · next heq =>
    cases heq
    rw [digitValue?_marks.2.1] at hd
    cases hd
  · next heq =>
    cases heq
    rw [digitValue?_marks.2.2] at hd
    cases hd
  · rfl

/-- What is read once the sign is taken off. -/
theorem looseInteger?_eq_some_iff_grouped : looseInteger? s = some n ↔
    ∃ ds, Grouped (splitSign (trimBy isNumberBlank s)).2 ds ∧ ds.length ≤ digitLimit ∧
      n = signed (splitSign (trimBy isNumberBlank s)).1 (Nat.ofDigits 10 ds.reverse) := by
  simp only [looseInteger?, foldl_digits]
  constructor
  · intro h
    split at h
    · cases h
    · next ds hds =>
      split at h
      · cases h
      · next hlength =>
        cases h
        exact ⟨ds, groupedDigits?_eq_some_iff.1 hds, Nat.not_lt.1 hlength, rfl⟩
  · rintro ⟨ds, hds, hlength, rfl⟩
    simp only [groupedDigits?_eq_some_iff.2 hds, if_neg (Nat.not_lt.2 hlength)]

/-- **The numbers that are read.** -/
theorem looseInteger?_eq_some_iff : looseInteger? s = some n ↔ LooseNumeral s n := by
  rw [looseInteger?_eq_some_iff_grouped]
  constructor
  · rintro ⟨ds, hds, hlength, rfl⟩
    unfold splitSign at hds ⊢
    split at hds
    · next hbody => exact .minus (trimBy_eq_iff.1 hbody) hds hlength
    · next hbody => exact .plus (trimBy_eq_iff.1 hbody) hds hlength
    · exact .plain (trims_trimBy _ _) hds hlength
  · intro h
    cases h with
    | plain spaced digits length_le =>
      rw [trimBy_eq_iff.2 spaced, splitSign_of_grouped digits]
      exact ⟨_, digits, length_le, rfl⟩
    | plus spaced digits length_le =>
      rw [trimBy_eq_iff.2 spaced]
      exact ⟨_, digits, length_le, rfl⟩
    | minus spaced digits length_le =>
      rw [trimBy_eq_iff.2 spaced]
      exact ⟨_, digits, length_le, rfl⟩

/-- A number whose first character is not blank begins with a digit or a sign. -/
theorem LooseNumeral.head (h : LooseNumeral (c :: s) n) (hc : isNumberBlank c = false) :
    (∃ d, digitValue? c = some d) ∨ c = '+' ∨ c = '-' := by
  cases h with
  | plain spaced digits =>
    obtain ⟨e, r, d, rfl, hd⟩ := digits.head
    cases spaced.head hc (List.cons_ne_nil e r)
    exact Or.inl ⟨d, hd⟩
  | plus spaced =>
    cases spaced.head hc (List.cons_ne_nil '+' _)
    exact Or.inr (Or.inl rfl)
  | minus spaced =>
    cases spaced.head hc (List.cons_ne_nil '-' _)
    exact Or.inr (Or.inr rfl)

/-! ## Digits of ASCII -/

theorem digitValue?_of_isDigit (h : isDigit c = true) :
    digitValue? c = some (c.toNat - 48) := by
  obtain ⟨h1, h2⟩ := isDigit_iff.1 h
  -- the zero of ASCII is the first one that is looked at
  have hzero : (zeros.find? fun z => decide (z ≤ c.toNat) && decide (c.toNat < z + 10)) = some 48 :=
    List.find?_cons_of_pos (by simp; omega)
  rw [digitValue?, hzero]
  rfl

/-- Digits of ASCII are grouped one by one. -/
theorem grouped_of_isDigit (h : ∀ c ∈ s, isDigit c = true) (hne : s ≠ []) :
    Grouped s (s.map fun c => c.toNat - 48) := by
  induction s with
  | nil => exact absurd rfl hne
  | cons c s ih =>
    have hc := digitValue?_of_isDigit (h c List.mem_cons_self)
    by_cases hs : s = []
    · subst hs
      exact .single hc
    · exact .next hc (ih (fun d hd => h d (List.mem_cons_of_mem c hd)) hs)

/-- **Digits of ASCII are read as a number in the loose form, too.** -/
theorem looseInteger?_digits (h : ∀ c ∈ s, isDigit c = true) (hne : s ≠ [])
    (hlen : s.length ≤ digitLimit) :
    looseInteger? s = some ((Nat.ofDigitChars 10 s 0 : Nat) : Int) := by
  have hnumber : ∀ c ∈ numberChars, isNumberBlank c = false := forall_mem_of_all (by decide)
  have hblank : ∀ c ∈ s, isNumberBlank c = false := fun c hc =>
    hnumber c (mem_numberChars_of_isDigit (h c hc))
  have htrim : trimBy isNumberBlank s = s :=
    trimBy_eq_self (fun c hc => hblank c (List.mem_of_head? hc))
      fun c hc => hblank c (List.mem_of_getLast? hc)
  simp only [looseInteger?, htrim, splitSign_of_isDigit h,
    groupedDigits?_eq_some_iff.2 (grouped_of_isDigit h hne), List.length_map,
    if_neg (Nat.not_lt.2 hlen), List.foldl_map]
  rfl

end RecurringEvents.Text
