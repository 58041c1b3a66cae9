import RecurringEvents.Proofs.Iso.Day

/-!
# The fields of a time in ISO 8601 text

The fields of a time are one to three numbers of two digits, all with colons between them or all
without. After the last of them may come nothing, one character that is not read, or a part of a
second: digits after a point or a comma, of which six count, or the same after a colon or, without
colons, after nothing. What follows six digits is not read either.

* `Iso.Fraction`, `Iso.fraction?_eq_some_iff`: parts of a second.
* `Iso.Tail`: what may follow the last field.
* `Iso.Fields`, `Iso.clockFields?_eq_some_iff`: fields are found exactly where they are written.
-/

namespace RecurringEvents

namespace Iso

open Text

/-! ## Fractions -/

/-- The digits of a fraction, of which the first six count, in millionths; and whether anything is
left unread after them. Only after six digits may something follow. -/
inductive Fraction : List Char → Int → Bool → Prop
  | mk {ds r : List Char} (digits : ∀ c ∈ ds, isDigit c = true)
      (rest : r = [] ∨ 6 ≤ ds.length ∧ ∀ c ∈ r.head?, isDigit c = false) :
      Fraction (ds ++ r) (millionths (ds.take 6)) (!atEnd r)

/-- What may follow the last of `n` fields, the part of a second in millionths, and whether anything
is left unread: nothing, one character, a fraction after a mark, or, after the third of fields
without colons, a fraction alone. -/
inductive Tail (colons : Bool) (n : Nat) : List Char → Int → Bool → Prop
  | done : Tail colons n [] 0 false
  | last {c : Char} (ascii : c.toNat < 0x80) : Tail colons n [c] 0 (c ≠ '\x00')
  | marked {c : Char} {s : List Char} {micro : Int} {unread : Bool}
      (mark : isPoint c = true ∨ n = 3 ∧ colons = true ∧ c = ':') (more : s ≠ [])
      (fraction : Fraction s micro unread) : Tail colons n (c :: s) micro unread
  | bare {s : List Char} {micro : Int} {unread : Bool} (third : n = 3) (plain : colons = false)
      (more : 2 ≤ s.length) (fraction : Fraction s micro unread) : Tail colons n s micro unread

/-- A colon, if there is one. -/
def colonIf (colons : Bool) : List Char := if colons then [':'] else []

/-- The fields of a time from the `n`-th on, in two digits each, with what follows the last of
them. -/
inductive Fields (colons : Bool) : Nat → List Char → List Nat → Int → Bool → Prop
  | last {n k : Nat} {s : List Char} {micro : Int} {unread : Bool} (digits : k < 100)
      (tail : Tail colons n s micro unread) : Fields colons n (padded 2 k ++ s) [k] micro unread
  | more {n k : Nat} {s : List Char} {ks : List Nat} {micro : Int} {unread : Bool}
      (digits : k < 100) (room : n < 3) (next : Fields colons (n + 1) s ks micro unread) :
      Fields colons n (padded 2 k ++ (colonIf colons ++ s)) (k :: ks) micro unread

/-- The fields as they are found; those that are missing are zero. -/
def ClockFields.ofList (ks : List Nat) (micro : Int) (unread : Bool) : ClockFields :=
  ⟨(ks[0]?.getD 0 : Nat), (ks[1]?.getD 0 : Nat), (ks[2]?.getD 0 : Nat), micro, unread⟩

variable {s r : List Char} {c : Char} {t u : ClockFields} {colons unread : Bool} {ks : List Nat}
  {h k m n : Nat} {micro x y z : Int}

/-- Digits are passed over up to the first other character. -/
theorem dropWhile_digits {ds : List Char} (hds : ∀ c ∈ ds, isDigit c = true)
    (hr : ∀ c ∈ r.head?, isDigit c = false) : (ds ++ r).dropWhile isDigit = r := by
  rw [List.dropWhile_append_of_pos hds]
  cases r with
  | nil => rfl
  | cons c r =>
    rw [List.dropWhile_cons, hr c rfl]
    rfl

/-- What is written as a fraction is found. -/
theorem Fraction.found (h : Fraction s micro unread) : fraction? s = some (micro, unread) := by
  obtain ⟨hdigits, hrest⟩ := h
  rename_i ds r
  have hstop : ∀ c ∈ r.head?, isDigit c = false := by
    rcases hrest with rfl | ⟨-, hstop⟩
    · intro c hc
      cases hc
    · exact hstop
  have htake : (ds ++ r).take 6 = ds.take 6 := by
    rcases hrest with rfl | ⟨hlen, -⟩
    · rw [List.append_nil]
    · exact List.take_append_of_le_length hlen
  have hdrop : (ds ++ r).drop 6 = ds.drop 6 ++ r := by
    rcases hrest with rfl | ⟨hlen, -⟩
    · simp
    · exact List.drop_append_of_le_length hlen
  have hall : (ds.take 6).all isDigit = true :=
    List.all_eq_true.2 fun c hc => hdigits c (List.mem_of_mem_take hc)
  rw [fraction?, htake, hdrop, if_pos hall,
    dropWhile_digits (fun c hc => hdigits c (List.mem_of_mem_drop hc)) hstop]

/-- Every text goes on as it begins up to a first other character. -/
theorem exists_eq_append (p : Char → Bool) (s : List Char) : ∃ s₁ s₂, s = s₁ ++ s₂ ∧
    (∀ c ∈ s₁, p c = true) ∧ ∀ c ∈ s₂.head?, p c = false := by
  induction s with
  | nil => exact ⟨[], [], rfl, by simp, by simp⟩
  | cons c s ih =>
    cases hc : p c with
    | false => exact ⟨[], c :: s, rfl, by simp, by simp [hc]⟩
    | true =>
      obtain ⟨s₁, s₂, rfl, h₁, h₂⟩ := ih
      exact ⟨c :: s₁, s₂, rfl, by simpa [hc] using h₁, h₂⟩

/-- **A fraction is found exactly where one is written.** -/
theorem fraction?_eq_some_iff : fraction? s = some (micro, unread) ↔ Fraction s micro unread := by
  refine ⟨fun h => ?_, Fraction.found⟩
  obtain ⟨ds, r, rfl, hds, hr⟩ := exists_eq_append isDigit s
  have hrest : r = [] ∨ 6 ≤ ds.length ∧ ∀ c ∈ r.head?, isDigit c = false := by
    cases r with
    | nil => exact Or.inl rfl
    | cons c r =>
      refine Or.inr ⟨Nat.not_lt.1 fun hshort => ?_, hr⟩
      -- the first character that is no digit would be among the first six
      have hmem : c ∈ (ds ++ c :: r).take 6 := by
        rw [List.take_append, List.take_cons (by omega)]
        simp
      have hdigit := List.all_eq_true.1 (Option.ite_none_right_eq_some.1 h).1 c hmem
      rw [hr c rfl] at hdigit
      cases hdigit
  have hform := Fraction.mk hds hrest
  cases hform.found.symm.trans h
  exact hform

theorem fraction?_of_not_digit (hc : isDigit c = false) : fraction? (c :: s) = none :=
  if_neg fun hsix => by
    rw [List.take_succ_cons, List.all_cons, hc] at hsix
    cases hsix

theorem isDigit_of_fraction (h : Fraction (c :: s) micro unread) : isDigit c = true := by
  cases hc : isDigit c with
  | true => rfl
  | false =>
    cases (fraction?_of_not_digit hc).symm.trans h.found

theorem isDigit_of_isPoint (h : isPoint c = true) : isDigit c = false := by
  simp only [isPoint, Bool.or_eq_true, decide_eq_true_eq] at h
  rcases h with rfl | rfl
  · rfl
  · rfl

/-! ## What follows a field -/

theorem eq_nil_of_done (h : afterField s = .done) : s = [] := by
  match s with
  | [] => rfl
  | [c] =>
    rw [afterField] at h
    split at h <;> cases h

theorem eq_singleton_of_last (h : afterField s = .last c) : s = [c] ∧ c.toNat < 0x80 := by
  match s with
  | [d] =>
    rw [afterField] at h
    split at h
    · next hd =>
      cases h
      exact ⟨rfl, hd⟩
    · cases h

theorem eq_cons_of_more (h : afterField s = .more c r) :
    s = c :: r ∧ (r = [] → ¬c.toNat < 0x80) := by
  match s with
  | [d] =>
    rw [afterField] at h
    split at h
    · cases h
    · next hd =>
      cases h
      exact ⟨rfl, fun _ => hd⟩
  | d :: e :: s =>
    cases h
    exact ⟨rfl, fun hnil => by cases hnil⟩

theorem tail_of_done (hs : afterField s = .done) :
    Tail colons n s micro unread ↔ micro = 0 ∧ unread = false := by
  obtain rfl := eq_nil_of_done hs
  constructor
  · intro h
    cases h with
    | done => exact ⟨rfl, rfl⟩
    | bare _ _ hmore => cases hmore
  · rintro ⟨rfl, rfl⟩
    exact .done

theorem tail_of_last (hs : afterField s = .last c) :
    Tail colons n s micro unread ↔ micro = 0 ∧ unread = decide (c ≠ '\x00') := by
  obtain ⟨rfl, hc⟩ := eq_singleton_of_last hs
  constructor
  · intro h
    cases h with
    | last => exact ⟨rfl, rfl⟩
    | marked _ hmore => exact absurd rfl hmore
    | bare _ _ hmore => simp at hmore
  · rintro ⟨rfl, rfl⟩
    exact .last hc

/-- More than one character is read as a fraction or not at all. -/
theorem tail_of_more (hs : afterField s = .more c r) : Tail colons n s micro unread ↔
    (isPoint c = true ∨ n = 3 ∧ colons = true ∧ c = ':') ∧ Fraction r micro unread ∨
      n = 3 ∧ colons = false ∧ Fraction (c :: r) micro unread := by
  obtain ⟨rfl, hsmall⟩ := eq_cons_of_more hs
  constructor
  · intro h
    cases h with
    | last hascii => exact absurd hascii (hsmall rfl)
    | marked hmark _ hfraction => exact Or.inl ⟨hmark, hfraction⟩
    | bare hthird hplain _ hfraction => exact Or.inr ⟨hthird, hplain, hfraction⟩
  · rintro (⟨hmark, hfraction⟩ | ⟨hthird, hplain, hfraction⟩)
    · refine .marked hmark (fun hnil => hsmall hnil ?_) hfraction
      rcases hmark with hpoint | ⟨-, -, rfl⟩
      · simp only [isPoint, Bool.or_eq_true, decide_eq_true_eq] at hpoint
        rcases hpoint with rfl | rfl <;> decide
      · decide
    · refine .bare hthird hplain ?_ hfraction
      cases r with
      | nil =>
        have hdigit := isDigit_iff.1 (isDigit_of_fraction hfraction)
        exact absurd (by omega) (hsmall rfl)
      | cons d r => simp

/-! ## Fields -/

/-- Where nothing or one character follows, the fields are found without a part of a second. -/
theorem exists_tail_of_done (hr : afterField r = .done) :
    some (⟨x, y, z, 0, false⟩ : ClockFields) = some u ↔
      ∃ micro unread, Tail colons n r micro unread ∧ u = ⟨x, y, z, micro, unread⟩ := by
  simp only [tail_of_done hr, and_assoc, exists_and_left, exists_eq_left, Option.some.injEq]
  exact eq_comm

theorem exists_tail_of_last (hr : afterField r = .last c) :
    some (⟨x, y, z, 0, c ≠ '\x00'⟩ : ClockFields) = some u ↔
      ∃ micro unread, Tail colons n r micro unread ∧ u = ⟨x, y, z, micro, unread⟩ := by
  simp only [tail_of_last hr, and_assoc, exists_and_left, exists_eq_left, Option.some.injEq]
  exact eq_comm

theorem exists_fraction_iff :
    ((fraction? s).bind fun p => some (⟨x, y, z, p.1, p.2⟩ : ClockFields)) = some u ↔
      ∃ micro unread, Fraction s micro unread ∧ u = ⟨x, y, z, micro, unread⟩ := by
  rw [Option.bind_eq_some_iff]
  constructor
  · rintro ⟨⟨micro, unread⟩, hs, heq⟩
    exact ⟨micro, unread, fraction?_eq_some_iff.1 hs, (Option.some.inj heq).symm⟩
  · rintro ⟨micro, unread, hs, rfl⟩
    exact ⟨(micro, unread), fraction?_eq_some_iff.2 hs, rfl⟩

/-- After a mark they are found with a fraction. -/
theorem exists_tail_of_mark (hr : afterField r = .more c s)
    (hmark : isPoint c = true ∨ n = 3 ∧ colons = true ∧ c = ':') :
    ((fraction? s).bind fun p => some (⟨x, y, z, p.1, p.2⟩ : ClockFields)) = some u ↔
      ∃ micro unread, Tail colons n r micro unread ∧ u = ⟨x, y, z, micro, unread⟩ := by
  refine exists_fraction_iff.trans (exists₂_congr fun micro unread => and_congr_left' ?_)
  have hbare : ¬(n = 3 ∧ colons = false ∧ Fraction (c :: s) micro unread) := by
    rintro ⟨-, rfl, hfraction⟩
    rcases hmark with hpoint | ⟨-, hcolons, -⟩
    · cases (isDigit_of_isPoint hpoint).symm.trans (isDigit_of_fraction hfraction)
    · cases hcolons
  rw [tail_of_more hr, or_iff_left hbare, and_iff_right hmark]

/-- After anything else they are not the last. -/
theorem not_tail_of_more (hr : afterField r = .more c s) (hn : n ≠ 3) (hpoint : isPoint c = false) :
    ¬∃ micro unread, Tail colons n r micro unread ∧ u = ⟨x, y, z, micro, unread⟩ := by
  rintro ⟨micro, unread, htail, -⟩
  simp [tail_of_more hr, hn, hpoint] at htail

/-- After the hours it makes no difference whether there are colons. -/
theorem Tail.of_hour (h : Tail colons 1 s micro unread) (b : Bool) : Tail b 1 s micro unread := by
  cases h with
  | done => exact .done
  | last hascii => exact .last hascii
  | marked hmark hmore hfraction =>
    exact .marked (Or.inl (hmark.resolve_right (by simp))) hmore hfraction
  | bare hthird => cases hthird

/-! ## Fields -/

/-- What is read of the seconds and what follows them. -/
theorem readSecond?_padded (hk : k < 100) :
    readSecond? colons { hour := h, minute := m } (padded 2 k ++ r) = some u ↔
      ∃ micro unread, Tail colons 3 r micro unread ∧ u = ⟨h, m, k, micro, unread⟩ := by
  rw [readSecond?, digits?_padded_of_lt (w := 2) (by decide) hk]
  simp only [Option.bind_eq_bind, Option.bind_some]
  cases hr : afterField r with
  | done => exact exists_tail_of_done hr
  | last c => exact exists_tail_of_last hr
  | more c s =>
    dsimp only
    by_cases hmark : isPoint c = true ∨ colons = true ∧ c = ':'
    · rw [if_pos (by simpa [or_comm] using hmark)]
      exact exists_tail_of_mark hr (by simpa using hmark)
    · rw [if_neg (by simpa [or_comm] using hmark)]
      obtain ⟨hpoint, hnot⟩ := not_or.1 hmark
      cases colons with
      | true =>
        have hcolon : c ≠ ':' := fun hc => hnot ⟨rfl, hc⟩
        simp [tail_of_more hr, hpoint, hcolon]
      | false =>
        refine exists_fraction_iff.trans (exists₂_congr fun micro unread => and_congr_left' ?_)
        simp [tail_of_more hr, hpoint]

/-- Nothing is read that does not begin with two digits. -/
theorem exists_padded_of_readSecond? (h : readSecond? colons t s = some u) :
    ∃ k q, k < 100 ∧ s = padded 2 k ++ q := by
  obtain ⟨⟨n, q⟩, hread, -⟩ := Option.bind_eq_some_iff.1 h
  obtain ⟨k, hk, -, hs⟩ := (digits?_eq_some_iff_lt (by decide)).1 hread
  exact ⟨k, q, hk, hs⟩

theorem exists_padded_of_readMinute? (h : readMinute? colons t s = some u) :
    ∃ k q, k < 100 ∧ s = padded 2 k ++ q := by
  obtain ⟨⟨n, q⟩, hread, -⟩ := Option.bind_eq_some_iff.1 h
  obtain ⟨k, hk, -, hs⟩ := (digits?_eq_some_iff_lt (by decide)).1 hread
  exact ⟨k, q, hk, hs⟩

section

variable {next : List Char → Option ClockFields}
  (hnext : ∀ s, next s = some u → ∃ k q, k < 100 ∧ s = padded 2 k ++ q)

include hnext

/-- No field follows in one character. -/
theorem not_more_of_short (hr : r.length < 2) :
    ¬∃ s, r = colonIf colons ++ s ∧ next s = some u := by
  rintro ⟨s, rfl, hs⟩
  obtain ⟨k, q, hk, rfl⟩ := hnext s hs
  simp only [List.length_append, length_padded (length_decimal_le_two hk)] at hr
  omega

/-- No field follows after a point or a comma. -/
theorem not_more_of_point (hpoint : isPoint c = true) :
    ¬∃ s, c :: r = colonIf colons ++ s ∧ next s = some u := by
  rintro ⟨s, hr, hs⟩
  obtain ⟨k, q, hk, rfl⟩ := hnext s hs
  cases colons with
  | true =>
    obtain rfl := (List.cons_eq_cons.1 hr).1
    cases hpoint
  | false =>
    exact head?_padded_append (isDigit_of_isPoint hpoint) 2 k q (hr ▸ rfl)

end

/-- What is read of the minutes and what follows them: the last of the fields, or the seconds. -/
theorem readMinute?_padded (hk : k < 100) :
    readMinute? colons { hour := h } (padded 2 k ++ r) = some u ↔
      (∃ micro unread, Tail colons 2 r micro unread ∧ u = ⟨h, k, 0, micro, unread⟩) ∨
        ∃ s, r = colonIf colons ++ s ∧
          readSecond? colons { hour := h, minute := k } s = some u := by
  have hnext : ∀ s, readSecond? colons { hour := h, minute := k } s = some u →
      ∃ k q, k < 100 ∧ s = padded 2 k ++ q := fun _ => exists_padded_of_readSecond?
  rw [readMinute?, digits?_padded_of_lt (w := 2) (by decide) hk]
  simp only [Option.bind_eq_bind, Option.bind_some]
  cases hr : afterField r with
  | done =>
    rw [or_iff_left (not_more_of_short hnext (by simp [eq_nil_of_done hr]))]
    exact exists_tail_of_done hr
  | last c =>
    rw [or_iff_left (not_more_of_short hnext (by simp [(eq_singleton_of_last hr).1]))]
    exact exists_tail_of_last hr
  | more c s =>
    obtain ⟨rfl, -⟩ := eq_cons_of_more hr
    dsimp only
    cases hpoint : isPoint c with
    | true =>
      have hcolon : c ≠ ':' := by
        rintro rfl
        cases hpoint
      rw [if_neg (by simp [hcolon]), if_pos rfl, or_iff_left (not_more_of_point hnext hpoint)]
      exact exists_tail_of_mark hr (Or.inl hpoint)
    | false =>
      rw [or_iff_right (not_tail_of_more hr (by decide) hpoint)]
      cases colons with
      | true =>
        by_cases hcolon : c = ':'
        · simp [colonIf, hcolon]
        · simp [colonIf, hcolon]
      | false => simp [colonIf]

/-- What is read of the hours and what follows them: the last of the fields, or the minutes, with
colons if there is one. -/
theorem clockFields?_padded (hk : k < 100) :
    clockFields? (padded 2 k ++ r) = some u ↔
      (∃ micro unread, Tail false 1 r micro unread ∧ u = ⟨k, 0, 0, micro, unread⟩) ∨
        ∃ colons s, r = colonIf colons ++ s ∧ readMinute? colons { hour := k } s = some u := by
  have hnext : ∀ colons s, readMinute? colons { hour := k } s = some u →
      ∃ k q, k < 100 ∧ s = padded 2 k ++ q := fun _ _ => exists_padded_of_readMinute?
  rw [clockFields?, digits?_padded_of_lt (w := 2) (by decide) hk]
  simp only [Option.bind_eq_bind, Option.bind_some]
  cases hr : afterField r with
  | done =>
    have hshort : r.length < 2 := by simp [eq_nil_of_done hr]
    rw [or_iff_left]
    · exact exists_tail_of_done hr
    · rintro ⟨colons, h⟩
      exact not_more_of_short (hnext colons) hshort h
  | last c =>
    have hshort : r.length < 2 := by simp [(eq_singleton_of_last hr).1]
    rw [or_iff_left]
    · exact exists_tail_of_last hr
    · rintro ⟨colons, h⟩
      exact not_more_of_short (hnext colons) hshort h
  | more c s =>
    obtain ⟨rfl, -⟩ := eq_cons_of_more hr
    dsimp only
    cases hpoint : isPoint c with
    | true =>
      have hcolon : c ≠ ':' := by
        rintro rfl
        cases hpoint
      rw [if_neg hcolon, if_pos rfl, or_iff_left]
      · exact exists_tail_of_mark hr (Or.inl hpoint)
      · rintro ⟨colons, h⟩
        exact not_more_of_point (hnext colons) hpoint h
    | false =>
      rw [or_iff_right (not_tail_of_more hr (by decide) hpoint)]
      by_cases hcolon : c = ':'
      · subst hcolon
        rw [if_pos rfl]
        refine ⟨fun h => ⟨true, s, rfl, h⟩, ?_⟩
        rintro ⟨colons, s', hs, h⟩
        cases colons with
        | true =>
          cases hs
          exact h
        | false =>
          -- a field does not begin with a colon
          obtain ⟨n, q, -, rfl⟩ := hnext false s' h
          exact absurd (congrArg List.head? hs).symm (head?_padded_append rfl 2 n q)
      · rw [if_neg hcolon, if_neg Bool.false_ne_true]
        refine ⟨fun h => ⟨false, c :: s, rfl, h⟩, ?_⟩
        rintro ⟨colons, s', hs, h⟩
        cases colons with
        | true => exact absurd (List.cons_eq_cons.1 hs).1 hcolon
        | false =>
          obtain rfl : c :: s = s' := hs
          exact h

/-- **The seconds are found exactly where they are written.** -/
theorem readSecond?_eq_some_iff : readSecond? colons { hour := h, minute := m } s = some u ↔
    ∃ ks micro unread, Fields colons 3 s ks micro unread ∧
      u = .ofList (h :: m :: ks) micro unread := by
  constructor
  · intro hs
    obtain ⟨k, r, hk, rfl⟩ := exists_padded_of_readSecond? hs
    obtain ⟨micro, unread, htail, rfl⟩ := (readSecond?_padded hk).1 hs
    exact ⟨[k], micro, unread, .last hk htail, rfl⟩
  · rintro ⟨ks, micro, unread, hfields, rfl⟩
    cases hfields with
    | last hk htail => exact (readSecond?_padded hk).2 ⟨micro, unread, htail, rfl⟩
    | more _ hroom => exact absurd hroom (Nat.lt_irrefl 3)

/-- **So are the minutes**, with or without seconds. -/
theorem readMinute?_eq_some_iff : readMinute? colons { hour := h } s = some u ↔
    ∃ ks micro unread, Fields colons 2 s ks micro unread ∧ u = .ofList (h :: ks) micro unread := by
  constructor
  · intro hs
    obtain ⟨k, r, hk, rfl⟩ := exists_padded_of_readMinute? hs
    rcases (readMinute?_padded hk).1 hs with ⟨micro, unread, htail, rfl⟩ | ⟨r, rfl, hr⟩
    · exact ⟨[k], micro, unread, .last hk htail, rfl⟩
    · obtain ⟨ks, micro, unread, hfields, rfl⟩ := readSecond?_eq_some_iff.1 hr
      exact ⟨k :: ks, micro, unread, .more hk (by decide) hfields, rfl⟩
  · rintro ⟨ks, micro, unread, hfields, rfl⟩
    cases hfields with
    | last hk htail => exact (readMinute?_padded hk).2 (Or.inl ⟨micro, unread, htail, rfl⟩)
    | more hk _ hnext =>
      exact (readMinute?_padded hk).2
        (Or.inr ⟨_, rfl, readSecond?_eq_some_iff.2 ⟨_, micro, unread, hnext, rfl⟩⟩)

/-- **So are all fields of a time.** -/
theorem clockFields?_eq_some_iff : clockFields? s = some u ↔
    ∃ colons ks micro unread, Fields colons 1 s ks micro unread ∧ u = .ofList ks micro unread := by
  constructor
  · intro hs
    obtain ⟨⟨n, r⟩, hread, -⟩ := Option.bind_eq_some_iff.1 hs
    obtain ⟨k, hk, -, rfl⟩ := (digits?_eq_some_iff_lt (by decide)).1 hread
    rcases (clockFields?_padded hk).1 hs with ⟨micro, unread, htail, rfl⟩ | ⟨colons, r, rfl, hr⟩
    · exact ⟨false, [k], micro, unread, .last hk htail, rfl⟩
    · obtain ⟨ks, micro, unread, hfields, rfl⟩ := readMinute?_eq_some_iff.1 hr
      exact ⟨colons, k :: ks, micro, unread, .more hk (by decide) hfields, rfl⟩
  · rintro ⟨colons, ks, micro, unread, hfields, rfl⟩
    cases hfields with
    | last hk htail =>
      exact (clockFields?_padded hk).2 (Or.inl ⟨micro, unread, htail.of_hour false, rfl⟩)
    | more hk _ hnext =>
      exact (clockFields?_padded hk).2
        (Or.inr ⟨colons, _, rfl, readMinute?_eq_some_iff.2 ⟨_, micro, unread, hnext, rfl⟩⟩)

end Iso

end RecurringEvents
