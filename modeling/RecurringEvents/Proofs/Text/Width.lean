import RecurringEvents.Proofs.Text.Written

/-!
# Numbers of one width

Texts of digits that have one length are in the order of their values, so a number is written in one
way only in a given width. Of longer texts that are put together of such parts, the first part that
differs decides.

* `append_lt_append_iff`: the order of texts with a first part of one length.
* `digits_lt_iff`, `padded_lt_iff`: the order of numbers of one width.
* `digits?_eq_some_iff`, `digits?_eq_some_iff_lt`: the digits of a field are the number filled up to
  the width.
-/

namespace RecurringEvents.Text

open Iso

variable {c : Char} {ds es s t s' t' r : List Char} {m n w : Nat}

/-! ## The order of texts -/

/-- Of two texts with a first part of one length, that part decides unless it is the same. -/
theorem append_lt_append_iff (h : s.length = s'.length) :
    s ++ t < s' ++ t' ↔ s < s' ∨ s = s' ∧ t < t' := by
  induction s generalizing s' with
  | nil =>
    obtain rfl := List.eq_nil_of_length_eq_zero h.symm
    simp
  | cons c s ih =>
    cases s' with
    | nil => cases h
    | cons d s' =>
      rw [List.cons_append, List.cons_append, List.cons_lt_cons_iff, List.cons_lt_cons_iff,
        ih (Nat.succ_inj.1 h), List.cons.injEq]
      by_cases hcd : c = d
      · simp [hcd]
      · simp [hcd]

/-- The value of a digit, as it counts in a number. -/
theorem toNat_of_isDigit (h : isDigit c = true) : ∃ d < 10, c.toNat = 48 + d := by
  obtain ⟨hlo, hhi⟩ := isDigit_iff.1 h
  exact ⟨c.toNat - 48, by omega, by omega⟩

/-- What was read before counts more than any digits that follow, and then the digits decide. -/
theorem ofDigitChars_lt_iff (hds : ∀ c ∈ ds, isDigit c = true) (hes : ∀ c ∈ es, isDigit c = true)
    (hlen : ds.length = es.length) :
    Nat.ofDigitChars 10 ds m < Nat.ofDigitChars 10 es n ↔ m < n ∨ m = n ∧ ds < es := by
  induction ds generalizing es m n with
  | nil =>
    obtain rfl := List.eq_nil_of_length_eq_zero hlen.symm
    simp [Nat.ofDigitChars]
  | cons a ds ih =>
    cases es with
    | nil => cases hlen
    | cons b es =>
      obtain ⟨ha, hds⟩ := List.forall_mem_cons.1 hds
      obtain ⟨hb, hes⟩ := List.forall_mem_cons.1 hes
      obtain ⟨d, hd, had⟩ := toNat_of_isDigit ha
      obtain ⟨e, he, hbe⟩ := toNat_of_isDigit hb
      have hless : a < b ↔ d < e := by
        rw [Char.lt_def, UInt32.lt_iff_toNat_lt]
        show a.toNat < b.toNat ↔ _
        omega
      have hsame : a = b ↔ d = e := by
        rw [← Char.toNat_inj]
        omega
      have hplace : '0'.toNat = 48 := rfl
      rw [Nat.ofDigitChars_cons, Nat.ofDigitChars_cons, ih hds hes (Nat.succ_inj.1 hlen),
        List.cons_lt_cons_iff, hless, hsame, had, hbe, hplace, Nat.add_sub_cancel_left,
        Nat.add_sub_cancel_left]
      by_cases hlt : ds < es
      · simp only [hlt, and_true]
        omega
      · simp only [hlt, and_false, or_false]
        omega

/-- **Texts of digits that have one length are in the order of their values.** -/
theorem digits_lt_iff (hds : ∀ c ∈ ds, isDigit c = true) (hes : ∀ c ∈ es, isDigit c = true)
    (hlen : ds.length = es.length) :
    ds < es ↔ Nat.ofDigitChars 10 ds 0 < Nat.ofDigitChars 10 es 0 := by
  rw [ofDigitChars_lt_iff hds hes hlen]
  simp

/-- Texts of digits that have one length and one value are the same. -/
theorem digits_inj (hds : ∀ c ∈ ds, isDigit c = true) (hes : ∀ c ∈ es, isDigit c = true)
    (hlen : ds.length = es.length)
    (hvalue : Nat.ofDigitChars 10 ds 0 = Nat.ofDigitChars 10 es 0) : ds = es := by
  refine List.le_antisymm (List.not_lt.1 fun hlt => ?_) (List.not_lt.1 fun hlt => ?_)
  · exact Nat.ne_of_gt ((digits_lt_iff hes hds hlen.symm).1 hlt) hvalue
  · exact Nat.ne_of_lt ((digits_lt_iff hds hes hlen).1 hlt) hvalue

/-! ## Numbers that are filled up -/

/-- Numbers that are filled up to one width are in their order. -/
theorem padded_lt_iff (hm : (decimal m).length ≤ w) (hn : (decimal n).length ≤ w) :
    padded w m < padded w n ↔ m < n := by
  rw [digits_lt_iff (fun _ => isDigit_of_mem_padded) (fun _ => isDigit_of_mem_padded)
    ((length_padded hm).trans (length_padded hn).symm), ofDigitChars_padded, ofDigitChars_padded]

theorem padded_inj (h : padded w m = padded w n) : m = n := by
  rw [← ofDigitChars_padded w m, h, ofDigitChars_padded]

/-- Digits that follow a number make it larger by less than one more in its place. -/
theorem ofDigitChars_lt (hds : ∀ c ∈ ds, isDigit c = true) (n : Nat) :
    Nat.ofDigitChars 10 ds n < (n + 1) * Nat.pow 10 ds.length := by
  induction ds generalizing n with
  | nil => simp [Nat.ofDigitChars]
  | cons a ds ih =>
    obtain ⟨ha, hds⟩ := List.forall_mem_cons.1 hds
    obtain ⟨d, hd, had⟩ := toNat_of_isDigit ha
    have hplace : '0'.toNat = 48 := rfl
    rw [Nat.ofDigitChars_cons, had, hplace, Nat.add_sub_cancel_left, List.length_cons]
    calc Nat.ofDigitChars 10 ds (10 * n + d)
        < (10 * n + d + 1) * Nat.pow 10 ds.length := ih hds _
      _ ≤ ((n + 1) * 10) * Nat.pow 10 ds.length := Nat.mul_le_mul_right _ (by omega)
      _ = (n + 1) * Nat.pow 10 (ds.length + 1) := by
        rw [Nat.mul_assoc, Nat.mul_comm 10]
        rfl

/-- The value of some digits is written in no more digits. -/
theorem length_decimal_ofDigitChars (hds : ∀ c ∈ ds, isDigit c = true) (hne : 0 < ds.length) :
    (decimal (Nat.ofDigitChars 10 ds 0)).length ≤ ds.length := by
  have hlt := ofDigitChars_lt hds 0
  rw [Nat.zero_add, Nat.one_mul] at hlt
  exact (Nat.length_toDigits_le_iff (by decide) hne).2 hlt

/-- **Digits are their value, filled up to their number.** -/
theorem padded_ofDigitChars (hds : ∀ c ∈ ds, isDigit c = true) (hne : 0 < ds.length) :
    padded ds.length (Nat.ofDigitChars 10 ds 0) = ds :=
  digits_inj (fun _ => isDigit_of_mem_padded) hds
    (length_padded (length_decimal_ofDigitChars hds hne)) (ofDigitChars_padded _ _)

/-- **A field of some digits is found exactly if the text begins with a number of that width.** -/
theorem digits?_eq_some_iff (hw : 0 < w) {n : Int} : digits? w s = some (n, r) ↔
    0 ≤ n ∧ (decimal n.toNat).length ≤ w ∧ s = padded w n.toNat ++ r := by
  constructor
  · intro h
    unfold digits? at h
    split at h
    · next hdigits =>
      obtain ⟨hlen, hall⟩ := hdigits
      have hds := List.all_eq_true.1 hall
      cases h
      rw [Int.toNat_natCast]
      have hle := length_decimal_ofDigitChars hds (by omega)
      have hpadded := padded_ofDigitChars hds (by omega)
      rw [hlen] at hle hpadded
      exact ⟨Int.natCast_nonneg _, hle, by rw [hpadded, List.take_append_drop]⟩
    · cases h
  · rintro ⟨hn, hlen, rfl⟩
    exact digits?_padded_toNat hlen hn r

/-- A field of some digits is found exactly if the text begins with a number that has room in it. -/
theorem digits?_eq_some_iff_lt (hw : 0 < w) {n : Int} : digits? w s = some (n, r) ↔
    ∃ k : Nat, k < Nat.pow 10 w ∧ n = k ∧ s = padded w k ++ r := by
  rw [digits?_eq_some_iff hw]
  constructor
  · rintro ⟨hn, hlen, rfl⟩
    exact ⟨n.toNat, (Nat.length_toDigits_le_iff (by decide) hw).1 hlen,
      (Int.toNat_of_nonneg hn).symm, rfl⟩
  · rintro ⟨k, hk, rfl, rfl⟩
    exact ⟨Int.natCast_nonneg k, (Nat.length_toDigits_le_iff (by decide) hw).2 hk, rfl⟩

theorem length_padded_of_lt (hw : 0 < w) {k : Nat} (hk : k < Nat.pow 10 w) :
    (padded w k).length = w :=
  length_padded ((Nat.length_toDigits_le_iff (by decide) hw).2 hk)

/-- A number that has room in a field is read back. -/
theorem digits?_padded_of_lt (hw : 0 < w) {k : Nat} (hk : k < Nat.pow 10 w) (r : List Char) :
    digits? w (padded w k ++ r) = some ((k : Int), r) :=
  (digits?_eq_some_iff_lt hw).2 ⟨k, hk, rfl, rfl⟩

/-- A text of the width is a number if it is this number filled up. -/
theorem map_digits?_eq_some_iff (hw : 0 < w) (hs : s.length = w) {n : Int} :
    (digits? w s).map Prod.fst = some n ↔ 0 ≤ n ∧ s = padded w n.toNat := by
  rw [Option.map_eq_some_iff]
  constructor
  · rintro ⟨⟨_, r⟩, h, rfl⟩
    obtain ⟨hn, hlen, rfl⟩ := (digits?_eq_some_iff hw).1 h
    rw [List.length_append, length_padded hlen] at hs
    obtain rfl := List.eq_nil_of_length_eq_zero (by omega : r.length = 0)
    exact ⟨hn, List.append_nil _⟩
  · rintro ⟨hn, rfl⟩
    have hlen : (decimal n.toNat).length ≤ w := by
      rw [padded, List.length_append, List.length_replicate] at hs
      omega
    exact ⟨(n, []), (digits?_eq_some_iff hw).2 ⟨hn, hlen, (List.append_nil _).symm⟩, rfl⟩

end RecurringEvents.Text
