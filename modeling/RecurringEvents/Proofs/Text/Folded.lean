import RecurringEvents.Proofs.Text.Case

/-!
# Characters that become ASCII

Words are compared after their case is changed by the rules of all scripts, and ten characters
outside ASCII have an upper case in ASCII: the sharp s, the dotless i, the long s, and the seven
ligatures of Latin letters. Only the Kelvin sign has its lower case there. A text whose upper case
is a word may have those of the ten in it whose upper case is a part of the word.

* `isAscii_upperChar_iff`, `lowerChar_lt_iff`: the characters that become ASCII.
* `isAsciiBut_of_upper_eq`, `isAsciiBut_of_lower_eq`: texts that become a word.
-/

namespace RecurringEvents.Text

variable {c : Char} {s t w exceptions : List Char}

/-- Whether all characters of a text outside ASCII are among some exceptions. -/
def IsAsciiBut (exceptions s : List Char) : Prop := ∀ c ∈ s, c.toNat < 0x80 ∨ c ∈ exceptions

theorem IsAscii.isAsciiBut (h : IsAscii s) : IsAsciiBut exceptions s := fun c hc => Or.inl (h c hc)

theorem IsAsciiBut.of_subset (h : IsAsciiBut exceptions s) (ht : t ⊆ s) :
    IsAsciiBut exceptions t := fun c hc => h c (ht hc)

/-! ## Letters -/

/-- The letters that have a case of their own are those of ASCII. -/
theorem toNat_lt_of_isAlpha (h : c.isAlpha = true) : c.toNat < 0x80 := by
  simp only [Char.isAlpha, Char.isUpper, Char.isLower, Bool.or_eq_true, Bool.and_eq_true,
    decide_eq_true_eq, ge_iff_le, UInt32.le_iff_toNat_le] at h
  have hsmall : c.toNat ≤ 122 := by
    rcases h with h | h
    · exact Nat.le_trans h.2 (by decide)
    · exact h.2
  omega

theorem toNat_toUpper_lt_iff : c.toUpper.toNat < 0x80 ↔ c.toNat < 0x80 := by
  by_cases h : c.isAlpha = true
  · have hupper : c.toUpper.isAlpha = true := by rw [Char.isAlpha_toUpper_eq_isAlpha, h]
    exact iff_of_true (toNat_lt_of_isAlpha hupper) (toNat_lt_of_isAlpha h)
  · rw [Char.toUpper_eq_of_not_isLower fun hlower => h (by rw [Char.isAlpha, hlower, Bool.or_true])]

theorem toNat_toLower_lt_iff : c.toLower.toNat < 0x80 ↔ c.toNat < 0x80 := by
  by_cases h : c.isAlpha = true
  · have hlower : c.toLower.isAlpha = true := by rw [Char.isAlpha_toLower_eq_isAlpha, h]
    exact iff_of_true (toNat_lt_of_isAlpha hlower) (toNat_lt_of_isAlpha h)
  · rw [Char.toLower_eq_of_not_isUpper fun hupper => h (by rw [Char.isAlpha, hupper, Bool.true_or])]

/-! ## Upper case -/

/-- The characters outside ASCII whose upper case is in ASCII, with their upper case. -/
def upperFolded : List (Char × List Char) :=
  [('ß', ['S', 'S']), ('ı', ['I']), ('ſ', ['S']), ('ﬀ', ['F', 'F']), ('ﬁ', ['F', 'I']),
   ('ﬂ', ['F', 'L']), ('ﬃ', ['F', 'F', 'I']), ('ﬄ', ['F', 'F', 'L']), ('ﬅ', ['S', 'T']),
   ('ﬆ', ['S', 'T'])]

/-- Where a character becomes several ones of ASCII. -/
theorem mem_upperFolded_of_expansions : ∀ p ∈ expansions,
    IsAscii (p.2.map Char.ofNat) → (Char.ofNat p.1, p.2.map Char.ofNat) ∈ upperFolded := by
  have htable : ∀ p ∈ expansions, (p.2.map Char.ofNat).all (fun c => c.toNat < 0x80) = true →
      (Char.ofNat p.1, p.2.map Char.ofNat) ∈ upperFolded := by decide +kernel
  intro p hp hascii
  exact htable p hp (List.all_eq_true.2 fun c hc => decide_eq_true (hascii c hc))

/-- All other characters that change become characters beyond ASCII, but for two. -/
theorem caseRuns_bounds : ∀ r ∈ caseRuns,
    r.first = r.last ∧ (Char.ofNat r.first, [Char.ofNat (r.moved r.first)]) ∈ upperFolded ∨
    0x80 ≤ (r.first : Int) + r.shift ∧
      ((r.last : Int) + r.shift < 0xd800 ∨
        0xdfff < (r.first : Int) + r.shift ∧ (r.last : Int) + r.shift < 0x110000) := by
  decide +kernel

/-- The code points of characters beyond ASCII. -/
theorem le_toNat_ofNat {n : Nat} (h : 0x80 ≤ n)
    (hvalid : n < 0xd800 ∨ 0xdfff < n ∧ n < 0x110000) : 0x80 ≤ (Char.ofNat n).toNat := by
  rwa [Char.toNat_ofNat, if_pos hvalid]

/-- A character of a run that becomes one of ASCII is one of the two. -/
theorem CaseRun.mem_upperFolded {r : CaseRun} (h : r ∈ caseRuns) (hc : r.holds c.toNat = true)
    (hsmall : (Char.ofNat (r.moved c.toNat)).toNat < 0x80) :
    (c, [Char.ofNat (r.moved c.toNat)]) ∈ upperFolded := by
  simp only [CaseRun.holds, Bool.and_eq_true, decide_eq_true_eq] at hc
  obtain ⟨⟨hfirst, hlast⟩, -⟩ := hc
  rcases caseRuns_bounds r h with ⟨hone, hmem⟩ | hbounds
  · have hcode : c.toNat = r.first := Nat.le_antisymm (hone ▸ hlast) hfirst
    rw [hcode, ← Char.ofNat_toNat c, hcode]
    exact hmem
  · have hlarge : 0x80 ≤ (Char.ofNat (r.moved c.toNat)).toNat := by
      rw [CaseRun.moved]
      exact le_toNat_ofNat (by omega) (by omega)
    exact absurd hsmall (Nat.not_lt.2 hlarge)

/-- **The characters that become ASCII.** -/
theorem isAscii_upperChar_iff :
    IsAscii (upperChar c) ↔ c.toNat < 0x80 ∨ (c, upperChar c) ∈ upperFolded := by
  constructor
  · intro h
    refine or_iff_not_imp_left.2 fun hc => ?_
    rw [upperChar, if_neg hc] at h ⊢
    cases hus : expansions.lookup c.toNat with
    | some us =>
      simp only [hus] at h ⊢
      obtain ⟨before, after, htable, -⟩ := List.lookup_eq_some_iff.1 hus
      have hmem : (c.toNat, us) ∈ expansions := by
        rw [htable]
        exact List.mem_append_right before List.mem_cons_self
      have hfolded := mem_upperFolded_of_expansions _ hmem h
      rwa [Char.ofNat_toNat] at hfolded
    | none =>
      simp only [hus] at h ⊢
      cases hr : caseRuns.find? (·.holds c.toNat) with
      | some r =>
        simp only [hr] at h ⊢
        have hholds : r.holds c.toNat = true :=
          List.find?_some (p := fun r : CaseRun => r.holds c.toNat) hr
        exact CaseRun.mem_upperFolded (List.mem_of_find?_eq_some hr) hholds
          (h _ List.mem_cons_self)
      | none =>
        simp only [hr] at h
        exact absurd (h c List.mem_cons_self) hc
  · rintro (h | h)
    · rw [upperChar_ascii h]
      intro d hd
      rw [List.mem_singleton.1 hd]
      exact toNat_toUpper_lt_iff.2 h
    · have htable : ∀ p ∈ upperFolded, p.2.all (fun d => decide (d.toNat < 0x80)) = true := by
        decide
      exact forall_mem_of_all (htable _ h)

/-- The upper case of a character is a part of the upper case of the text. -/
theorem upperChar_infix_upper (h : c ∈ s) : upperChar c <:+: upper s := by
  obtain ⟨before, after, rfl⟩ := List.append_of_mem h
  refine ⟨upper before, upper after, ?_⟩
  rw [upper_append, upper_cons, List.append_assoc]

/-- **A text that becomes a word** has in it only characters of ASCII and those whose upper case is
a part of the word, of which only the letters count. -/
theorem isAsciiBut_of_upper_eq (h : upper s = w) (hw : IsAscii w)
    (hexceptions : ∀ p ∈ upperFolded, p.2 <:+: w.filter Char.isAlpha → p.1 ∈ exceptions) :
    IsAsciiBut exceptions s := by
  intro c hc
  have hpart : upperChar c <:+: w := h ▸ upperChar_infix_upper hc
  have hascii : IsAscii (upperChar c) := fun d hd => hw d (hpart.subset hd)
  refine (isAscii_upperChar_iff.1 hascii).imp_right fun hfolded => hexceptions _ hfolded ?_
  have hletters : ∀ p ∈ upperFolded, p.2.filter Char.isAlpha = p.2 := by decide
  rw [← hletters _ hfolded]
  exact hpart.filter Char.isAlpha

/-! ## Lower case -/

/-- The Kelvin sign, whose lower case is that of the letter K. -/
def kelvinSign : Char := Char.ofNat 0x212a

/-- **The characters whose lower case is in ASCII.** -/
theorem lowerChar_lt_iff : (lowerChar c).toNat < 0x80 ↔ c.toNat < 0x80 ∨ c = kelvinSign := by
  by_cases hk : c = kelvinSign
  · subst hk
    exact iff_of_true (by decide) (Or.inr rfl)
  · have hne : c.toNat ≠ 0x212a := fun h => hk (Char.toNat_inj.1 h)
    rw [lowerChar, if_neg hne, toNat_toLower_lt_iff, or_iff_left hk]

/-- **A text that becomes a word** in small letters. -/
theorem isAsciiBut_of_lower_eq (h : lower s = w) (hw : IsAscii w) :
    IsAsciiBut [kelvinSign] s := by
  intro c hc
  have hlower : lowerChar c ∈ w := h ▸ List.mem_map_of_mem hc
  exact (lowerChar_lt_iff.1 (hw _ hlower)).imp_right List.mem_singleton.2

end RecurringEvents.Text
