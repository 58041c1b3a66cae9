import Mathlib.Data.List.Forall2
import RecurringEvents.Proofs.Outcome
import RecurringEvents.Proofs.Rule.Checked
import RecurringEvents.Proofs.Rule.Values
import RecurringEvents.Proofs.Text.Case

/-!
# The grammar of values

What the values in a rule text look like, told without the reader, and that the reader takes these
values and no others: numbers with an optional sign, lists with commas, weekdays in any case and
with a position before them.

* `readPositive_eq_ok_iff`: numbers.
* `readIntegers_eq_ok_iff`: lists of numbers.
* `readDays_eq_ok_iff`: lists of weekdays.
-/

namespace RecurringEvents

open Text

namespace Grammar

/-! ## The grammar -/

/-- Digits: at least one, and at most `limit` of them. -/
structure Digits (limit : Nat) (ds : List Char) : Prop where
  ne_nil : ds ≠ []
  digits : ∀ c ∈ ds, isDigit c = true
  length_le : ds.length ≤ limit

/-- A number: digits, which may have a sign before them. -/
inductive Numeral (limit : Nat) : List Char → Int → Prop where
  | plain {ds : List Char} (h : Digits limit ds) : Numeral limit ds (Nat.ofDigitChars 10 ds 0 : Nat)
  | plus {ds : List Char} (h : Digits limit ds) :
      Numeral limit ('+' :: ds) (Nat.ofDigitChars 10 ds 0 : Nat)
  | minus {ds : List Char} (h : Digits limit ds) :
      Numeral limit ('-' :: ds) (-(Nat.ofDigitChars 10 ds 0 : Nat))

/-- A list with commas: one thing for every item that is not blank, in their order, and at least
one. -/
def Lists {α : Type} (p : List Char → α → Prop) (value : List Char) (as : List α) : Prop :=
  as ≠ [] ∧ List.Forall₂ p (((splitOn ',' value).map trim).filter (· ≠ [])) as

/-- The position of a weekday: nothing, or a number of one or two digits in its range. -/
inductive Position : List Char → Option Int → Prop where
  | absent : Position [] none
  | present {s : List Char} {n : Int} (h : Numeral 2 s n) (hn : InSignedRange 53 n) :
      Position s (some n)

/-- An entry of a list of weekdays: a position, and a code in any case. -/
def DayItem (item : List Char) (e : DayEntry) : Prop :=
  ∃ number code, item = number ++ code ∧ Position number e.position ∧
    IsInAnyCase e.day.code.toList code

/-! ## Numbers -/

variable {limit : Nat} {s : List Char} {n : Int}

theorem digits_iff :
    Digits limit (splitSign s).2 ↔ isInteger s = true ∧ (splitSign s).2.length ≤ limit := by
  simp only [isInteger, Bool.and_eq_true, Bool.not_eq_true', List.all_eq_true]
  constructor
  · rintro ⟨hne, hdigits, hlength⟩
    exact ⟨⟨List.isEmpty_eq_false_iff.2 hne, hdigits⟩, hlength⟩
  · rintro ⟨⟨hne, hdigits⟩, hlength⟩
    exact ⟨List.isEmpty_eq_false_iff.1 hne, hdigits, hlength⟩

/-- A number is what is left when the sign is taken off, with the sign. -/
theorem numeral_iff_digits :
    Numeral limit s n ↔ Digits limit (splitSign s).2 ∧ n = integerValue s := by
  constructor
  · intro h
    cases h with
    | plain h =>
      rw [integerValue, splitSign_of_isDigit h.digits]
      exact ⟨h, rfl⟩
    | plus h => exact ⟨h, rfl⟩
    | minus h => exact ⟨h, rfl⟩
  · rintro ⟨h, rfl⟩
    rw [integerValue]
    unfold splitSign at h ⊢
    split at h
    · exact .minus h
    · exact .plus h
    · exact .plain h

theorem numeral_iff : Numeral limit s n ↔
    (isInteger s = true ∧ (splitSign s).2.length ≤ limit) ∧ n = integerValue s := by
  rw [numeral_iff_digits, digits_iff]

/-- There are no letters in a number. -/
theorem Numeral.isAlpha_eq_false (h : Numeral limit s n) : ∀ c ∈ s, c.isAlpha = false := by
  have hchars : ∀ c ∈ numberChars, c.isAlpha = false := forall_mem_of_all (by decide)
  have hdigits : ∀ ds, Digits limit ds → ∀ c ∈ ds, c.isAlpha = false := fun ds hds c hc =>
    hchars c (mem_numberChars_of_isDigit (hds.digits c hc))
  intro c hc
  cases h with
  | plain h => exact hdigits s h c hc
  | plus h =>
    rcases List.mem_cons.1 hc with rfl | hc
    · rfl
    · exact hdigits _ h c hc
  | minus h =>
    rcases List.mem_cons.1 hc with rfl | hc
    · rfl
    · exact hdigits _ h c hc

/-- **The numbers that are read**, where they have to be positive. -/
theorem readPositive_eq_ok_iff {key value : List Char} :
    Rule.readPositive key value = .ok n ↔ Numeral 4300 value n ∧ 1 ≤ n := by
  rw [numeral_iff, Rule.readPositive]
  cases hinteger : isInteger value with
  | false => simp
  | true =>
    by_cases hlength : (splitSign value).2.length ≤ 4300
    · have hlimit : withinDigitLimit value = true := decide_eq_true hlength
      by_cases hpos : integerValue value < 1
      · simp only [hlimit, hpos, Bool.not_true, Bool.false_eq_true, if_false, if_true]
        constructor
        · intro h
          cases h
        · rintro ⟨⟨-, rfl⟩, hn⟩
          omega
      · simp only [hlimit, hpos, hlength, Bool.not_true, Bool.false_eq_true, if_false, true_and]
        constructor
        · intro h
          cases h
          exact ⟨rfl, by omega⟩
        · rintro ⟨rfl, -⟩
          rfl
    · have hlimit : withinDigitLimit value = false := decide_eq_false hlength
      simp [hlimit, hlength]

/-! ## Lists -/

/-- What comes of items one by one, where each gives what stands for it. -/
theorem mapM_eq_ok_iff {ε α β γ : Type} {f : α → Except ε β} {p : α → γ → Prop} {g : γ → β}
    {xs : List α} {ys : List β} (h : ∀ x ∈ xs, ∀ y, f x = .ok y ↔ ∃ z, p x z ∧ y = g z) :
    xs.mapM f = .ok ys ↔ ∃ zs, List.Forall₂ p xs zs ∧ ys = zs.map g := by
  induction xs generalizing ys with
  | nil =>
    constructor
    · intro hok
      cases hok
      exact ⟨[], .nil, rfl⟩
    · rintro ⟨zs, hzs, rfl⟩
      cases hzs
      rfl
  | cons x xs ih =>
    rw [List.forall_mem_cons] at h
    obtain ⟨hx, hxs⟩ := h
    rw [List.mapM_cons, bind_eq_ok_iff]
    constructor
    · rintro ⟨y, hy, hok⟩
      obtain ⟨ys, hys, hok⟩ := bind_eq_ok_iff.1 hok
      cases hok
      obtain ⟨z, hz, rfl⟩ := (hx y).1 hy
      obtain ⟨zs, hzs, rfl⟩ := (ih hxs).1 hys
      exact ⟨z :: zs, .cons hz hzs, rfl⟩
    · rintro ⟨zs, hzs, rfl⟩
      cases hzs with
      | @cons _ z _ zs hz hzs =>
        exact ⟨g z, (hx (g z)).2 ⟨z, hz, rfl⟩,
          bind_eq_ok_iff.2 ⟨zs.map g, (ih hxs).2 ⟨zs, hzs, rfl⟩, rfl⟩⟩

theorem lists_iff {α : Type} {p : List Char → α → Prop} {value : List Char} {as : List α} :
    Lists p value as ↔ as ≠ [] ∧ List.Forall₂ p (Rule.listItems value) as := Iff.rfl

theorem forall₂_numeral_iff {is : List (List Char)} {ns : List Int} :
    List.Forall₂ (Numeral limit) is ns ↔
      (∀ i ∈ is, isInteger i = true ∧ (splitSign i).2.length ≤ limit) ∧
        ns = is.map integerValue := by
  induction is generalizing ns with
  | nil => simp
  | cons i is ih =>
    rw [List.forall₂_cons_left_iff, List.forall_mem_cons, List.map_cons]
    simp only [ih, numeral_iff]
    constructor
    · rintro ⟨n, ns, ⟨hi, rfl⟩, ⟨his, rfl⟩, rfl⟩
      exact ⟨⟨hi, his⟩, rfl⟩
    · rintro ⟨⟨hi, his⟩, rfl⟩
      exact ⟨_, _, ⟨hi, rfl⟩, ⟨his, rfl⟩, rfl⟩

/-- **The lists of numbers that are read.** -/
theorem readIntegers_eq_ok_iff {key value : List Char} {ns : List Int} :
    Rule.readIntegers key value = .ok ns ↔ Lists (Numeral 4300) value ns := by
  rw [lists_iff, forall₂_numeral_iff, Rule.readIntegers]
  generalize Rule.listItems value = items
  by_cases hitems : items = []
  · subst hitems
    simp
  have hne : items.map integerValue ≠ [] := by simpa using hitems
  simp only [if_neg hitems]
  cases hfind : items.find? fun i => !isInteger i with
  | some i =>
    have hi : isInteger i = false := by simpa using List.find?_some hfind
    constructor
    · intro h
      cases h
    · rintro ⟨-, hall, -⟩
      have hinteger := (hall i (List.mem_of_find?_eq_some hfind)).1
      rw [hi] at hinteger
      cases hinteger
  | none =>
    have hinteger : ∀ i ∈ items, isInteger i = true := by simpa using hfind
    by_cases hall : items.all withinDigitLimit = true
    · have hlength : ∀ i ∈ items, (splitSign i).2.length ≤ 4300 := fun i hi =>
        of_decide_eq_true (List.all_eq_true.1 hall i hi)
      simp only [hall, if_true]
      constructor
      · intro h
        cases h
        exact ⟨hne, fun i hi => ⟨hinteger i hi, hlength i hi⟩, rfl⟩
      · rintro ⟨-, -, rfl⟩
        rfl
    · simp only [if_neg hall]
      constructor
      · intro h
        cases h
      · rintro ⟨-, hlength, -⟩
        exact absurd (List.all_eq_true.2 fun i hi => decide_eq_true (hlength i hi).2) hall

/-! ## Weekdays -/

/-- Two capital letters are left as they are. -/
theorem isCapital_of_code (d : Weekday) :
    d.code.toList.length = 2 ∧ d.code.toList.all Rule.isCapital = true := by
  cases d <;> decide

/-- **The weekdays that are read.** -/
theorem readWeekday_eq_ok_iff {value : List Char} {d : Weekday} (h : IsAscii value) :
    Rule.readWeekday value = .ok d ↔ IsInAnyCase d.code.toList (trim value) := by
  rw [Rule.readWeekday, h.trim.upper_eq, IsInAnyCase]
  constructor
  · intro hread
    cases hcode : Weekday.ofCode? ((trim value).map Char.toUpper) with
    | none =>
      rw [hcode] at hread
      cases hread
    | some d' =>
      rw [hcode] at hread
      cases hread
      exact Weekday.toList_of_ofCode? hcode
  · intro hcode
    rw [hcode, Weekday.ofCode?_code]

/-- What stands before the code of a weekday is its position. -/
theorem dayItem?_append {number : List Char} {p : Option Int} (h : Position number p)
    (d : Weekday) : Rule.dayItem? (number ++ d.code.toList) = some (p, d.code.toList) := by
  have hcode := isCapital_of_code d
  generalize d.code.toList = code at hcode
  -- the number is what stands before the last two characters
  have hnumber : (number ++ code).dropLast.dropLast = number := by
    match code, hcode.1 with
    | [a, b], _ => rw [List.append_cons, List.dropLast_concat, List.dropLast_concat]
  unfold Rule.dayItem?
  simp only [hnumber, List.drop_left, hcode, and_self, if_true]
  cases h with
  | absent => rfl
  | present h hn =>
    obtain ⟨⟨hinteger, hlength⟩, rfl⟩ := numeral_iff.1 h
    have hne : number ≠ [] := by
      rintro rfl
      cases hinteger
    simp only [if_neg hne, hinteger, hlength, and_self, if_true]

/-- An item is a number and two capital letters. -/
theorem of_dayItem? {item code : List Char} {p : Option Int}
    (h : Rule.dayItem? item = some (p, code)) :
    (∀ c ∈ code, Rule.isCapital c = true) ∧ ∃ number, item = number ++ code ∧
      (number = [] ∧ p = none ∨ ∃ n, p = some n ∧ Numeral 2 number n) := by
  unfold Rule.dayItem? at h
  have hparts := List.prefix_iff_eq_append.1
    ((item.dropLast.dropLast_prefix).trans item.dropLast_prefix)
  generalize item.dropLast.dropLast = number at h hparts
  simp only at h
  split at h
  · next hcode =>
    split at h
    · next hnil =>
      cases h
      exact ⟨List.all_eq_true.1 hcode.2, number, hparts.symm, Or.inl ⟨hnil, rfl⟩⟩
    · split at h
      · next hnumber =>
        cases h
        exact ⟨List.all_eq_true.1 hcode.2, number, hparts.symm,
          Or.inr ⟨_, rfl, numeral_iff.2 ⟨hnumber, rfl⟩⟩⟩
      · cases h
  · cases h

/-- Capital letters are neither trimmed nor changed. -/
theorem of_isCapital {code : List Char} (h : ∀ c ∈ code, Rule.isCapital c = true) :
    IsAscii code ∧ trim code = code ∧ code.map Char.toUpper = code := by
  have hrange : ∀ c ∈ code, 65 ≤ c.toNat ∧ c.toNat ≤ 90 := by
    intro c hc
    have hcapital := h c hc
    simp only [Rule.isCapital, Bool.and_eq_true, decide_eq_true_eq, Char.le_def,
      UInt32.le_iff_toNat_le] at hcapital
    exact hcapital
  have hascii : IsAscii code := by
    intro c hc
    have := hrange c hc
    omega
  refine ⟨hascii, trim_eq_self fun c hc => ?_, ?_⟩
  · have := hrange c hc
    simp only [isBlank, Bool.or_eq_false_iff, Bool.and_eq_false_iff, decide_eq_false_iff_not,
      beq_eq_false_iff_ne]
    omega
  · refine (List.map_congr_left fun c hc => ?_).trans (List.map_id code)
    have := hrange c hc
    refine Char.toUpper_eq_of_not_isLower fun hlower => ?_
    simp only [Char.isLower, Bool.and_eq_true, decide_eq_true_eq, UInt32.le_iff_toNat_le,
      ge_iff_le] at hlower
    have hsmall : 97 ≤ c.toNat := hlower.1
    omega

/-- A weekday that is read from capital letters has them as its code. -/
theorem code_of_readWeekday {code : List Char} {d : Weekday}
    (h : ∀ c ∈ code, Rule.isCapital c = true) (hread : Rule.readWeekday code = .ok d) :
    code = d.code.toList := by
  obtain ⟨hascii, htrim, hupper⟩ := of_isCapital h
  have hcode := (readWeekday_eq_ok_iff hascii).1 hread
  rwa [IsInAnyCase, htrim, hupper] at hcode

/-- A position has no letters in it, so upper-casing leaves it alone. -/
theorem Position.map_toUpper_eq_iff {number : List Char} {p : Option Int} (h : Position number p) :
    s.map Char.toUpper = number ↔ s = number := by
  refine Text.map_toUpper_eq_iff ?_
  cases h with
  | absent => exact fun c hc => (by cases hc)
  | present h _ => exact h.isAlpha_eq_false

/-- **The entries that are read.** -/
theorem readDayItem_eq_ok_iff {item : List Char} {d : DayDraft} (h : IsAscii item) :
    Rule.readDayItem item = .ok d ↔ ∃ e, DayItem (trim item) e ∧ d = DayDraft.ofEntry e := by
  constructor
  · intro hread
    unfold Rule.readDayItem at hread
    split at hread
    · cases hread
    · next p code hitem =>
      obtain ⟨day, hday, hread⟩ := bind_eq_ok_iff.1 hread
      obtain ⟨hcapital, number, hparts, hnumber⟩ := of_dayItem? hitem
      rw [h.trim.upper_eq] at hparts
      obtain ⟨number', code', htrim, hnumber', hcode'⟩ := List.map_eq_append_iff.1 hparts
      simp only at hread
      split at hread
      · next e hcheck =>
        cases hread
        -- the draft that was checked has the fields of the entry
        have he := DayDraft.check_eq_ok_iff.1 hcheck
        have hday' : day.code = e.day.code := congrArg DayDraft.day he
        have hposition : p = e.position := congrArg DayDraft.position he
        have hnumeral : Position number e.position := by
          rcases hnumber with ⟨rfl, hp⟩ | ⟨n, hp, hn⟩
          · rw [← hposition, hp]
            exact .absent
          · rw [← hposition, hp]
            exact .present hn (e.valid n (hposition.symm.trans hp))
        refine ⟨e, ⟨number', code', htrim, ?_, ?_⟩, he⟩
        · rwa [hnumeral.map_toUpper_eq_iff.1 hnumber']
        · rw [IsInAnyCase, hcode', ← hday']
          exact code_of_readWeekday hcapital hday
      · cases hread
  · rintro ⟨e, ⟨number, code, hitem, hposition, hcode⟩, rfl⟩
    have hupper : upper (trim item) = number ++ e.day.code.toList := by
      rw [h.trim.upper_eq, hitem, List.map_append, hposition.map_toUpper_eq_iff.2 rfl, hcode]
    have hcheck : DayDraft.check [] { day := e.day.code, position := e.position } = .ok e :=
      DayDraft.check_ofEntry [] e
    rw [Rule.readDayItem, hupper, dayItem?_append hposition]
    refine bind_eq_ok_iff.2 ⟨e.day, Rule.readWeekday_code e.day, ?_⟩
    simp only [hcheck]
    rfl

/-- **The lists of weekdays that are read.** -/
theorem readDays_eq_ok_iff {key value : List Char} {ds : List DayDraft} (h : IsAscii value) :
    Rule.readDays key value = .ok ds ↔
      ∃ es, Lists DayItem value es ∧ ds = es.map DayDraft.ofEntry := by
  have hitems : Rule.listItems value
      = ((splitOn ',' value).filter fun i => trim i ≠ []).map trim := by
    rw [Rule.listItems, List.filter_map]
    rfl
  -- blank items are taken out before the others are trimmed, or after
  have hread : ((splitOn ',' value).filter fun i => trim i ≠ []).mapM Rule.readDayItem = .ok ds ↔
      ∃ es, List.Forall₂ DayItem (Rule.listItems value) es ∧ ds = es.map DayDraft.ofEntry := by
    rw [hitems]
    simp only [List.forall₂_map_left_iff]
    refine mapM_eq_ok_iff fun i hi d => readDayItem_eq_ok_iff ?_
    exact h.of_mem_splitOn (List.mem_of_mem_filter hi)
  constructor
  · intro hok
    obtain ⟨ds', hds, hok⟩ := bind_eq_ok_iff.1 hok
    split at hok
    · cases hok
    · next hne =>
      cases hok
      obtain ⟨es, hes, rfl⟩ := hread.1 hds
      exact ⟨es, ⟨fun hnil => hne (by rw [hnil]; rfl), hes⟩, rfl⟩
  · rintro ⟨es, ⟨hne, hes⟩, rfl⟩
    refine bind_eq_ok_iff.2 ⟨_, hread.2 ⟨es, hes, rfl⟩, ?_⟩
    exact if_neg (by simpa using hne)

end Grammar

end RecurringEvents
