import RecurringEvents.Proofs.Calendar.Order
import RecurringEvents.Proofs.Moment.ClockText
import RecurringEvents.Proofs.Moment.Forms

/-!
# The forms of a day in ISO 8601 text

A text denotes a date exactly if it is written as `YYYY-MM-DD`, `YYYYMMDD`, `YYYY-Www-D`,
`YYYYWwwD`, `YYYY-Www` or `YYYYWww`. The two forms without dashes that give a day may be followed by
two more bytes. Only the first form is documented; the others have no dash after the year or the
letter of a week after it.

* `Iso.LeadsWith`: what stands at the front of a text.
* `Iso.WritesDay`: the forms that are accepted.
* `Iso.day?_eq_some_iff`: a date is found exactly in these.
* `Iso.dateText_iff`: the documented form among them.
-/

namespace RecurringEvents

namespace Iso

open Text

/-! ## What stands at the front of a text -/

/-- A dash, if there is one. -/
def dashIf (dashed : Bool) : List Char := if dashed then ['-'] else []

/-- A week of a year, with or without a dash before its letter. -/
def weekText (dashed : Bool) (y w : Nat) : List Char :=
  padded 4 y ++ (dashIf dashed ++ 'W' :: padded 2 w)

/-- Whether a date is the day of the week with a number, in the week of a year with a number. The
first week is the one that the fourth of January is in. -/
structure IsDayOfWeek (y w k : Nat) (d : Date) : Prop where
  week : 1 ≤ w ∧ (w : Int) ≤ weeksInYear y
  day : 1 ≤ k ∧ k ≤ 7
  eq : d.dayNumber = firstMonday y + ((w : Int) - 1) * 7 + ((k : Int) - 1)

/-- What is found at the front of a text: a day of a month, a week alone, or a weekday of a week,
all with dashes or all without. -/
inductive LeadsWith : List Char → Date → Prop
  | monthDay (dashed : Bool) (d : Date) (r : List Char) :
      LeadsWith (padded 4 d.year.toNat ++ (dashIf dashed ++ (padded 2 d.month.toNat ++
        (dashIf dashed ++ (padded 2 d.day.toNat ++ r))))) d
  | week (dashed : Bool) {y w : Nat} {d : Date} (year : y < 10000) (number : w < 100)
      (monday : IsDayOfWeek y w 1 d) : LeadsWith (weekText dashed y w) d
  | weekday (dashed : Bool) {y w k : Nat} {d : Date} (r : List Char) (year : y < 10000)
      (number : w < 100) (digit : k < 10) (weekday : IsDayOfWeek y w k d) :
      LeadsWith (weekText dashed y w ++ (dashIf dashed ++ (padded 1 k ++ r))) d

variable {s r : List Char} {d : Date} {c : Char} {y w k : Nat} {n : Int} {b : Bool}

theorem weekDate?_eq_some_iff : weekDate? y w k = some d ↔ IsDayOfWeek y w k d := by
  rw [weekDate?, Option.ite_none_right_eq_some, Date.ofDayNumber?_eq_some_iff]
  constructor
  · rintro ⟨⟨hw1, hw2, hk1, hk2⟩, hd⟩
    exact ⟨⟨by omega, hw2⟩, ⟨by omega, by omega⟩, hd⟩
  · rintro ⟨⟨hw1, hw2⟩, ⟨hk1, hk2⟩, hd⟩
    exact ⟨⟨by omega, hw2, by omega, by omega⟩, hd⟩

theorem expect?_eq_some_iff : expect? b c s = some r ↔ s = (if b then [c] else []) ++ r := by
  cases b with
  | false => simp [expect?]
  | true =>
    cases s with
    | nil => simp [expect?]
    | cons e s => simp [expect?, ite_eq_iff]

theorem expect?_dashIf (b : Bool) (r : List Char) : expect? b '-' (dashIf b ++ r) = some r :=
  expect?_eq_some_iff.2 rfl

/-- A number begins with a digit. -/
theorem head?_padded_append (hc : isDigit c = false) (w k : Nat) (r : List Char) :
    (padded w k ++ r).head? ≠ some c := by
  intro h
  cases hp : padded w k with
  | nil => exact absurd (List.append_eq_nil_iff.1 hp).2 (decimal_ne_nil k)
  | cons e ds =>
    rw [hp, List.cons_append, List.head?_cons, Option.some.injEq] at h
    have hdigit := isDigit_of_mem_padded (hp ▸ List.mem_cons_self : e ∈ padded w k)
    rw [h, hc] at hdigit
    cases hdigit

/-- The dash after the year is seen. -/
theorem head?_dashIf (h : r.head? ≠ some '-') :
    decide ((dashIf b ++ r).head? = some '-') = b := by
  cases b with
  | true => rfl
  | false => exact decide_eq_false h

/-- What stands at the front of a text is found. -/
theorem LeadsWith.found (h : LeadsWith s d) : leadingDay? s = some d := by
  cases h with
  | monthDay dashed _ r =>
    obtain ⟨hy1, -, hm1, -, hd1, -⟩ := d.valid
    have hmonth := head?_padded_append (c := '-') rfl 2 d.month.toNat
      (dashIf dashed ++ (padded 2 d.day.toNat ++ r))
    have hletter := head?_padded_append (c := 'W') rfl 2 d.month.toNat
      (dashIf dashed ++ (padded 2 d.day.toNat ++ r))
    rw [leadingDay?, digits?_padded_toNat (Token.length_decimal_year_le d) (by omega)]
    simp only [Option.bind_eq_bind, Option.bind_some, head?_dashIf hmonth, expect?_dashIf,
      if_neg hletter]
    rw [digits?_padded_toNat (Token.length_decimal_month_le d) (by omega)]
    simp only [Option.bind_some, expect?_dashIf]
    rw [digits?_padded_toNat (Token.length_decimal_day_le d) (by omega)]
    exact Date.of?_fields d
  | @week dashed y w _ hy hw hd =>
    have hyear := digits?_padded_of_lt (w := 4) (by decide) hy (dashIf dashed ++ 'W' :: padded 2 w)
    have hweek := digits?_padded_of_lt (w := 2) (by decide) hw []
    have hmonday : weekDate? y w 1 = some d := weekDate?_eq_some_iff.2 hd
    have hletter : ('W' :: padded 2 w).head? ≠ some '-' := fun h => by cases h
    rw [List.append_nil] at hweek
    rw [weekText, leadingDay?, hyear]
    simp only [Option.bind_eq_bind, Option.bind_some, head?_dashIf hletter, expect?_dashIf,
      List.head?_cons, if_true, List.tail_cons, hweek, List.isEmpty_nil, hmonday]
  | @weekday dashed y w k _ r hy hw hk hd =>
    have hyear := digits?_padded_of_lt (w := 4) (by decide) hy
      (dashIf dashed ++ 'W' :: (padded 2 w ++ (dashIf dashed ++ (padded 1 k ++ r))))
    have hweek := digits?_padded_of_lt (w := 2) (by decide) hw (dashIf dashed ++ (padded 1 k ++ r))
    have hday := digits?_padded_of_lt (w := 1) (by decide) hk r
    have hletter : ('W' :: (padded 2 w ++ (dashIf dashed ++ (padded 1 k ++ r)))).head? ≠ some '-' :=
      fun h => by cases h
    have hmore : ¬(dashIf dashed ++ (padded 1 k ++ r)).isEmpty = true := by
      simp [padded, decimal_ne_nil]
    rw [weekText, List.append_assoc, List.append_assoc, List.cons_append, leadingDay?, hyear]
    simp only [Option.bind_eq_bind, Option.bind_some, head?_dashIf hletter, expect?_dashIf,
      List.head?_cons, if_true, List.tail_cons, hweek, if_neg hmore, hday,
      weekDate?_eq_some_iff.2 hd]

/-- **A date is found at the front of a text exactly if the text begins with one of the forms.** -/
theorem leadingDay?_eq_some_iff : leadingDay? s = some d ↔ LeadsWith s d := by
  refine ⟨fun h => ?_, LeadsWith.found⟩
  obtain ⟨⟨year, r₁⟩, hyear, h₁⟩ := Option.bind_eq_some_iff.1 h
  obtain ⟨y, hy, rfl, rfl⟩ := (digits?_eq_some_iff_lt (by decide)).1 hyear
  obtain ⟨r₂, hdash, h₂⟩ := Option.bind_eq_some_iff.1 h₁
  generalize decide (r₁.head? = some '-') = dashed at hdash h₂
  obtain rfl : r₁ = dashIf dashed ++ r₂ := expect?_eq_some_iff.1 hdash
  split at h₂
  · next hletter =>
    obtain ⟨r₃, rfl⟩ := List.head?_eq_some_iff.1 hletter
    obtain ⟨⟨week, r₄⟩, hweek, h₃⟩ := Option.bind_eq_some_iff.1 h₂
    obtain ⟨w, hw, rfl, hr₃⟩ := (digits?_eq_some_iff_lt (by decide)).1 hweek
    rw [List.tail_cons] at hr₃
    subst hr₃
    by_cases hend : r₄ = []
    · subst hend
      rw [List.append_nil]
      exact .week dashed hy hw (weekDate?_eq_some_iff.1 h₃)
    · dsimp only at h₃
      rw [if_neg (mt List.isEmpty_iff.1 hend)] at h₃
      obtain ⟨r₅, hdash', h₄⟩ := Option.bind_eq_some_iff.1 h₃
      obtain rfl : r₄ = dashIf dashed ++ r₅ := expect?_eq_some_iff.1 hdash'
      obtain ⟨⟨day, r₆⟩, hday, h₅⟩ := Option.bind_eq_some_iff.1 h₄
      obtain ⟨k, hk, rfl, rfl⟩ := (digits?_eq_some_iff_lt (by decide)).1 hday
      have hform := LeadsWith.weekday dashed r₆ hy hw hk (weekDate?_eq_some_iff.1 h₅)
      rwa [weekText, List.append_assoc, List.append_assoc] at hform
  · obtain ⟨⟨month, r₃⟩, hmonth, h₃⟩ := Option.bind_eq_some_iff.1 h₂
    obtain ⟨m, -, rfl, rfl⟩ := (digits?_eq_some_iff_lt (by decide)).1 hmonth
    obtain ⟨r₄, hdash', h₄⟩ := Option.bind_eq_some_iff.1 h₃
    obtain rfl : r₃ = dashIf dashed ++ r₄ := expect?_eq_some_iff.1 hdash'
    obtain ⟨⟨day, r₅⟩, hday, h₅⟩ := Option.bind_eq_some_iff.1 h₄
    obtain ⟨k, -, rfl, rfl⟩ := (digits?_eq_some_iff_lt (by decide)).1 hday
    obtain ⟨hdy, hdm, hdd⟩ := Date.of?_eq_some_iff.1 h₅
    have hform := LeadsWith.monthDay dashed d r₅
    rwa [hdy, hdm, hdd] at hform

/-! ## Lengths in bytes -/

theorem byteLength_append (s t : List Char) :
    byteLength (s ++ t) = byteLength s + byteLength t := by
  rw [byteLength, String.ofList_append, String.utf8ByteSize_append]
  rfl

theorem byteLength_eq_zero_iff : byteLength s = 0 ↔ s = [] := by
  rw [byteLength, String.utf8ByteSize_eq_zero_iff, String.ofList_eq_empty_iff]

theorem byteLength_padded (h : (decimal k).length ≤ w) : byteLength (padded w k) = w := by
  rw [byteLength_eq_length, length_padded h]
  intro c hc
  have hdigit := isDigit_iff.1 (isDigit_of_mem_padded hc)
  omega

theorem byteLength_dashIf (b : Bool) : byteLength (dashIf b) = if b then 1 else 0 := by
  cases b <;> rfl

theorem byteLength_weekText (hy : y < 10000) (hw : w < 100) :
    byteLength (weekText b y w) = 7 + byteLength (dashIf b) := by
  have hletter : byteLength ('W' :: padded 2 w) = 3 := by
    rw [← List.singleton_append, byteLength_append,
      byteLength_padded (length_decimal_le_two hw)]
    rfl
  rw [weekText, byteLength_append, byteLength_append, hletter,
    byteLength_padded (length_decimal_le_four hy)]
  omega

/-! ## The forms of a day -/

/-- What may follow a day without dashes: nothing, or two more bytes. -/
def FillsUp (r : List Char) : Prop := byteLength r = 0 ∨ byteLength r = 2

/-- The texts that are accepted as a date, with the date that they denote. A week alone stands for
its Monday. -/
inductive WritesDay : List Char → Date → Prop
  | dashed (d : Date) : WritesDay (Wall.dateText d) d
  | plain (d : Date) {r : List Char} (rest : FillsUp r) : WritesDay (Token.ofDate d ++ r) d
  | week (dashed : Bool) {y w : Nat} {d : Date} (year : y < 10000) (number : w < 100)
      (monday : IsDayOfWeek y w 1 d) : WritesDay (weekText dashed y w) d
  | dashedWeekday {y w k : Nat} {d : Date} (year : y < 10000) (number : w < 100) (digit : k < 10)
      (weekday : IsDayOfWeek y w k d) : WritesDay (weekText true y w ++ '-' :: padded 1 k) d
  | plainWeekday {y w k : Nat} {d : Date} {r : List Char} (year : y < 10000) (number : w < 100)
      (digit : k < 10) (weekday : IsDayOfWeek y w k d) (rest : FillsUp r) :
      WritesDay (weekText false y w ++ (padded 1 k ++ r)) d

/-- A text that begins with a date and has one of the three lengths denotes the date. -/
theorem LeadsWith.writesDay (h : LeadsWith s d)
    (hlen : byteLength s = 7 ∨ byteLength s = 8 ∨ byteLength s = 10) : WritesDay s d := by
  cases h with
  | monthDay b _ r =>
    simp only [byteLength_append, byteLength_padded (Token.length_decimal_year_le d),
      byteLength_padded (Token.length_decimal_month_le d),
      byteLength_padded (Token.length_decimal_day_le d), byteLength_dashIf] at hlen
    cases b with
    | false =>
      simp only [Bool.false_eq_true, if_false] at hlen
      have hform := WritesDay.plain d (show FillsUp r by unfold FillsUp; omega)
      rwa [Token.ofDate, List.append_assoc, List.append_assoc] at hform
    | true =>
      simp only [if_true] at hlen
      obtain rfl := byteLength_eq_zero_iff.1 (by omega : byteLength r = 0)
      have hform := WritesDay.dashed d
      rw [Wall.dateText, List.append_assoc] at hform
      rwa [List.append_nil]
  | week b hy hw hd => exact .week b hy hw hd
  | @weekday b y w k _ r hy hw hk hd =>
    simp only [byteLength_append, byteLength_weekText hy hw,
      byteLength_padded (length_decimal_le_one hk), byteLength_dashIf] at hlen
    cases b with
    | false =>
      simp only [Bool.false_eq_true, if_false] at hlen
      exact .plainWeekday hy hw hk hd (show FillsUp r by unfold FillsUp; omega)
    | true =>
      simp only [if_true] at hlen
      obtain rfl := byteLength_eq_zero_iff.1 (by omega : byteLength r = 0)
      rw [List.append_nil]
      exact .dashedWeekday hy hw hk hd

/-- **A date is found exactly in the texts that denote it.** -/
theorem day?_eq_some_iff : day? s = some d ↔ WritesDay s d := by
  rw [day?, Option.ite_none_right_eq_some, leadingDay?_eq_some_iff]
  constructor
  · rintro ⟨hlen, h⟩
    exact h.writesDay hlen
  · intro h
    cases h with
    | dashed =>
      have hfound := day?_dateText d
      rwa [day?, Option.ite_none_right_eq_some, leadingDay?_eq_some_iff] at hfound
    | @plain _ r hr =>
      have hform := LeadsWith.monthDay false d r
      constructor
      · simp only [Token.ofDate, byteLength_append,
          byteLength_padded (Token.length_decimal_year_le d),
          byteLength_padded (Token.length_decimal_month_le d),
          byteLength_padded (Token.length_decimal_day_le d)]
        unfold FillsUp at hr
        omega
      · rwa [Token.ofDate, List.append_assoc, List.append_assoc]
    | @week b y w _ hy hw hd =>
      refine ⟨?_, .week b hy hw hd⟩
      rw [byteLength_weekText hy hw, byteLength_dashIf]
      split <;> omega
    | @dashedWeekday y w k _ hy hw hk hd =>
      have hform := LeadsWith.weekday true [] hy hw hk hd
      rw [List.append_nil] at hform
      refine ⟨?_, hform⟩
      rw [byteLength_append, byteLength_weekText hy hw, ← List.singleton_append, byteLength_append,
        byteLength_padded (length_decimal_le_one hk)]
      exact Or.inr (Or.inr rfl)
    | @plainWeekday y w k _ r hy hw hk hd hr =>
      refine ⟨?_, .weekday false r hy hw hk hd⟩
      rw [byteLength_append, byteLength_weekText hy hw, byteLength_append,
        byteLength_padded (length_decimal_le_one hk), byteLength_dashIf]
      unfold FillsUp at hr
      simp only [Bool.false_eq_true, if_false]
      omega

/-- What comes after a year of four digits. -/
theorem getElem?_after_year (d : Date) (r : List Char) :
    (padded 4 d.year.toNat ++ r)[4]? = r.head? := by
  have hlen := length_padded (Token.length_decimal_year_le d)
  rw [List.getElem?_append_right (Nat.le_of_eq hlen), hlen, List.head?_eq_getElem?]

/-- **The documented form is the accepted one that has a dash after the year and is no week.** -/
theorem dateText_iff : s = Wall.dateText d ↔ WritesDay s d ∧ s[4]? = some '-' ∧ 'W' ∉ s := by
  constructor
  · rintro rfl
    refine ⟨.dashed d, ?_, fun h => absurd (Wall.mem_textChars_of_dateText h) (by decide)⟩
    rw [Wall.dateText, List.append_assoc, getElem?_after_year]
    rfl
  · rintro ⟨h, hdash, hweek⟩
    cases h with
    | dashed => rfl
    | plain =>
      rw [Token.ofDate, List.append_assoc, getElem?_after_year, List.append_assoc] at hdash
      exact absurd hdash (head?_padded_append rfl _ _ _)
    | week => simp [weekText] at hweek
    | dashedWeekday => simp [weekText] at hweek
    | plainWeekday => simp [weekText] at hweek

end Iso

end RecurringEvents
