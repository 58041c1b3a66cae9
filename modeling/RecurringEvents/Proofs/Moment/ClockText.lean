import Mathlib.Data.List.TakeWhile
import RecurringEvents.Iso.Clock
import RecurringEvents.Proofs.Moment.Token

/-!
# Dates and minutes are read back

The text of a date, with a year of four digits, and the text of a time of day, to the minute, are
read back as the date and the time. There is no white space in them. A date whose year has fewer
digits is not read.

* `Iso.day?_dateText`: dates.
* `Iso.clock?_minuteText`: times of day on a whole minute.
* `Wall.clockDate`, `Iso.day?_clockDate_of_short`: dates that are written without leading zeros.
-/

namespace RecurringEvents

open Text

/-- Whether a time of day is on a whole minute. -/
def TimeOfDay.IsWholeMinute (t : TimeOfDay) : Prop := t.second = 0 ∧ t.micro = 0

instance (t : TimeOfDay) : Decidable t.IsWholeMinute := inferInstanceAs (Decidable (_ ∧ _))

namespace Wall

/-- The characters of dates and minutes. -/
def textChars : List Char := ':' :: numberChars

theorem mem_textChars_of_mem_padded {w n : Nat} {c : Char} (h : c ∈ padded w n) : c ∈ textChars :=
  List.mem_cons_of_mem _ (mem_numberChars_of_isDigit (isDigit_of_mem_padded h))

theorem mem_textChars_of_dateText {d : Date} {c : Char} (h : c ∈ dateText d) : c ∈ textChars := by
  simp only [dateText, List.mem_append, List.mem_cons] at h
  rcases h with (h | rfl | h) | rfl | h
  · exact mem_textChars_of_mem_padded h
  · decide
  · exact mem_textChars_of_mem_padded h
  · decide
  · exact mem_textChars_of_mem_padded h

theorem mem_textChars_of_minuteText {t : TimeOfDay} {c : Char} (h : c ∈ minuteText t) :
    c ∈ textChars := by
  simp only [minuteText, List.mem_append, List.mem_cons] at h
  rcases h with h | rfl | h
  · exact mem_textChars_of_mem_padded h
  · decide
  · exact mem_textChars_of_mem_padded h

/-- There is no white space in a date or a minute. -/
theorem trim_of_textChars {s : List Char} (h : ∀ c ∈ s, c ∈ textChars) : trim s = s := by
  have hblank : ∀ c ∈ textChars, isBlank c = false := forall_mem_of_all (by decide)
  exact trim_eq_self fun c hc => hblank c (h c hc)

end Wall

namespace Iso

/-! ## Dates -/

/-- ASCII text has as many bytes as characters. -/
theorem byteLength_eq_length {s : List Char} (h : ∀ c ∈ s, c.toNat < 0x80) :
    byteLength s = s.length := by
  induction s with
  | nil => rfl
  | cons c s ih =>
    rw [List.forall_mem_cons] at h
    obtain ⟨hc, hs⟩ := h
    have hsize : c.utf8Size = 1 := by
      rw [Char.utf8Size_eq_one_iff, UInt32.le_iff_toNat_le]
      exact Nat.le_of_lt_succ hc
    rw [byteLength, String.ofList_cons, String.utf8ByteSize_append, String.utf8ByteSize_singleton,
      hsize, ← byteLength, ih hs, List.length_cons, Nat.add_comm]

theorem length_dateText (d : Date) : (Wall.dateText d).length = 10 := by
  obtain ⟨-, hy, -, hm, -, hd⟩ := d.valid
  have hl := monthLength_le d.year d.month
  simp only [Wall.dateText, List.length_append, List.length_cons]
  rw [length_padded (length_decimal_le_four (by omega)),
    length_padded (length_decimal_le_two (by omega)),
    length_padded (length_decimal_le_two (by omega))]

/-- **A date is read back from its text.** -/
theorem day?_dateText (d : Date) : day? (Wall.dateText d) = some d := by
  obtain ⟨hy1, hy2, hm1, hm2, hd1, hd2⟩ := d.valid
  have hl := monthLength_le d.year d.month
  have hsmall : ∀ c ∈ Wall.textChars, c.toNat < 0x80 := forall_mem_of_all (by decide)
  have hlength : byteLength (Wall.dateText d) = 10 := by
    rw [byteLength_eq_length fun c hc => hsmall c (Wall.mem_textChars_of_dateText hc),
      length_dateText]
  have hyear := digits?_padded_toNat (n := d.year) (length_decimal_le_four (by omega)) (by omega)
    ('-' :: (padded 2 d.month.toNat ++ '-' :: padded 2 d.day.toNat))
  have hmonth := digits?_padded_toNat (n := d.month) (length_decimal_le_two (by omega)) (by omega)
    ('-' :: padded 2 d.day.toNat)
  have hday := digits?_padded_toNat (n := d.day) (length_decimal_le_two (by omega)) (by omega) []
  rw [List.append_nil] at hday
  -- after the year comes a month and not the letter of a week
  have hweek : (padded 2 d.month.toNat ++ '-' :: padded 2 d.day.toNat).head? ≠ some 'W' := by
    intro h
    have hmem : 'W' ∈ Wall.dateText d := by
      rw [Wall.dateText, List.append_assoc]
      exact List.mem_append_right _ (List.mem_cons_of_mem _ (List.mem_of_head? h))
    exact absurd (Wall.mem_textChars_of_dateText hmem) (by decide)
  rw [day?, if_pos (Or.inr (Or.inr hlength)), leadingDay?, Wall.dateText, List.append_assoc,
    List.cons_append, hyear]
  simp only [Option.bind_eq_bind, Option.bind_some, List.head?_cons, decide_true, expect?, if_true,
    if_neg hweek, hmonth, hday, Date.of?_fields]

/-! ## Times of day -/

/-- Two digits follow the colon, and nothing follows them. -/
theorem clockFields?_minuteText (t : TimeOfDay) :
    clockFields? (Wall.minuteText t) = some { hour := t.hour, minute := t.minute } := by
  have hhour := t.hour_range
  have hminute := t.minute_range
  have hread := digits?_padded_toNat (n := t.minute) (length_decimal_le_two (by omega)) hminute.1 []
  rw [List.append_nil] at hread
  have hlength := length_padded (length_decimal_le_two (n := t.minute.toNat) (by omega))
  have hafter : afterField (':' :: padded 2 t.minute.toNat)
      = .more ':' (padded 2 t.minute.toNat) := by
    generalize padded 2 t.minute.toNat = ds at hlength
    match ds, hlength with
    | [a, b], _ => rfl
  rw [clockFields?, Wall.minuteText,
    digits?_padded_toNat (length_decimal_le_two (by omega)) hhour.1]
  simp only [Option.bind_eq_bind, Option.bind_some, hafter, if_true, readMinute?, hread]
  rfl

/-- Neither an offset nor the letter of a time is in the text of a minute. -/
theorem isOffsetMark_eq_false_of_minuteText {t : TimeOfDay} {c : Char}
    (h : c ∈ Wall.minuteText t) : isOffsetMark c = false ∧ c ≠ 'T' := by
  have hdigit : ∀ c, isDigit c = true → isOffsetMark c = false ∧ c ≠ 'T' := by
    intro c hc
    have hne : ∀ d, isDigit d = false → c ≠ d := by
      rintro d hd rfl
      rw [hc] at hd
      cases hd
    simp [isOffsetMark, hne '+' rfl, hne '-' rfl, hne 'Z' rfl, hne 'T' rfl]
  simp only [Wall.minuteText, List.mem_append, List.mem_cons] at h
  rcases h with h | rfl | h
  · exact hdigit c (isDigit_of_mem_padded h)
  · decide
  · exact hdigit c (isDigit_of_mem_padded h)

/-- **A time of day on a whole minute is read back from its text.** -/
theorem clock?_minuteText {t : TimeOfDay} (ht : t.IsWholeMinute) :
    clock? (Wall.minuteText t) = some t := by
  have hfields := t.of?_fields
  rw [ht.1, ht.2] at hfields
  have hbody : (Wall.minuteText t).takeWhile (fun c => !isOffsetMark c) = Wall.minuteText t := by
    refine List.takeWhile_eq_self_iff.2 fun c hc => ?_
    rw [(isOffsetMark_eq_false_of_minuteText hc).1, Bool.not_false]
  rw [clock?]
  · simp only [hbody, clockFields?_minuteText, Option.bind_eq_bind, Option.bind_some,
      List.drop_length, List.isEmpty_nil, if_true, Bool.not_false, hfields]
  · intro r heq
    have hmem : 'T' ∈ Wall.minuteText t := heq ▸ List.mem_cons_self
    exact (isOffsetMark_eq_false_of_minuteText hmem).2 rfl

end Iso

/-! ## Dates without leading zeros -/

namespace Wall

/-- The date as a wall clock is written: the year has no leading zeros. -/
def clockDate (d : Date) : List Char :=
  decimal d.year.toNat ++ '-' :: padded 2 d.month.toNat ++ '-' :: padded 2 d.day.toNat

/-- Only zeros are missing before the year. -/
theorem dateText_eq_append (d : Date) :
    dateText d = List.replicate (4 - (decimal d.year.toNat).length) '0' ++ clockDate d := by
  simp only [clockDate, dateText, padded, List.append_assoc]

/-- None is missing before a year of four digits. -/
theorem clockDate_of_le {d : Date} (hy : 1000 ≤ d.year) : clockDate d = dateText d := by
  rw [dateText_eq_append, Token.length_decimal_year hy]
  rfl

/-- With an earlier year the date is shorter. -/
theorem length_clockDate_of_short {d : Date} (hy : d.year < 1000) : (clockDate d).length < 10 := by
  have hyear := Token.length_decimal_year_of_short hy
  have hfull := Iso.length_dateText d
  rw [dateText_eq_append, List.length_append, List.length_replicate] at hfull
  omega

theorem trim_clockDate (d : Date) : trim (clockDate d) = clockDate d := by
  refine trim_of_textChars fun c hc => mem_textChars_of_dateText (d := d) ?_
  rw [dateText_eq_append]
  exact List.mem_append_right _ hc

end Wall

namespace Iso

/-- Without four digits at the front there is no date. -/
theorem day?_clockDate_of_short {d : Date} (hy : d.year < 1000) :
    day? (Wall.clockDate d) = none := by
  have hyear := Token.length_decimal_year_of_short hy
  have hnot : digits? 4 (Wall.clockDate d) = none := by
    refine if_neg fun h => ?_
    -- the dash after the year is among the first four characters
    have hdash : '-' ∈ (Wall.clockDate d).take 4 := by
      rw [Wall.clockDate, List.append_assoc, List.take_append, List.cons_append,
        List.take_cons (by omega)]
      exact List.mem_append_right _ List.mem_cons_self
    exact absurd (List.all_eq_true.1 h.2 '-' hdash) (by decide)
  rw [day?, leadingDay?, hnot]
  exact ite_self none

end Iso

end RecurringEvents
