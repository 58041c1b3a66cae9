import RecurringEvents.Moment.Token
import RecurringEvents.Proofs.Text.Written

/-!
# Tokens are read back

The token of a wall time of UTC has sixteen characters if the year has four digits. It is read back
as the same wall time, whatever the zone it is read in, if the second is whole.

* `TimeOfDay.of?_fields`: a time of day is made of its fields.
* `wall?_stem`: the part before the letter Z is read back.
* `read_ofWall`: a token is read back.
* `read_ofWall_of_short`: with a year before 1000 it is too short to be read.
-/

namespace RecurringEvents

/-! ## The fields of a time of day -/

theorem TimeOfDay.hour_range (t : TimeOfDay) : 0 ≤ t.hour ∧ t.hour < 24 := by
  have h1 := t.nonneg
  have h2 : t.micros < 86400000000 := t.lt
  rw [hour]
  omega

theorem TimeOfDay.minute_range (t : TimeOfDay) : 0 ≤ t.minute ∧ t.minute < 60 := by
  rw [minute]
  omega

theorem TimeOfDay.second_range (t : TimeOfDay) : 0 ≤ t.second ∧ t.second < 60 := by
  rw [second]
  omega

/-- A time of day is made of its fields. -/
theorem TimeOfDay.of?_fields (t : TimeOfDay) :
    of? t.hour t.minute t.second t.micro = some t := by
  have hmicro : 0 ≤ t.micro ∧ t.micro < secondMicros := by
    simp only [micro, secondMicros]
    omega
  have hsum : ((t.hour * 60 + t.minute) * 60 + t.second) * 1000000 + t.micro = t.micros := by
    simp only [hour, minute, second, micro, secondMicros]
    omega
  rw [of?, dif_pos ⟨t.hour_range, t.minute_range, t.second_range, hmicro⟩]
  simp only [hsum]

namespace Token

open Text Iso

/-! ## The part before the letter -/

/-- The token of a wall time without its final letter. -/
def stem (w : Wall) : List Char :=
  decimal w.date.year.toNat ++ (padded 2 w.date.month.toNat ++ (padded 2 w.date.day.toNat
    ++ ('T' :: (padded 2 w.time.hour.toNat ++ (padded 2 w.time.minute.toNat
      ++ (padded 2 w.time.second.toNat ++ []))))))

theorem ofWall_eq (w : Wall) : ofWall w = stem w ++ ['Z'] := by
  simp only [ofWall, stem, List.append_assoc, List.cons_append, List.append_nil]

/-- The characters of a token without its final letter. -/
theorem mem_of_mem_stem {w : Wall} {c : Char} (h : c ∈ stem w) : c ∈ 'T' :: numberChars := by
  have of_digit : isDigit c = true → c ∈ 'T' :: numberChars := fun hd =>
    List.mem_cons_of_mem _ (mem_numberChars_of_isDigit hd)
  simp only [stem, List.mem_append, List.mem_cons, List.not_mem_nil, or_false] at h
  rcases h with h | h | h | rfl | h | h | h
  · exact of_digit (isDigit_of_mem_decimal h)
  · exact of_digit (isDigit_of_mem_padded h)
  · exact of_digit (isDigit_of_mem_padded h)
  · exact List.mem_cons_self
  · exact of_digit (isDigit_of_mem_padded h)
  · exact of_digit (isDigit_of_mem_padded h)
  · exact of_digit (isDigit_of_mem_padded h)

/-- A year from 1000 on is written in four digits. -/
theorem length_decimal_year {d : Date} (hy : 1000 ≤ d.year) :
    (decimal d.year.toNat).length = 4 := by
  have hmax := d.valid.2.1
  have hle : (decimal d.year.toNat).length ≤ (decimal 9999).length :=
    length_decimal_mono (by omega)
  have hge : (decimal 1000).length ≤ (decimal d.year.toNat).length :=
    length_decimal_mono (by omega)
  exact Nat.le_antisymm hle hge

/-- All fields but the year are filled up to two digits. -/
theorem length_stem_eq (w : Wall) : (stem w).length = (decimal w.date.year.toNat).length + 11 := by
  obtain ⟨-, -, hm1, hm2, hd1, hd2⟩ := w.date.valid
  have hl := monthLength_le w.date.year w.date.month
  have hhour := w.time.hour_range
  have hminute := w.time.minute_range
  have hsecond := w.time.second_range
  have two : ∀ n : Int, n < 100 → (padded 2 n.toNat).length = 2 := fun n hn =>
    length_padded (length_decimal_le_two (by omega))
  simp only [stem, List.length_append, List.length_cons, List.length_nil]
  rw [two _ (by omega), two _ (by omega), two _ (by omega), two _ (by omega), two _ (by omega)]

theorem length_stem {w : Wall} (hy : 1000 ≤ w.date.year) : (stem w).length = 15 := by
  rw [length_stem_eq, length_decimal_year hy]

/-- A year before 1000 has less than four digits. -/
theorem length_decimal_year_of_short {d : Date} (hy : d.year < 1000) :
    (decimal d.year.toNat).length < 4 := by
  have hle : (decimal d.year.toNat).length ≤ (decimal 999).length :=
    length_decimal_mono (by omega)
  have hthree : (decimal 999).length = 3 := by decide
  omega

theorem length_stem_of_short {w : Wall} (hy : w.date.year < 1000) : (stem w).length < 15 := by
  have hyear := length_decimal_year_of_short hy
  rw [length_stem_eq]
  omega

/-! ## Reading -/

/-- The two digits of a day are read as they are anywhere else. -/
theorem dayField?_eq {a b : Char} (h : ∀ c ∈ [a, b], isDigit c = true) :
    dayField? a b = (digits? 2 [a, b]).map Prod.fst := by
  have ha := h a List.mem_cons_self
  have hb := h b (List.mem_cons_of_mem a List.mem_cons_self)
  have hblank : a ≠ ' ' := by
    rintro rfl
    cases ha
  have hread := digits?_append h []
  rw [List.append_nil] at hread
  have hplaces : Nat.ofDigitChars 10 [a, b] 0
      = (a.toNat - '0'.toNat) * 10 + (b.toNat - '0'.toNat) := by
    simp only [Nat.ofDigitChars, List.foldl_cons, List.foldl_nil]
    omega
  rw [dayField?, if_neg hblank, digit?, if_pos ha, digit?, if_pos hb,
    show digits? 2 [a, b] = _ from hread, hplaces]
  simp

/-- A date in eight digits at the front of a token. -/
theorem date?_padded (d : Date) (s : List Char) :
    date? (padded 4 d.year.toNat ++ (padded 2 d.month.toNat ++ (padded 2 d.day.toNat ++ s)))
      = some (d, s) := by
  obtain ⟨hy1, hy2, hm1, hm2, hd1, hd2⟩ := d.valid
  have hl := monthLength_le d.year d.month
  have hyear := digits?_padded_toNat (n := d.year) (length_decimal_le_four (by omega)) (by omega)
    (padded 2 d.month.toNat ++ (padded 2 d.day.toNat ++ s))
  have hmonth := digits?_padded_toNat (n := d.month) (length_decimal_le_two (by omega)) (by omega)
    (padded 2 d.day.toNat ++ s)
  have hday := digits?_padded_toNat (n := d.day) (length_decimal_le_two (by omega)) (by omega) []
  rw [List.append_nil] at hday
  -- the day takes two characters
  have hlen := length_padded (length_decimal_le_two (n := d.day.toNat) (by omega))
  have hdigit := fun c => isDigit_of_mem_padded (w := 2) (n := d.day.toNat) (c := c)
  generalize padded 2 d.day.toNat = ds at *
  match ds, hlen with
  | [a, b], _ =>
    have hfield := dayField?_eq hdigit
    rw [hday, Option.map_some] at hfield
    rw [date?, hyear]
    simp only [Option.bind_eq_bind, Option.bind_some]
    rw [hmonth]
    simp only [Option.bind_some, List.cons_append, List.nil_append, hfield, Date.of?_fields,
      Option.pure_def]

/-- The same with a year that has four digits of its own. -/
theorem date?_append {d : Date} (hy : 1000 ≤ d.year) (s : List Char) :
    date? (decimal d.year.toNat ++ (padded 2 d.month.toNat ++ (padded 2 d.day.toNat ++ s)))
      = some (d, s) := by
  rw [← padded_eq_decimal (length_decimal_year hy), date?_padded]

/-- A time of day at the end of a token. -/
theorem time?_append {t : TimeOfDay} (ht : t.micro = 0) (s : List Char) :
    time? (padded 2 t.hour.toNat ++ (padded 2 t.minute.toNat ++ (padded 2 t.second.toNat ++ s)))
      = some t := by
  have hfields := t.of?_fields
  rw [ht] at hfields
  have hhour := t.hour_range
  have hminute := t.minute_range
  have hsecond := t.second_range
  rw [time?, digits?_padded_toNat (length_decimal_le_two (by omega)) hhour.1]
  simp only [Option.bind_eq_bind, Option.bind_some]
  rw [digits?_padded_toNat (length_decimal_le_two (by omega)) hminute.1]
  simp only [Option.bind_some]
  rw [digits?_padded_toNat (length_decimal_le_two (by omega)) hsecond.1]
  exact hfields

/-- The part before the letter is read back, as a wall time of the first pass. -/
theorem wall?_stem {w : Wall} (hy : 1000 ≤ w.date.year) (ht : w.time.micro = 0) :
    wall? (stem w) = some { w with pass := .first } := by
  rw [wall?, stem, date?_append hy]
  simp only [Option.bind_eq_bind, Option.bind_some, true_or, if_true, time?_append ht,
    Option.pure_def]

/-- Digits and the letter of a time are in ASCII. -/
theorem not_any_of_chars {s : List Char} (h : ∀ c ∈ s, c ∈ 'T' :: numberChars) :
    ¬(s.any fun c => decide (0x80 ≤ c.toNat)) = true := by
  have hsmall : ∀ c ∈ 'T' :: numberChars, c.toNat < 0x80 := forall_mem_of_all (by decide)
  intro hany
  obtain ⟨c, hc, hbig⟩ := List.any_eq_true.1 hany
  have := hsmall c (h c hc)
  have := of_decide_eq_true hbig
  omega

/-- There is no white space in a token. -/
theorem trim_ofWall (w : Wall) : trim (ofWall w) = ofWall w := by
  have hblank : ∀ c ∈ 'T' :: numberChars, isBlank c = false := forall_mem_of_all (by decide)
  refine trim_eq_self fun c hc => ?_
  rw [ofWall_eq, List.mem_append, List.mem_singleton] at hc
  rcases hc with hc | rfl
  · exact hblank c (mem_of_mem_stem hc)
  · rfl

/-- A token is in UTC. -/
theorem isUtc_stem (w : Wall) : isUtc (stem w ++ ['Z']) = true := by
  simp only [isUtc, List.getLast?_append, List.getLast?_singleton, Option.some_or, decide_true,
    Bool.true_or]

/-- **The token of a wall time of UTC is read back**, with a year of four digits and a whole
second, whatever the zone. -/
theorem read_ofWall {w : Wall} (hy : 1000 ≤ w.date.year) (ht : w.time.micro = 0) (zone : Zone) :
    read (ofWall w) zone = .ok (Moment.ofUtc { w with pass := .first }) := by
  have hascii := not_any_of_chars fun c (hc : c ∈ stem w) => mem_of_mem_stem hc
  -- the letter is taken off, and the rest has the length of a wall time
  have hwall : wallTime (ofWall w) = .ok ({ w with pass := .first }, true) := by
    simp only [wallTime, trim_ofWall]
    rw [ofWall_eq]
    simp only [isUtc_stem, if_true, List.dropLast_concat, if_neg hascii, Bool.not_true, and_false,
      Bool.false_eq_true, if_false, length_stem hy, wall?_stem hy ht]
  rw [read, hwall]
  rfl

/-- **A token with a year of less than four digits is refused.** -/
theorem read_ofWall_of_short {w : Wall} (hy : w.date.year < 1000) (zone : Zone) :
    (ofWall w).length < 16 ∧ read (ofWall w) zone = .error (.malformed (ofWall w)) := by
  have hascii := not_any_of_chars fun c (hc : c ∈ stem w) => mem_of_mem_stem hc
  have hlen := length_stem_of_short hy
  have hwall : wallTime (ofWall w) = .error (.malformed (ofWall w)) := by
    simp only [wallTime, trim_ofWall]
    rw [ofWall_eq]
    simp only [isUtc_stem, if_true, List.dropLast_concat, if_neg hascii, Bool.not_true, and_false,
      Bool.false_eq_true, if_false, if_neg (Nat.ne_of_lt hlen)]
  refine ⟨?_, by rw [read, hwall]; rfl⟩
  rw [ofWall_eq, List.length_append, List.length_singleton]
  omega

end Token

end RecurringEvents
