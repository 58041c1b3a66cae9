import RecurringEvents.Proofs.Expansion.Universal
import RecurringEvents.Proofs.Moment.Floating
import RecurringEvents.Proofs.Text.Width

/-!
# The forms of a date token

A token is read exactly if it is, after trimming, a date in eight characters, or a date, the letter
T and a time of day in six digits, with or without a final Z, in letters of either case. The digits
have to denote a date and a time of day, and without the Z the zone has to have them in the years 1
to 9999.

A date is eight digits, except that a day from 1 to 9 may be a blank and a digit. This is the only
form beside those that are documented.

* `Writes`: what a token writes, without the zone.
* `wallTime_eq_ok_iff`: the wall time that is found is the one that is written.
* `read_iff_writes`: what comes of every token, and that only a blank makes a difference.
-/

namespace RecurringEvents

open Text Iso

/-- A time of day is found exactly if it has the given fields. -/
theorem TimeOfDay.of?_eq_some_iff {hour minute second micro : Int} {t : TimeOfDay} :
    of? hour minute second micro = some t ↔
      t.hour = hour ∧ t.minute = minute ∧ t.second = second ∧ t.micro = micro := by
  constructor
  · intro h
    unfold of? at h
    split at h
    · next hrange =>
      cases h
      simp only [TimeOfDay.hour, TimeOfDay.minute, TimeOfDay.second, TimeOfDay.micro,
        secondMicros] at hrange ⊢
      omega
    · cases h
  · rintro ⟨rfl, rfl, rfl, rfl⟩
    exact t.of?_fields

namespace Token

/-! ## What is written -/

/-- A day in two digits, as it is documented. -/
def TwoDigits (n : Int) (s : List Char) : Prop := s = padded 2 n.toNat

/-- A day as it is accepted: in two digits, or a blank and a digit. -/
inductive DayText (n : Int) : List Char → Prop
  | digits : DayText n (padded 2 n.toNat)
  | blank (small : n < 10) : DayText n (' ' :: padded 1 n.toNat)

/-- The year in four digits and the month in two. -/
def yearMonth (d : Date) : List Char := padded 4 d.year.toNat ++ padded 2 d.month.toNat

/-- What a trimmed token writes, if `day` says how the day of a date is written: the first moment of
a date, or a date and a time of day on a whole second, with or without a final Z for UTC. -/
inductive Writes (day : Int → List Char → Prop) : List Char → Wall → Bool → Prop
  | date {d : Date} {s : List Char} (written : day d.day s) :
      Writes day (yearMonth d ++ s) ⟨d, .midnight, .first⟩ false
  | time {d : Date} {s : List Char} {t : TimeOfDay} {c : Char} (written : day d.day s)
      (whole : t.micro = 0) (letter : c = 'T' ∨ c = 't') :
      Writes day (yearMonth d ++ (s ++ c :: ofTime t)) ⟨d, t, .first⟩ false
  | utc {d : Date} {s : List Char} {t : TimeOfDay} {b c : Char} (written : day d.day s)
      (whole : t.micro = 0) (letter : c = 'T' ∨ c = 't') (last : b = 'Z' ∨ b = 'z') :
      Writes day (yearMonth d ++ (s ++ c :: ofTime t) ++ [b]) ⟨d, t, .first⟩ true

variable {token s r : List Char} {d : Date} {t : TimeOfDay} {w : Wall} {utc : Bool} {n : Int}
  {a b c : Char} {zone : Zone} {m : Moment}

/-! ## The fields of a token -/

theorem length_decimal_year_le (d : Date) : (decimal d.year.toNat).length ≤ 4 := by
  have := d.valid.2.1
  exact length_decimal_le_four (by omega)

theorem length_decimal_month_le (d : Date) : (decimal d.month.toNat).length ≤ 2 := by
  have := d.valid.2.2.2.1
  exact length_decimal_le_two (by omega)

theorem length_decimal_day_le (d : Date) : (decimal d.day.toNat).length ≤ 2 := by
  have := d.valid.2.2.2.2.2
  have := monthLength_le d.year d.month
  exact length_decimal_le_two (by omega)

theorem length_yearMonth (d : Date) : (yearMonth d).length = 6 := by
  rw [yearMonth, List.length_append, length_padded (length_decimal_year_le d),
    length_padded (length_decimal_month_le d)]

theorem DayText.length (h : DayText d.day s) : s.length = 2 := by
  cases h with
  | digits => exact length_padded (length_decimal_day_le d)
  | blank hsmall =>
    rw [List.length_cons, length_padded (length_decimal_le_one (by omega))]

/-- A number of one digit is less than ten. -/
theorem toNat_lt_ten (h : [b] = padded 1 n.toNat) : n < 10 := by
  refine Int.not_le.1 fun hn => ?_
  have htwo : (decimal 10).length ≤ (decimal n.toNat).length := length_decimal_mono (by omega)
  have hlen := congrArg List.length h
  have hten : (decimal 10).length = 2 := by decide
  rw [padded, List.length_append, List.length_replicate, List.length_singleton] at hlen
  omega

/-- A day of two characters that begins with a blank goes on with a digit. -/
theorem dayText_blank_iff : DayText n [' ', b] ↔ [b] = padded 1 n.toNat := by
  constructor
  · intro h
    generalize hs : [' ', b] = s at h
    cases h with
    | digits =>
      have hdigit : isDigit ' ' = true :=
        isDigit_of_mem_padded (w := 2) (n := n.toNat) (hs ▸ List.mem_cons_self)
      cases hdigit
    | blank => exact List.tail_eq_of_cons_eq hs
  · intro h
    rw [h]
    exact .blank (toNat_lt_ten h)

/-- Another day of two characters has two digits. -/
theorem dayText_iff_of_ne (ha : a ≠ ' ') : DayText n [a, b] ↔ [a, b] = padded 2 n.toNat := by
  constructor
  · intro h
    generalize hs : [a, b] = s at h
    cases h with
    | digits => rfl
    | blank => exact absurd (List.head_eq_of_cons_eq hs) ha
  · intro h
    rw [h]
    exact .digits

/-- A digit by itself is a number of one digit. -/
theorem digit?_eq (c : Char) : digit? c = (digits? 1 [c]).map Prod.fst := by
  by_cases hc : isDigit c = true
  · simp [digit?, digits?, hc, Nat.ofDigitChars]
  · simp [digit?, digits?, hc]

/-- A day that does not begin with a blank is a number of two digits. -/
theorem dayField?_of_ne (ha : a ≠ ' ') : dayField? a b = (digits? 2 [a, b]).map Prod.fst := by
  by_cases hdigits : ∀ c ∈ [a, b], isDigit c = true
  · exact dayField?_eq hdigits
  · have hnone : digits? 2 [a, b] = none := if_neg fun h => hdigits (List.all_eq_true.1 h.2)
    rw [hnone, dayField?, if_neg ha]
    by_cases hda : isDigit a = true
    · have hdb : ¬isDigit b = true := fun hb => hdigits (by simp [hda, hb])
      simp [digit?, hda, hdb]
    · simp [digit?, hda]

/-- The two characters of a day are read as the day that they write. -/
theorem dayField?_eq_some_iff : dayField? a b = some d.day ↔ DayText d.day [a, b] := by
  have hpos : 1 ≤ d.day := d.valid.2.2.2.2.1
  by_cases ha : a = ' '
  · subst ha
    rw [dayField?, if_pos rfl, Option.filter_eq_some_iff, digit?_eq, dayText_blank_iff,
      map_digits?_eq_some_iff Nat.one_pos rfl, decide_eq_true_eq]
    exact ⟨fun h => h.1.2, fun h => ⟨⟨by omega, h⟩, hpos⟩⟩
  · rw [dayField?_of_ne ha, dayText_iff_of_ne ha, map_digits?_eq_some_iff Nat.two_pos rfl]
    exact ⟨fun h => h.2, fun h => ⟨by omega, h⟩⟩

/-- **A date is found at the front of a text exactly if the text begins with it.** -/
theorem date?_eq_some_iff :
    date? s = some (d, r) ↔ ∃ x, DayText d.day x ∧ s = yearMonth d ++ (x ++ r) := by
  obtain ⟨hy, -, hm, -⟩ := d.valid
  constructor
  · intro h
    obtain ⟨⟨year, s₁⟩, hyear, h₁⟩ := Option.bind_eq_some_iff.1 h
    obtain ⟨⟨month, s₂⟩, hmonth, h₂⟩ := Option.bind_eq_some_iff.1 h₁
    obtain ⟨-, -, rfl⟩ := (digits?_eq_some_iff (by decide)).1 hyear
    obtain ⟨-, -, rfl⟩ := (digits?_eq_some_iff (by decide)).1 hmonth
    match s₂, h₂ with
    | a :: b :: s₃, h₂ =>
      obtain ⟨day, hday, h₃⟩ := Option.bind_eq_some_iff.1 h₂
      obtain ⟨d', hd', h₄⟩ := Option.bind_eq_some_iff.1 h₃
      cases h₄
      obtain ⟨rfl, rfl, rfl⟩ := Date.of?_eq_some_iff.1 hd'
      refine ⟨[a, b], dayField?_eq_some_iff.1 hday, ?_⟩
      rw [yearMonth, List.append_assoc]
      rfl
  · rintro ⟨x, hx, rfl⟩
    match x, hx.length with
    | [a, b], _ =>
      rw [date?, yearMonth, List.append_assoc,
        digits?_padded_toNat (length_decimal_year_le d) (by omega)]
      simp only [Option.bind_eq_bind, Option.bind_some]
      rw [digits?_padded_toNat (length_decimal_month_le d) (by omega)]
      simp only [Option.bind_some, List.cons_append, List.nil_append, dayField?_eq_some_iff.2 hx,
        Date.of?_fields, Option.pure_def]

/-- **A time of day is found at the front of a text exactly if the text begins with it.** -/
theorem time?_eq_some_iff : time? s = some t ↔ t.micro = 0 ∧ ∃ r, s = ofTime t ++ r := by
  constructor
  · intro h
    obtain ⟨⟨hour, s₁⟩, hhour, h₁⟩ := Option.bind_eq_some_iff.1 h
    obtain ⟨⟨minute, s₂⟩, hminute, h₂⟩ := Option.bind_eq_some_iff.1 h₁
    obtain ⟨⟨second, s₃⟩, hsecond, h₃⟩ := Option.bind_eq_some_iff.1 h₂
    obtain ⟨-, -, rfl⟩ := (digits?_eq_some_iff (by decide)).1 hhour
    obtain ⟨-, -, rfl⟩ := (digits?_eq_some_iff (by decide)).1 hminute
    obtain ⟨-, -, rfl⟩ := (digits?_eq_some_iff (by decide)).1 hsecond
    obtain ⟨rfl, rfl, rfl, hmicro⟩ := TimeOfDay.of?_eq_some_iff.1 h₃
    refine ⟨hmicro, s₃, ?_⟩
    simp only [ofTime, List.append_assoc]
  · rintro ⟨hmicro, r, rfl⟩
    simp only [ofTime, List.append_assoc]
    exact time?_append hmicro r

/-- A date and a time of day with the letter T between them are found as they are. -/
theorem wall?_of_time (hday : DayText d.day s) (hc : c = 'T' ∨ c = 't') (ht : t.micro = 0) :
    wall? (yearMonth d ++ (s ++ c :: ofTime t)) = some ⟨d, t, .first⟩ := by
  rw [wall?, date?_eq_some_iff.2 ⟨s, hday, rfl⟩]
  simp only [Option.bind_eq_bind, Option.bind_some, if_pos hc,
    time?_eq_some_iff.2 ⟨ht, [], (List.append_nil _).symm⟩, Option.pure_def]

theorem length_of_time (hday : DayText d.day s) :
    (yearMonth d ++ (s ++ c :: ofTime t)).length = 15 := by
  simp only [List.length_append, List.length_cons, length_yearMonth, hday.length, length_ofTime]

/-- In fifteen characters nothing else is found. -/
theorem exists_time_of_wall? (hs : s.length = 15) (h : wall? s = some w) :
    ∃ x c, DayText w.date.day x ∧ (c = 'T' ∨ c = 't') ∧ w.time.micro = 0 ∧ w.pass = .first ∧
      s = yearMonth w.date ++ (x ++ c :: ofTime w.time) := by
  obtain ⟨⟨d, rest⟩, hdate, h₁⟩ := Option.bind_eq_some_iff.1 h
  obtain ⟨x, hx, rfl⟩ := date?_eq_some_iff.1 hdate
  cases rest with
  | nil => cases h₁
  | cons c rest =>
    simp only at h₁
    split at h₁
    · next hc =>
      obtain ⟨t, ht, h₂⟩ := Option.bind_eq_some_iff.1 h₁
      cases h₂
      obtain ⟨hmicro, r, rfl⟩ := time?_eq_some_iff.1 ht
      simp only [List.length_append, List.length_cons, length_yearMonth, hx.length,
        length_ofTime] at hs
      obtain rfl := List.eq_nil_of_length_eq_zero (by omega : r.length = 0)
      exact ⟨x, c, hx, hc, hmicro, rfl, by rw [List.append_nil]⟩
    · cases h₁

/-- In eight characters nothing but a date is found. -/
theorem exists_day_of_date? (hs : s.length = 8) (h : date? s = some (d, r)) :
    ∃ x, DayText d.day x ∧ s = yearMonth d ++ x := by
  obtain ⟨x, hx, rfl⟩ := date?_eq_some_iff.1 h
  simp only [List.length_append, length_yearMonth, hx.length] at hs
  obtain rfl := List.eq_nil_of_length_eq_zero (by omega : r.length = 0)
  exact ⟨x, hx, by rw [List.append_nil]⟩

/-! ## The characters of a token -/

/-- The characters before the final letter. -/
def bodyChars : List Char := ' ' :: 't' :: 'T' :: numberChars

theorem mem_bodyChars_of_isDigit (h : isDigit c = true) : c ∈ bodyChars :=
  List.mem_cons_of_mem _ (List.mem_cons_of_mem _ (List.mem_cons_of_mem _
    (mem_numberChars_of_isDigit h)))

theorem isDigit_of_mem_yearMonth (h : c ∈ yearMonth d) : isDigit c = true :=
  (List.mem_append.1 h).elim isDigit_of_mem_padded isDigit_of_mem_padded

theorem DayText.mem_bodyChars (h : DayText n s) (hc : c ∈ s) : c ∈ bodyChars := by
  cases h with
  | digits => exact mem_bodyChars_of_isDigit (isDigit_of_mem_padded hc)
  | blank =>
    rcases List.mem_cons.1 hc with rfl | hc
    · exact List.mem_cons_self
    · exact mem_bodyChars_of_isDigit (isDigit_of_mem_padded hc)

/-- The characters of a date. -/
theorem mem_bodyChars_of_date (hday : DayText n s) (h : c ∈ yearMonth d ++ s) : c ∈ bodyChars :=
  (List.mem_append.1 h).elim (fun hc => mem_bodyChars_of_isDigit (isDigit_of_mem_yearMonth hc))
    hday.mem_bodyChars

/-- The characters of a date and a time of day. -/
theorem mem_bodyChars_of_time (hday : DayText n s) (hc : c = 'T' ∨ c = 't')
    (h : a ∈ yearMonth d ++ (s ++ c :: ofTime t)) : a ∈ bodyChars := by
  rw [← List.append_assoc, List.mem_append, List.mem_cons] at h
  rcases h with h | rfl | h
  · exact mem_bodyChars_of_date hday h
  · rcases hc with rfl | rfl
    · decide
    · decide
  · exact mem_bodyChars_of_isDigit (isDigit_of_mem_ofTime h)

theorem isUtc_append (s : List Char) (b : Char) : isUtc (s ++ [b]) = true ↔ b = 'Z' ∨ b = 'z' := by
  simp [isUtc]

/-- Without the letter a token is in no zone. -/
theorem isUtc_of_bodyChars (h : ∀ c ∈ s, c ∈ bodyChars) : isUtc s = false := by
  have hletter : ∀ c ∈ bodyChars, c ≠ 'Z' ∧ c ≠ 'z' := forall_mem_of_all (by decide)
  rcases List.eq_nil_or_concat s with rfl | ⟨s, b, rfl⟩
  · rfl
  · rw [List.concat_eq_append] at h ⊢
    obtain ⟨hZ, hz⟩ := hletter b (h b (List.mem_append_right s List.mem_cons_self))
    rw [Bool.eq_false_iff, ne_eq, isUtc_append]
    exact not_or.2 ⟨hZ, hz⟩

theorem toNat_lt_of_mem_bodyChars : ∀ c ∈ bodyChars, c.toNat < 0x80 := forall_mem_of_all (by decide)

theorem ascii_of_bodyChars (h : ∀ c ∈ s, c ∈ bodyChars) :
    ¬(s.any fun c => decide (0x80 ≤ c.toNat)) = true := by
  rw [List.any_eq_true]
  rintro ⟨c, hc, hbig⟩
  exact Nat.not_le.2 (toNat_lt_of_mem_bodyChars c (h c hc)) (of_decide_eq_true hbig)

/-! ## What is found -/

/-- A token without its final letter Z, if it has one. -/
def body (s : List Char) : List Char := if isUtc s then s.dropLast else s

theorem body_append (hb : b = 'Z' ∨ b = 'z') (s : List Char) : body (s ++ [b]) = s := by
  rw [body, (isUtc_append s b).2 hb, if_pos rfl, List.dropLast_concat]

theorem body_of_bodyChars (h : ∀ c ∈ s, c ∈ bodyChars) : body s = s := by
  rw [body, isUtc_of_bodyChars h]
  rfl

theorem body_of_not_utc (h : isUtc s = false) : body s = s := by
  rw [body, h]
  rfl

theorem exists_append_of_utc (h : isUtc s = true) :
    ∃ b, (b = 'Z' ∨ b = 'z') ∧ s = body s ++ [b] := by
  rcases List.eq_nil_or_concat s with rfl | ⟨s, b, rfl⟩
  · cases h
  · rw [List.concat_eq_append] at h ⊢
    have hb := (isUtc_append s b).1 h
    exact ⟨b, hb, by rw [body_append hb]⟩

/-- A wall time is found in the part before the letter if that part is in ASCII and has one of the
two lengths, of which the shorter one goes without the letter. -/
theorem wallTime_eq_ok_iff_body : wallTime token = .ok (w, utc) ↔
    utc = isUtc (trim token) ∧
      ¬((body (trim token)).any fun c => decide (0x80 ≤ c.toNat)) = true ∧
      ((body (trim token)).length = 8 ∧ utc = false ∧
          (date? (body (trim token))).map (fun d => ⟨d.1, .midnight, .first⟩) = some w ∨
        (body (trim token)).length = 15 ∧ wall? (body (trim token)) = some w) := by
  have hbody : (if isUtc (trim token) = true then (trim token).dropLast else trim token)
      = body (trim token) := rfl
  simp only [wallTime, hbody]
  generalize body (trim token) = s
  by_cases hascii : (s.any fun c => decide (0x80 ≤ c.toNat)) = true
  · simp [hascii]
  · rw [if_neg hascii]
    by_cases hdate : s.length = 8 ∧ (!isUtc (trim token)) = true
    · obtain ⟨hlen, hutc⟩ := hdate
      rw [Bool.not_eq_true'] at hutc
      rw [hutc, if_pos ⟨hlen, rfl⟩, hlen]
      cases hd : date? s with
      | none => simp
      | some d => simp [hascii, and_comm]
    · rw [if_neg hdate]
      by_cases hlen : s.length = 15
      · rw [if_pos hlen]
        cases hw : wall? s with
        | none => simp [hlen]
        | some v => simp [hascii, hlen, and_comm, eq_comm]
      · rw [if_neg hlen]
        refine iff_of_false (fun h => by cases h) ?_
        rintro ⟨rfl, -, ⟨height, hutc, -⟩ | ⟨hfifteen, -⟩⟩
        · exact hdate ⟨height, by rw [hutc]; rfl⟩
        · exact hlen hfifteen

/-- **The wall time that is found in a token is the one that it writes.** -/
theorem wallTime_eq_ok_iff : wallTime token = .ok (w, utc) ↔ Writes DayText (trim token) w utc := by
  rw [wallTime_eq_ok_iff_body]
  generalize trim token = s
  constructor
  · rintro ⟨rfl, -, ⟨hlen, hutc, hdate⟩ | ⟨hlen, hwall⟩⟩
    · rw [body_of_not_utc hutc] at hlen hdate
      obtain ⟨⟨d, r⟩, hd, rfl⟩ := Option.map_eq_some_iff.1 hdate
      obtain ⟨x, hx, rfl⟩ := exists_day_of_date? hlen hd
      rw [hutc]
      exact .date hx
    · obtain ⟨x, c, hx, hc, ht, hpass, hs⟩ := exists_time_of_wall? hlen hwall
      obtain ⟨d, t, pass⟩ := w
      cases hpass
      cases hutc : isUtc s with
      | false =>
        rw [body_of_not_utc hutc] at hs
        rw [hs]
        exact .time hx ht hc
      | true =>
        obtain ⟨b, hb, happend⟩ := exists_append_of_utc hutc
        rw [happend, hs]
        exact .utc hx ht hc hb
  · intro h
    cases h with
    | @date d x hday =>
      have hchars := fun c (hc : c ∈ yearMonth d ++ x) => mem_bodyChars_of_date hday hc
      have hlen : (yearMonth d ++ x).length = 8 := by
        rw [List.length_append, length_yearMonth, hday.length]
      have hdate : date? (yearMonth d ++ x) = some (d, []) :=
        date?_eq_some_iff.2 ⟨x, hday, by rw [List.append_nil]⟩
      rw [isUtc_of_bodyChars hchars, body_of_bodyChars hchars, hdate]
      exact ⟨rfl, ascii_of_bodyChars hchars, Or.inl ⟨hlen, rfl, rfl⟩⟩
    | @time d x t c hday ht hc =>
      have hchars := fun a (ha : a ∈ yearMonth d ++ (x ++ c :: ofTime t)) =>
        mem_bodyChars_of_time hday hc ha
      rw [isUtc_of_bodyChars hchars, body_of_bodyChars hchars]
      exact ⟨rfl, ascii_of_bodyChars hchars,
        Or.inr ⟨length_of_time hday, wall?_of_time hday hc ht⟩⟩
    | @utc d x t b c hday ht hc hb =>
      have hchars := fun a (ha : a ∈ yearMonth d ++ (x ++ c :: ofTime t)) =>
        mem_bodyChars_of_time hday hc ha
      rw [(isUtc_append _ b).2 hb, body_append hb]
      exact ⟨rfl, ascii_of_bodyChars hchars,
        Or.inr ⟨length_of_time hday, wall?_of_time hday hc ht⟩⟩

/-- A token that does not write a wall time has not the shape of a token, or denotes no time. -/
theorem wallTime_cases (token : List Char) : (∃ w utc, wallTime token = .ok (w, utc)) ∨
    wallTime token = .error (.malformed token) ∨ wallTime token = .error .noSuchTime := by
  simp only [wallTime]
  generalize (if isUtc (trim token) = true then (trim token).dropLast else trim token) = s
  split
  · exact Or.inr (Or.inl rfl)
  · split
    · split
      · exact Or.inl ⟨_, _, rfl⟩
      · exact Or.inr (Or.inr rfl)
    · split
      · split
        · exact Or.inl ⟨_, _, rfl⟩
        · exact Or.inr (Or.inr rfl)
      · exact Or.inr (Or.inl rfl)

/-! ## What comes of a token -/

/-- The moment of a token is that of the wall time that it writes. -/
theorem read_eq_ok_iff : read token zone = .ok m ↔ ∃ w utc, Writes DayText (trim token) w utc ∧
    (utc = true ∧ m = Moment.ofUtc w ∨ utc = false ∧ Moment.localize w zone = .ok m) := by
  rw [read, bind_eq_ok_iff]
  constructor
  · rintro ⟨⟨w, utc⟩, hw, h⟩
    refine ⟨w, utc, wallTime_eq_ok_iff.1 hw, ?_⟩
    cases utc with
    | true =>
      cases h
      exact Or.inl ⟨rfl, rfl⟩
    | false =>
      simp only [Bool.false_eq_true, if_false] at h
      split at h
      · next hm =>
        cases h
        exact Or.inr ⟨rfl, hm⟩
      · cases h
  · rintro ⟨w, utc, hw, h⟩
    refine ⟨(w, utc), wallTime_eq_ok_iff.2 hw, ?_⟩
    rcases h with ⟨rfl, rfl⟩ | ⟨rfl, hm⟩
    · rfl
    · simp only [Bool.false_eq_true, if_false, hm]
      rfl

/-- A token is refused by itself exactly if it writes no wall time. -/
theorem read_refused_iff :
    (read token zone = .error (.malformed token) ∨ read token zone = .error .noSuchTime) ↔
      ¬∃ w utc, Writes DayText (trim token) w utc := by
  rcases wallTime_cases token with ⟨w, utc, hw⟩ | hfault | hfault
  · have hwrites := wallTime_eq_ok_iff.1 hw
    refine iff_of_false ?_ (not_not_intro ⟨w, utc, hwrites⟩)
    rw [read, hw]
    cases utc with
    | true => simp [bind, Except.bind, pure, Except.pure]
    | false =>
      cases hm : Moment.localize w zone with
      | ok m => simp [bind, Except.bind, pure, Except.pure, hm]
      | error e => simp [bind, Except.bind, throw, throwThe, MonadExceptOf.throw, hm]
  · refine iff_of_true (Or.inl (by rw [read, hfault]; rfl)) ?_
    rintro ⟨w, utc, hw⟩
    cases hfault.symm.trans (wallTime_eq_ok_iff.2 hw)
  · refine iff_of_true (Or.inr (by rw [read, hfault]; rfl)) ?_
    rintro ⟨w, utc, hw⟩
    cases hfault.symm.trans (wallTime_eq_ok_iff.2 hw)

/-- The documented forms are accepted. -/
theorem Writes.accepted (h : Writes TwoDigits s w utc) : Writes DayText s w utc := by
  cases h with
  | date hday =>
    rw [TwoDigits] at hday
    exact .date (hday ▸ .digits)
  | time hday ht hc =>
    rw [TwoDigits] at hday
    exact .time (hday ▸ .digits) ht hc
  | utc hday ht hc hb =>
    rw [TwoDigits] at hday
    exact .utc (hday ▸ .digits) ht hc hb

/-- There is no blank in the documented forms. -/
theorem Writes.blank_not_mem (h : Writes TwoDigits s w utc) : ' ' ∉ s := by
  have of_digits : ∀ {x : List Char}, (∀ c ∈ x, isDigit c = true) → ' ' ∉ x := fun hx hmem => by
    cases hx ' ' hmem
  have of_day : ∀ {n : Int} {x : List Char}, TwoDigits n x → ' ' ∉ x := fun hx => by
    rw [TwoDigits] at hx
    exact of_digits fun c hc => isDigit_of_mem_padded (hx ▸ hc)
  have hdate : ∀ {d : Date}, ' ' ∉ yearMonth d := of_digits fun _ => isDigit_of_mem_yearMonth
  have htime : ∀ {t : TimeOfDay}, ' ' ∉ ofTime t := of_digits fun _ => isDigit_of_mem_ofTime
  cases h with
  | date hday => simp [hdate, of_day hday]
  | time hday ht hc => rcases hc with rfl | rfl <;> simp [hdate, of_day hday, htime]
  | utc hday ht hc hb =>
    rcases hc with rfl | rfl <;> rcases hb with rfl | rfl <;> simp [hdate, of_day hday, htime]

/-- **The documented forms are those that are accepted without a blank.** -/
theorem writes_twoDigits_iff : Writes TwoDigits s w utc ↔ Writes DayText s w utc ∧ ' ' ∉ s := by
  have twoDigits : ∀ {n : Int} {x : List Char}, DayText n x → ' ' ∉ x → TwoDigits n x := by
    rintro n x (_ | _) hx
    · rfl
    · exact absurd List.mem_cons_self hx
  refine ⟨fun h => ⟨h.accepted, h.blank_not_mem⟩, ?_⟩
  rintro ⟨h, hblank⟩
  cases h with
  | date hday => exact .date (twoDigits hday fun hx => hblank (by simp [hx]))
  | time hday ht hc => exact .time (twoDigits hday fun hx => hblank (by simp [hx])) ht hc
  | utc hday ht hc hb => exact .utc (twoDigits hday fun hx => hblank (by simp [hx])) ht hc hb

/-- **What comes of every token, in every zone.** A moment is read exactly from what writes a wall
time, which is that of UTC with the letter Z and is localized in the zone without it; it is read
whenever the zone has the wall time in the calendar. Everything else is refused as no token or no
time. The documented forms are the accepted ones without a blank in them. -/
theorem read_iff_writes (token : List Char) (zone : Zone) :
    (∀ m, read token zone = .ok m ↔ ∃ w utc, Writes DayText (trim token) w utc ∧
      (utc = true ∧ m = Moment.ofUtc w ∨ utc = false ∧ Moment.localize w zone = .ok m)) ∧
    ((∃ m, read token zone = .ok m) ↔ ∃ w utc, Writes DayText (trim token) w utc ∧
      (utc = false → InCalendar (zone.readAt w.pass w.count) ∧
        InCalendar (zone.shown (zone.readAt w.pass w.count)))) ∧
    ((read token zone = .error (.malformed token) ∨ read token zone = .error .noSuchTime) ↔
      ¬∃ w utc, Writes DayText (trim token) w utc) ∧
    (∀ w utc, Writes TwoDigits (trim token) w utc ↔
      Writes DayText (trim token) w utc ∧ ' ' ∉ trim token) := by
  refine ⟨fun m => read_eq_ok_iff, ?_, read_refused_iff, fun w utc => writes_twoDigits_iff⟩
  constructor
  · rintro ⟨m, hm⟩
    obtain ⟨w, utc, hw, h⟩ := read_eq_ok_iff.1 hm
    refine ⟨w, utc, hw, fun hutc => ?_⟩
    rcases h with ⟨htrue, -⟩ | ⟨-, hlocal⟩
    · cases hutc.symm.trans htrue
    · exact Moment.exists_localize_iff.1 ⟨m, hlocal⟩
  · rintro ⟨w, utc, hw, hcalendar⟩
    cases utc with
    | true => exact ⟨_, read_eq_ok_iff.2 ⟨w, true, hw, Or.inl ⟨rfl, rfl⟩⟩⟩
    | false =>
      obtain ⟨m, hm⟩ := Moment.exists_localize_iff.2 (hcalendar rfl)
      exact ⟨m, read_eq_ok_iff.2 ⟨w, false, hw, Or.inr ⟨rfl, hm⟩⟩⟩

/-- The fifth of January with a blank for the zero is read, though it is not one of the documented
forms. -/
theorem read_blankDay : read "202401 5".toList .utc
      = .ok (.ofUtc ⟨.near 2024 1 5, .midnight, .first⟩) ∧
    ¬∃ w utc, Writes TwoDigits (trim "202401 5".toList) w utc := by
  refine ⟨rfl, ?_⟩
  rintro ⟨w, utc, h⟩
  exact h.blank_not_mem (by decide)

end Token

end RecurringEvents
