import RecurringEvents.Proofs.Moment.Token
import RecurringEvents.Proofs.Zone.Reading

/-!
# Tokens without a zone

A token of a date in eight digits, or of a date and a time of day with the letter T between them,
shows a wall time and no zone. It is read as this wall time in whatever zone is asked for. No token
denotes a moment with a part of a second.

* `read_of_shows`: a token is read as the wall time that it shows.
* `micro_of_read`: a token denotes a whole second.
-/

namespace RecurringEvents

open Text

/-! ## Whole seconds -/

theorem TimeOfDay.micro_of_of? {hour minute second : Int} {t : TimeOfDay}
    (h : of? hour minute second 0 = some t) : t.micro = 0 := by
  unfold of? at h
  split at h
  · cases h
    simp only [micro, secondMicros]
    omega
  · cases h

/-- Zones are whole seconds apart, so whole seconds stay whole in another zone. -/
theorem Moment.micro_of_inZone {m n : Moment} {z : Zone} (h : m.inZone z = .ok n)
    (hm : m.wall.time.micro = 0) : n.wall.time.micro = 0 := by
  unfold inZone at h
  split at h
  · cases h
    exact hm
  · have hcount := (Zone.atInstant_eq_ok_iff.1 h).2.2.1
    simp only [Zone.shown, instant, Wall.count, TimeOfDay.micro, dayMicros, secondMicros] at *
    omega

theorem Moment.micro_of_localize {w : Wall} {z : Zone} {m : Moment} (h : localize w z = .ok m)
    (hw : w.time.micro = 0) : m.wall.time.micro = 0 := by
  obtain ⟨u, hu, hm⟩ := bind_eq_ok_iff.1 h
  exact micro_of_inZone hm (micro_of_inZone hu hw)

namespace Token

theorem micro_of_wall? {s : List Char} {w : Wall} (h : wall? s = some w) : w.time.micro = 0 := by
  obtain ⟨⟨d, r⟩, -, h⟩ := Option.bind_eq_some_iff.1 h
  cases r with
  | nil => cases h
  | cons c r =>
    simp only at h
    split at h
    · obtain ⟨t, ht, h⟩ := Option.bind_eq_some_iff.1 h
      cases h
      obtain ⟨⟨hour, r⟩, -, ht⟩ := Option.bind_eq_some_iff.1 ht
      obtain ⟨⟨minute, r⟩, -, ht⟩ := Option.bind_eq_some_iff.1 ht
      obtain ⟨⟨second, r⟩, -, ht⟩ := Option.bind_eq_some_iff.1 ht
      exact TimeOfDay.micro_of_of? ht
    · cases h

theorem micro_of_wallTime {token : List Char} {w : Wall} {utc : Bool}
    (h : wallTime token = .ok (w, utc)) : w.time.micro = 0 := by
  simp only [wallTime] at h
  generalize (if isUtc (trim token) = true then (trim token).dropLast else trim token) = body at h
  split at h
  · cases h
  · split at h
    · -- a date begins at midnight
      split at h
      · next found =>
        cases h
        obtain ⟨d, -, rfl⟩ := Option.map_eq_some_iff.1 found
        rfl
      · cases h
    · split at h
      · split at h
        · next found =>
          cases h
          exact micro_of_wall? found
        · cases h
      · cases h

/-- **A token denotes a whole second.** -/
theorem micro_of_read {token : List Char} {zone : Zone} {m : Moment}
    (h : read token zone = .ok m) : m.wall.time.micro = 0 := by
  obtain ⟨⟨w, utc⟩, hw, h⟩ := bind_eq_ok_iff.1 h
  have hwhole := micro_of_wallTime hw
  cases utc with
  | true =>
    cases h
    exact hwhole
  | false =>
    simp only [Bool.false_eq_true, if_false] at h
    split at h
    · next found =>
      cases h
      exact Moment.micro_of_localize found hwhole
    · cases h

/-! ## Tokens that show a wall time -/

/-- A date in eight digits. -/
def ofDate (d : Date) : List Char :=
  padded 4 d.year.toNat ++ (padded 2 d.month.toNat ++ padded 2 d.day.toNat)

/-- A time of day in six digits; the part of a second is dropped. -/
def ofTime (t : TimeOfDay) : List Char :=
  padded 2 t.hour.toNat ++ (padded 2 t.minute.toNat ++ padded 2 t.second.toNat)

/-- Which wall time a token without a zone shows: the first moment of a date, or a date and a time
of day on a whole second. -/
inductive Shows : List Char → Wall → Prop where
  | date (d : Date) : Shows (ofDate d) ⟨d, .midnight, .first⟩
  | time (d : Date) {t : TimeOfDay} (ht : t.micro = 0) :
      Shows (ofDate d ++ 'T' :: ofTime t) ⟨d, t, .first⟩

variable {token : List Char} {w : Wall}

theorem length_ofDate (d : Date) : (ofDate d).length = 8 := by
  obtain ⟨-, hy, -, hm, -, hd⟩ := d.valid
  have hl := monthLength_le d.year d.month
  simp only [ofDate, List.length_append]
  rw [length_padded (length_decimal_le_four (by omega)),
    length_padded (length_decimal_le_two (by omega)),
    length_padded (length_decimal_le_two (by omega))]

theorem length_ofTime (t : TimeOfDay) : (ofTime t).length = 6 := by
  have hhour := t.hour_range
  have hminute := t.minute_range
  have hsecond := t.second_range
  simp only [ofTime, List.length_append]
  rw [length_padded (length_decimal_le_two (by omega)),
    length_padded (length_decimal_le_two (by omega)),
    length_padded (length_decimal_le_two (by omega))]

theorem isDigit_of_mem_ofDate {d : Date} {c : Char} (h : c ∈ ofDate d) : isDigit c = true := by
  simp only [ofDate, List.mem_append] at h
  rcases h with h | h | h
  · exact isDigit_of_mem_padded h
  · exact isDigit_of_mem_padded h
  · exact isDigit_of_mem_padded h

theorem isDigit_of_mem_ofTime {t : TimeOfDay} {c : Char} (h : c ∈ ofTime t) :
    isDigit c = true := by
  simp only [ofTime, List.mem_append] at h
  rcases h with h | h | h
  · exact isDigit_of_mem_padded h
  · exact isDigit_of_mem_padded h
  · exact isDigit_of_mem_padded h

/-- The characters of a token. -/
theorem Shows.mem_chars (h : Shows token w) {c : Char} (hc : c ∈ token) :
    c ∈ 'T' :: numberChars := by
  have of_digit : isDigit c = true → c ∈ 'T' :: numberChars := fun hd =>
    List.mem_cons_of_mem _ (mem_numberChars_of_isDigit hd)
  cases h with
  | date d => exact of_digit (isDigit_of_mem_ofDate hc)
  | time d ht =>
    rw [List.mem_append, List.mem_cons] at hc
    rcases hc with hc | rfl | hc
    · exact of_digit (isDigit_of_mem_ofDate hc)
    · exact List.mem_cons_self
    · exact of_digit (isDigit_of_mem_ofTime hc)

/-- A token has no white space in it. -/
theorem Shows.trim_eq (h : Shows token w) : trim token = token := by
  have hblank : ∀ c ∈ 'T' :: numberChars, isBlank c = false := forall_mem_of_all (by decide)
  exact trim_eq_self fun c hc => hblank c (h.mem_chars hc)

/-- The wall time that a token shows is found in it, without a zone. -/
theorem Shows.wallTime_eq (h : Shows token w) : wallTime token = .ok (w, false) := by
  have hletter : ∀ c ∈ 'T' :: numberChars, c ≠ 'Z' ∧ c ≠ 'z' := forall_mem_of_all (by decide)
  have hascii := not_any_of_chars fun c (hc : c ∈ token) => h.mem_chars hc
  have hutc : isUtc token = false := by
    have hlast : ∀ c : Char, c = 'Z' ∨ c = 'z' → token.getLast? ≠ some c := by
      intro c hc heq
      obtain ⟨h1, h2⟩ := hletter c (h.mem_chars (List.mem_of_getLast? heq))
      exact hc.elim h1 h2
    simp only [isUtc, hlast 'Z' (Or.inl rfl), hlast 'z' (Or.inr rfl), decide_false, Bool.or_self]
  simp only [wallTime, h.trim_eq, hutc, Bool.false_eq_true, if_false, if_neg hascii,
    Bool.not_false, and_true]
  cases h with
  | date d =>
    have hdate : date? (ofDate d) = some (d, []) := by
      have hread := date?_padded d []
      rwa [List.append_nil] at hread
    rw [if_pos (length_ofDate d), hdate]
    rfl
  | @time d t ht =>
    have hlength : (ofDate d ++ 'T' :: ofTime t).length = 15 := by
      rw [List.length_append, List.length_cons, length_ofDate, length_ofTime]
    have htime : time? (ofTime t) = some t := by
      have hread := time?_append ht []
      rwa [List.append_nil] at hread
    have hdate : date? (ofDate d ++ 'T' :: ofTime t) = some (d, 'T' :: ofTime t) := by
      rw [ofDate, List.append_assoc, List.append_assoc]
      exact date?_padded d _
    have hwall : wall? (ofDate d ++ 'T' :: ofTime t) = some ⟨d, t, .first⟩ := by
      rw [wall?, hdate]
      simp only [Option.bind_eq_bind, Option.bind_some, true_or, if_true, htime, Option.pure_def]
    rw [hlength, hwall]
    rfl

/-- **A token is read as the wall time that it shows**, in whatever zone is asked for. -/
theorem read_of_shows (h : Shows token w) {zone : Zone} {m : Moment}
    (hm : Moment.localize w zone = .ok m) : read token zone = .ok m := by
  refine bind_eq_ok_iff.2 ⟨(w, false), h.wallTime_eq, ?_⟩
  simp only [Bool.false_eq_true, if_false, hm]
  rfl

end Token

end RecurringEvents
