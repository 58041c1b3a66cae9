import RecurringEvents.Iso.Stamp
import RecurringEvents.Proofs.Iso.Fields
import RecurringEvents.Proofs.Text.Case
import RecurringEvents.Proofs.Text.Numbers
import RecurringEvents.Proofs.Zone.Label

/-!
# The documented time stamps

The texts that are documented as time stamps, each with the date, the time and the offset that it
stands for. A date may lack its day, or month and day; it may be a day of a week, or a week alone.
Only a complete date may have a time after it, and one character of any kind between them. A time is
hours, minutes and seconds, of which those at the end may be missing, and a fraction of the seconds.
Colons and dashes are all there or all left out. All of these texts are read as what they stand for.

* `Iso.StampDate`, `Iso.StampTime`, `Iso.StampZone`: the parts of a stamp.
* `Iso.WritesStamp`: the documented stamps.
* `Iso.stamp_of_writes`: they are read.
-/

namespace RecurringEvents

namespace Iso

open Text
open ZoneLabel (signOf)

variable {s r o : List Char} {c : Char} {d : Date} {k w y : Nat} {b : Bool}

/-! ## Fields -/

theorem looseInteger?_padded (hw : 0 < w) (hlimit : w ≤ digitLimit) (hk : k < Nat.pow 10 w) :
    looseInteger? (padded w k) = some (k : Int) := by
  have hlength := length_padded_of_lt hw hk
  have hne : padded w k ≠ [] := List.length_pos_iff.1 (by rwa [hlength])
  rw [looseInteger?_digits (fun _ => isDigit_of_mem_padded) hne (by rwa [hlength]),
    ofDigitChars_padded]

/-- A field of digits is read, whatever follows it. -/
theorem field?_padded (hw : 0 < w) (hlimit : w ≤ digitLimit) (hk : k < Nat.pow 10 w)
    (r : List Char) : field? w (padded w k ++ r) = some ((k : Int), r) := by
  have hlength := length_padded_of_lt hw hk
  rw [field?, List.take_left' hlength, List.drop_left' hlength, looseInteger?_padded hw hlimit hk]
  rfl

theorem fullField?_padded (hw : 0 < w) (hlimit : w ≤ digitLimit) (hk : k < Nat.pow 10 w)
    (r : List Char) : fullField? w (padded w k ++ r) = some ((k : Int), r) := by
  rw [fullField?, if_neg, field?_padded hw hlimit hk]
  rw [List.length_append, length_padded_of_lt hw hk]
  omega

theorem length_two (hk : k < 100) : (padded 2 k).length = 2 := length_padded_of_lt (by decide) hk

theorem field?_two (hk : k < 100) (r : List Char) :
    field? 2 (padded 2 k ++ r) = some ((k : Int), r) :=
  field?_padded (by decide) (by decide) hk r

theorem fullField?_two (hk : k < 100) (r : List Char) :
    fullField? 2 (padded 2 k ++ r) = some ((k : Int), r) :=
  fullField?_padded (by decide) (by decide) hk r

theorem fullField?_four (hk : k < 10000) (r : List Char) :
    fullField? 4 (padded 4 k ++ r) = some ((k : Int), r) :=
  fullField?_padded (by decide) (by decide) hk r

/-- No number begins with the letter of a week. -/
theorem looseInteger?_letter (s : List Char) : looseInteger? ('W' :: s) = none := by
  refine Option.eq_none_iff_forall_ne_some.2 fun n hn => ?_
  have hletter : digitValue? 'W' = none := by decide
  rcases (looseInteger?_eq_some_iff.1 hn).head (by decide) with ⟨d, hd⟩ | hc | hc
  · cases hletter.symm.trans hd
  · cases hc
  · cases hc

/-! ## Dates -/

/-- Where a number follows, a text is not at its end. -/
theorem isEmpty_append_padded (s : List Char) (w k : Nat) (r : List Char) :
    (s ++ (padded w k ++ r)).isEmpty = false := by
  simp [padded, decimal_ne_nil]

/-- The fields of a date are read as numbers. -/
theorem fields_toNat (d : Date) : (d.year.toNat < 10000 ∧ (d.year.toNat : Int) = d.year) ∧
    (d.month.toNat < 100 ∧ (d.month.toNat : Int) = d.month) ∧
    d.day.toNat < 100 ∧ (d.day.toNat : Int) = d.day := by
  obtain ⟨hy1, hy2, hm1, hm2, hd1, hd2⟩ := d.valid
  have hlength := monthLength_le d.year d.month
  omega

theorem calendarFields?_date (b : Bool) (d : Date) (r : List Char) :
    calendarFields? (padded 4 d.year.toNat ++ (dashIf b ++ (padded 2 d.month.toNat ++
      (dashIf b ++ (padded 2 d.day.toNat ++ r))))) = some (⟨d.year, d.month, d.day⟩, r) := by
  obtain ⟨⟨hy, hyear⟩, ⟨hm, hmonth⟩, hd, hday⟩ := fields_toNat d
  have hnumber := head?_padded_append (c := '-') rfl 2 d.month.toNat
    (dashIf b ++ (padded 2 d.day.toNat ++ r))
  rw [calendarFields?, fullField?_four hy]
  simp only [Option.bind_eq_bind, Option.bind_some, isEmpty_append_padded, Bool.false_eq_true,
    if_false, head?_dashIf hnumber, expect?_dashIf, fullField?_two hm, fullField?_two hd, hyear,
    hmonth, hday]
  rfl

/-- The letter of a week is no dash. -/
theorem head?_letter (s : List Char) : ('W' :: s).head? ≠ some '-' := fun h => by cases h

/-- A week is no month. -/
theorem calendarFields?_week (hy : y < 10000) (r : List Char) :
    calendarFields? (weekText b y w ++ r) = none := by
  have hmonth : fullField? 2 ('W' :: (padded 2 w ++ r)) = none := by
    rw [fullField?, field?, List.take_succ_cons, looseInteger?_letter]
    split <;> rfl
  have hmore : (dashIf b ++ 'W' :: (padded 2 w ++ r)).isEmpty = false := by simp
  rw [weekText, List.append_assoc, List.append_assoc, List.cons_append, calendarFields?,
    fullField?_four hy]
  simp only [Option.bind_eq_bind, Option.bind_some, hmore, Bool.false_eq_true, if_false,
    head?_dashIf (head?_letter _), expect?_dashIf, hmonth, Option.bind_none]

theorem firstMonday_bounds (y : Int) :
    dayNumberOf y 1 4 - 6 ≤ firstMonday y ∧ firstMonday y ≤ dayNumberOf y 1 4 := by
  have h0 := (weekdayOfDayNumber (dayNumberOf y 1 4)).number_nonneg
  have h7 := (weekdayOfDayNumber (dayNumberOf y 1 4)).number_lt
  simp only [firstMonday]
  omega

/-- A year has at most 53 weeks. -/
theorem weeksInYear_le (y : Int) : weeksInYear y ≤ 53 := by
  have h1 := firstMonday_bounds y
  have h2 := firstMonday_bounds (y + 1)
  have hyear := daysBeforeYear_succ y
  have hjanuary : ∀ z, dayNumberOf z 1 4 = daysBeforeYear z + 4 := fun z => by
    rw [dayNumberOf, daysBeforeMonth_one, Int.add_zero]
  rw [hjanuary] at h1 h2
  rw [weeksInYear]
  split at hyear <;> omega

/-- A day of a week has a week and a place that a stamp may name. -/
theorem IsDayOfWeek.named (hd : IsDayOfWeek y w k d) :
    ¬((w : Int) < 1 ∨ 53 < (w : Int) ∨ (k : Int) < 1 ∨ 7 < (k : Int)) := by
  obtain ⟨⟨hw1, hw2⟩, ⟨hk1, hk2⟩, -⟩ := hd
  have hweeks := weeksInYear_le y
  omega

theorem IsDayOfWeek.week_lt (hd : IsDayOfWeek y w k d) : w < 100 := by
  have := hd.named
  omega

/-- A year has a fourth of January. -/
theorem exists_fourth (hy : 1 ≤ y ∧ y < 10000) : ∃ x, Date.of? y 1 4 = some x := by
  have hlength := monthLength_ge y 1
  exact ⟨⟨y, 1, 4, by omega, by omega, by omega, by omega, by omega, by omega⟩,
    Date.of?_eq_some_iff.2 ⟨rfl, rfl, rfl⟩⟩

theorem dateOfDayNumber_eq_ok {n : Int} (h : d.dayNumber = n) : dateOfDayNumber n = .ok d := by
  delta dateOfDayNumber
  rw [Date.ofDayNumber?_eq_some_iff.2 h]

theorem otherDay_weekday (hy : 1 ≤ y ∧ y < 10000) (hd : IsDayOfWeek y w k d) (r : List Char) :
    otherDay (weekText b y w ++ (dashIf b ++ (padded 1 k ++ r))) = .ok (d, r) := by
  have hday := field?_padded (w := 1) (by decide) (by decide)
    (show k < Nat.pow 10 1 from Nat.lt_of_le_of_lt hd.day.2 (by decide)) r
  have hnumber := head?_padded_append (c := '-') rfl 1 k r
  obtain ⟨x, hx⟩ := exists_fourth hy
  rw [weekText, List.append_assoc, List.append_assoc, List.cons_append, otherDay,
    fullField?_four hy.2]
  simp only [orInvalid, bind, Except.bind, head?_dashIf (head?_letter _), expect?_dashIf,
    List.head?_cons, if_true, List.tail_cons, field?_two hd.week_lt, isEmpty_append_padded,
    Bool.false_eq_true, if_false, head?_dashIf hnumber, bne_self_eq_false, hday]
  rw [if_neg hd.named]
  simp only [hx, dateOfDayNumber_eq_ok hd.eq]
  rfl

/-- A week alone is its Monday. -/
theorem otherDay_week (hy : 1 ≤ y ∧ y < 10000) (hd : IsDayOfWeek y w 1 d) :
    otherDay (weekText b y w) = .ok (d, []) := by
  have hweek := field?_two hd.week_lt []
  have hmonday : d.dayNumber = firstMonday y + ((w : Int) - 1) * 7 + (1 - 1) := hd.eq
  have hnamed : ¬((w : Int) < 1 ∨ 53 < (w : Int) ∨ (1 : Int) < 1 ∨ 7 < (1 : Int)) := hd.named
  obtain ⟨x, hx⟩ := exists_fourth hy
  rw [List.append_nil] at hweek
  rw [weekText, otherDay, fullField?_four hy.2]
  simp only [orInvalid, bind, Except.bind, head?_dashIf (head?_letter _), expect?_dashIf,
    List.head?_cons, if_true, List.tail_cons, hweek, List.isEmpty_nil, pure, Except.pure]
  rw [if_neg hnamed]
  simp only [hx, dateOfDayNumber_eq_ok hmonday]

/-- The documented texts of a date, and whether a time may follow. A missing month or day is the
first, and a week alone is its Monday. -/
inductive StampDate : Bool → List Char → Date → Prop
  | year {d : Date} (first : d.month = 1 ∧ d.day = 1) : StampDate false (padded 4 d.year.toNat) d
  | month {d : Date} (first : d.day = 1) :
      StampDate false (padded 4 d.year.toNat ++ '-' :: padded 2 d.month.toNat) d
  | day (dashed : Bool) (d : Date) :
      StampDate true (padded 4 d.year.toNat ++ (dashIf dashed ++ (padded 2 d.month.toNat ++
        (dashIf dashed ++ padded 2 d.day.toNat)))) d
  | week (dashed : Bool) {y w : Nat} {d : Date} (year : 1 ≤ y ∧ y < 10000)
      (monday : IsDayOfWeek y w 1 d) : StampDate false (weekText dashed y w) d
  | weekday (dashed : Bool) {y w k : Nat} {d : Date} (year : 1 ≤ y ∧ y < 10000)
      (weekday : IsDayOfWeek y w k d) :
      StampDate true (weekText dashed y w ++ (dashIf dashed ++ padded 1 k)) d

/-- A date is read, with a time after it or not. -/
theorem StampDate.found {complete : Bool} (h : StampDate complete s d)
    (hr : complete = false → r = []) : stampDay (s ++ r) = .ok (⟨d.year, d.month, d.day⟩, r) := by
  obtain ⟨⟨hy, hyear⟩, ⟨hm, hmonth⟩, -⟩ := fields_toNat d
  cases h with
  | year first =>
    rw [hr rfl, stampDay, calendarFields?, fullField?_four hy, first.1, first.2, hyear]
    rfl
  | month first =>
    have hdash : expect? true '-' ('-' :: padded 2 d.month.toNat) = some (padded 2 d.month.toNat) :=
      expect?_dashIf true _
    have hfield := fullField?_two hm []
    rw [List.append_nil] at hfield
    rw [hr rfl, List.append_nil, stampDay, calendarFields?, fullField?_four hy, first]
    simp only [bind, Option.bind_some, List.isEmpty_cons, Bool.false_eq_true, if_false,
      List.head?_cons, decide_true, hdash, hfield, List.isEmpty_nil, if_true, hyear, hmonth]
    rfl
  | day dashed =>
    simp only [List.append_assoc]
    rw [stampDay, calendarFields?_date]
  | @week dashed y w _ hy hd =>
    have hweek := calendarFields?_week (b := dashed) (w := w) hy.2 []
    rw [List.append_nil] at hweek
    rw [hr rfl, List.append_nil, stampDay, hweek]
    simp only [otherDay_week hy hd]
    rfl
  | @weekday dashed y w k _ hy hd =>
    rw [List.append_assoc, List.append_assoc, stampDay, calendarFields?_week hy.2]
    simp only [otherDay_weekday hy hd]
    rfl

/-! ## Offsets -/

/-- The documented texts of an offset, with its seconds: none, the letter Z, or a sign and hours, or
hours and minutes with or without a colon between them. -/
inductive StampZone : List Char → Option Int → Prop
  | floating : StampZone [] none
  | universal : StampZone ['Z'] (some 0)
  | hours (west : Bool) {h : Nat} (hour : h < 24) :
      StampZone (signOf west :: padded 2 h) (some (signed west (60 * (60 * h))))
  | minutes (west colons : Bool) {h m : Nat} (hour : h < 24) (minute : m < 60) :
      StampZone (signOf west :: (padded 2 h ++ (colonIf colons ++ padded 2 m)))
        (some (signed west (60 * (60 * h + m))))

theorem isZoneMark_signOf (west : Bool) : isZoneMark (signOf west) = true := by
  cases west <;> rfl

/-- After a sign come the hours, and the minutes if anything follows. -/
theorem stampOffset?_sign (west : Bool) {h m : Nat} (hh : h < 24) (hm : m < 60)
    (hlen : r.length = 0 ∨ r.length = 2 ∨ r.length = 3)
    (hminutes : (if r.isEmpty then some (0 : Int)
      else looseInteger? (if r.head? = some ':' then r.tail else r)) = some (m : Int)) :
    stampOffset? (signOf west :: (padded 2 h ++ r)) = some (signed west (60 * (60 * h + m))) := by
  have hfield := field?_two (show h < 100 by omega) r
  have hlength : (signOf west :: (padded 2 h ++ r)).length = r.length + 3 := by
    rw [List.length_cons, List.length_append, length_two (by omega)]
    omega
  have hletter : ¬(signOf west :: (padded 2 h ++ r) = ['Z'] ∨
      signOf west :: (padded 2 h ++ r) = ['z']) := by
    cases west <;> simp [signOf]
  have hsmall : ¬(59 < (m : Int) ∨ 23 < (h : Int)) := by omega
  have hvalue : some (signed west (60 * (60 * h + m)))
      = some ((if west then -1 else 1) * ((h : Int) * 60 + m) * 60) := by
    cases west <;> simp [signed] <;> omega
  rw [hvalue, stampOffset?, if_neg hletter, if_neg (by omega)]
  simp only [List.head?_cons, signOf, List.tail_cons]
  cases west
  all_goals
    simp only [Bool.false_eq_true, if_false, if_true, bind, Option.bind_some, hfield]
    split at hminutes
    · next hr => simp only [if_pos hr, Option.some.inj hminutes, if_neg hsmall, pure]
    · next hr => simp only [if_neg hr, hminutes, Option.bind_some, if_neg hsmall, pure]

/-- The minutes of an offset are read, with a colon before them or without. -/
theorem looseInteger?_colonIf (b : Bool) {m : Nat} (hm : m < 100) :
    (if (colonIf b ++ padded 2 m).isEmpty then some (0 : Int)
      else looseInteger? (if (colonIf b ++ padded 2 m).head? = some ':'
        then (colonIf b ++ padded 2 m).tail else colonIf b ++ padded 2 m)) = some (m : Int) := by
  have hnumber : looseInteger? (padded 2 m) = some (m : Int) :=
    looseInteger?_padded (by decide) (by decide) hm
  have hcolon : (padded 2 m).head? ≠ some ':' := by
    simpa using head?_padded_append (c := ':') rfl 2 m []
  rw [if_neg (by simp [padded, decimal_ne_nil])]
  cases b with
  | true => exact hnumber
  | false => exact (congrArg looseInteger? (if_neg hcolon)).trans hnumber

/-- An offset is read where a time may end. -/
theorem StampZone.found {n : Option Int} (h : StampZone o n) (x y z u : Int)
    (readOn : List Char → Option StampClock) :
    endOr ⟨x, y, z, u, none⟩ o readOn = some ⟨x, y, z, u, n⟩ := by
  cases h with
  | floating => rfl
  | universal => rfl
  | @hours west h hour =>
    have hoffset := stampOffset?_sign (r := []) (m := 0) west hour (by decide) (Or.inl rfl) rfl
    rw [List.append_nil] at hoffset
    rw [endOr, if_pos (isZoneMark_signOf west), hoffset]
    rfl
  | @minutes west colons h m hour minute =>
    have hm : m < 100 := by omega
    have hlength : (colonIf colons ++ padded 2 m).length = 2 ∨
        (colonIf colons ++ padded 2 m).length = 3 := by
      cases colons <;> simp [colonIf, length_two hm]
    rw [endOr, if_pos (isZoneMark_signOf west),
      stampOffset?_sign west hour minute (Or.inr hlength) (looseInteger?_colonIf colons hm)]
    rfl

/-! ## Times -/

/-- The documented texts of a time of day, with its fields: hours, minutes and seconds, all with
colons between them or all without, and up to six digits of a second after a point or a comma. -/
inductive StampTime : List Char → StampClock → Prop
  | hours {h : Nat} (digits : h < 100) : StampTime (padded 2 h) { hour := h }
  | minutes (colons : Bool) {h m : Nat} (digits : h < 100 ∧ m < 100) :
      StampTime (padded 2 h ++ (colonIf colons ++ padded 2 m)) { hour := h, minute := m }
  | seconds (colons : Bool) {h m s : Nat} (digits : h < 100 ∧ m < 100 ∧ s < 100) :
      StampTime (padded 2 h ++ (colonIf colons ++ (padded 2 m ++ (colonIf colons ++ padded 2 s))))
        { hour := h, minute := m, second := s }
  | fraction (colons : Bool) {h m s : Nat} {mark : Char} {ds : List Char}
      (digits : h < 100 ∧ m < 100 ∧ s < 100) (point : isPoint mark = true)
      (part : (∀ c ∈ ds, isDigit c = true) ∧ 1 ≤ ds.length ∧ ds.length ≤ 6) :
      StampTime (padded 2 h ++ (colonIf colons ++ (padded 2 m ++ (colonIf colons ++
          (padded 2 s ++ mark :: ds)))))
        { hour := h, minute := m, second := s, micro := millionths ds }

theorem isZoneMark_of_isDigit (h : isDigit c = true) : isZoneMark c = false := by
  refine Bool.eq_false_iff.2 fun hmark => ?_
  simp only [isZoneMark, Bool.or_eq_true, decide_eq_true_eq, or_assoc] at hmark
  rcases hmark with rfl | rfl | rfl | rfl <;> cases h

/-- Where a number follows, a time goes on. -/
theorem endOr_padded (t : StampClock) (w k : Nat) (r : List Char)
    (readOn : List Char → Option StampClock) :
    endOr t (padded w k ++ r) readOn = readOn (padded w k ++ r) := by
  cases hp : padded w k with
  | nil => exact absurd (List.append_eq_nil_iff.1 hp).2 (decimal_ne_nil k)
  | cons c ds =>
    have hdigit := isDigit_of_mem_padded (hp ▸ List.mem_cons_self : c ∈ padded w k)
    rw [List.cons_append, endOr, isZoneMark_of_isDigit hdigit]
    rfl

theorem endOr_colonIf (t : StampClock) (b : Bool) (w k : Nat) (r : List Char)
    (readOn : List Char → Option StampClock) :
    endOr t (colonIf b ++ (padded w k ++ r)) readOn = readOn (colonIf b ++ (padded w k ++ r)) := by
  cases b with
  | false => exact endOr_padded t w k r readOn
  | true => rfl

/-- A fraction of a second is read up to its last digit. -/
theorem stampFraction?_digits {ds : List Char} (hc : isPoint c = true)
    (hds : ∀ c ∈ ds, isDigit c = true) (hne : ds ≠ []) (hr : ∀ c ∈ r.head?, isDigit c = false) :
    stampFraction? (c :: (ds ++ r)) = some (millionths ds, r) := by
  have htake : (ds ++ r).takeWhile isDigit = ds := by
    rw [List.takeWhile_append_of_pos hds]
    cases r with
    | nil => simp
    | cons d r => simp [hr d rfl]
  have hmark : c = '.' ∨ c = ',' := by simpa [isPoint] using hc
  rw [stampFraction?, htake, if_pos ⟨hmark, hne⟩, List.drop_left]

theorem StampZone.head {n : Option Int} (h : StampZone o n) : ∀ c ∈ o.head?, isDigit c = false := by
  cases h with
  | floating => simp
  | universal => simp; rfl
  | hours west => cases west <;> simp [signOf] <;> rfl
  | minutes west => cases west <;> simp [signOf] <;> rfl

theorem head?_colonIf (b : Bool) (w k : Nat) (r : List Char) :
    decide ((colonIf b ++ (padded w k ++ r)).head? = some ':') = b := by
  cases b with
  | true => rfl
  | false => exact decide_eq_false (head?_padded_append rfl w k r)

theorem expect?_colonIf (b : Bool) (r : List Char) : expect? b ':' (colonIf b ++ r) = some r :=
  expect?_eq_some_iff.2 rfl

/-- A time is read with the offset after it. -/
theorem StampTime.found {t : StampClock} {n : Option Int} (h : StampTime s t)
    (hz : StampZone o n) : stampClock? (s ++ o) = some { t with offset := n } := by
  have hlong : ∀ k, k < 100 → ∀ r, ¬(padded 2 k ++ r).length < 2 := fun k hk r => by
    rw [List.length_append, length_two hk]
    omega
  cases h with
  | @hours h hh =>
    rw [stampClock?, if_neg (hlong h hh o), endOr_padded, field?_two hh]
    simp only [bind, Option.bind_some]
    exact hz.found h 0 0 0 _
  | @minutes colons h m digits =>
    obtain ⟨hh, hm⟩ := digits
    simp only [List.append_assoc]
    rw [stampClock?, if_neg (hlong h hh _), endOr_padded, field?_two hh]
    simp only [bind, Option.bind_some, endOr_colonIf, head?_colonIf, expect?_colonIf, field?_two hm]
    exact hz.found h m 0 0 _
  | @seconds colons h m s digits =>
    obtain ⟨hh, hm, hs⟩ := digits
    simp only [List.append_assoc]
    rw [stampClock?, if_neg (hlong h hh _), endOr_padded, field?_two hh]
    simp only [bind, Option.bind_some, endOr_colonIf, head?_colonIf, expect?_colonIf, field?_two hm,
      field?_two hs]
    exact hz.found h m s 0 _
  | @fraction colons h m s mark ds digits point part =>
    obtain ⟨hh, hm, hs⟩ := digits
    obtain ⟨hds, hpos, -⟩ := part
    have hmark : ∀ (t : StampClock) (r : List Char) (readOn : List Char → Option StampClock),
        endOr t (mark :: r) readOn = readOn (mark :: r) := fun t r readOn => by
      simp only [isPoint, Bool.or_eq_true, decide_eq_true_eq] at point
      rcases point with rfl | rfl <;> rfl
    simp only [List.append_assoc, List.cons_append]
    rw [stampClock?, if_neg (hlong h hh _), endOr_padded, field?_two hh]
    simp only [bind, Option.bind_some, endOr_colonIf, head?_colonIf, expect?_colonIf, field?_two hm,
      field?_two hs, hmark, stampFraction?_digits point hds (List.length_pos_iff.1 hpos) hz.head]
    exact hz.found h m s (millionths ds) _

/-! ## Stamps -/

/-- The documented time stamps: a date, which is its midnight; or a complete date, a character of
ASCII and a time, with an offset or without one. Twenty-four hours are the next midnight. -/
inductive WritesStamp : List Char → Reading → Prop
  | date {complete : Bool} {s : List Char} {d : Date} (date : StampDate complete s d) :
      WritesStamp s ⟨⟨d, .midnight, .first⟩, none⟩
  | time {s u o : List Char} {c : Char} {d : Date} {t : StampClock} {time : TimeOfDay}
      {n : Option Int} (date : StampDate true s d) (ascii : c.toNat < 0x80) (clock : StampTime u t)
      (fields : TimeOfDay.of? t.hour t.minute t.second t.micro = some time) (zone : StampZone o n) :
      WritesStamp (s ++ c :: (u ++ o)) ⟨⟨d, time, .first⟩, n.map .fixed⟩
  | endOfDay {s u o : List Char} {c : Char} {d next : Date} {t : StampClock} {n : Option Int}
      (date : StampDate true s d) (ascii : c.toNat < 0x80) (clock : StampTime u t)
      (fields : t.hour = 24 ∧ t.minute = 0 ∧ t.second = 0 ∧ t.micro = 0)
      (after : next.dayNumber = d.dayNumber + 1) (zone : StampZone o n) :
      WritesStamp (s ++ c :: (u ++ o)) ⟨⟨next, .midnight, .first⟩, n.map .fixed⟩

theorem isAscii_padded (w k : Nat) : IsAscii (padded w k) :=
  isAscii_of_isDigit fun _ => isDigit_of_mem_padded

theorem StampDate.isAscii {complete : Bool} (h : StampDate complete s d) : IsAscii s := by
  have hdash : ∀ b, IsAscii (dashIf b) := by
    rintro (_ | _)
    · exact isAscii_nil
    · exact isAscii_cons.2 ⟨by decide, isAscii_nil⟩
  have hletter : 'W'.toNat < 0x80 ∧ '-'.toNat < 0x80 := by decide
  cases h <;>
    simp only [weekText, isAscii_append, isAscii_cons, isAscii_padded, hdash, hletter, and_self]

theorem isAscii_colonIf (b : Bool) : IsAscii (colonIf b) := by
  cases b with
  | false => exact isAscii_nil
  | true => exact isAscii_cons.2 ⟨by decide, isAscii_nil⟩

theorem StampTime.isAscii {t : StampClock} (h : StampTime s t) : IsAscii s := by
  cases h with
  | @fraction _ _ _ _ mark ds _ point part =>
    have hmark : mark.toNat < 0x80 := by
      simp only [isPoint, Bool.or_eq_true, decide_eq_true_eq] at point
      rcases point with rfl | rfl <;> decide
    simp only [isAscii_append, isAscii_cons, isAscii_padded, isAscii_colonIf, hmark, true_and]
    exact isAscii_of_isDigit part.1
  | _ => simp only [isAscii_append, isAscii_padded, isAscii_colonIf, and_self]

theorem StampZone.isAscii {n : Option Int} (h : StampZone o n) : IsAscii o := by
  have hsign : ∀ b, (signOf b).toNat < 0x80 := by decide
  cases h with
  | floating => exact isAscii_nil
  | universal => exact isAscii_cons.2 ⟨by decide, isAscii_nil⟩
  | _ => simp only [isAscii_append, isAscii_cons, isAscii_padded, isAscii_colonIf, hsign, and_self]

theorem isAscii_stamp {t : StampClock} {u : List Char} {n : Option Int} (hs : StampDate true s d)
    (hc : c.toNat < 0x80) (hu : StampTime u t) (ho : StampZone o n) :
    IsAscii (s ++ c :: (u ++ o)) :=
  isAscii_append.2 ⟨hs.isAscii, isAscii_cons.2 ⟨hc, isAscii_append.2 ⟨hu.isAscii, ho.isAscii⟩⟩⟩

/-- A stamp is read part by part. -/
theorem stamp_of_parts {f : DayFields} {t : StampClock} {v : Wall} (hs : IsAscii s)
    (hday : stampDay s = .ok (f, r))
    (hclock : r = [] ∧ t = {} ∨ r ≠ [] ∧ stampClock? r.tail = some t)
    (hwall : stampWall f t = .ok v) : stamp s = .ok ⟨v, t.offset.map .fixed⟩ := by
  have hascii : (s.any fun c => decide (0x80 ≤ c.toNat)) = false :=
    List.any_eq_false.2 fun c hc => by simpa using hs c hc
  rw [stamp, hascii]
  refine bind_eq_ok_iff.2 ⟨(f, r), hday, ?_⟩
  rcases hclock with ⟨rfl, rfl⟩ | ⟨hmore, hclock⟩
  · exact bind_eq_ok_iff.2 ⟨{}, rfl, bind_eq_ok_iff.2 ⟨v, hwall, rfl⟩⟩
  · dsimp only
    rw [if_neg (by simpa using hmore), hclock]
    exact bind_eq_ok_iff.2 ⟨t, rfl, bind_eq_ok_iff.2 ⟨v, hwall, rfl⟩⟩

theorem stampWall_of_time {t : StampClock} {time : TimeOfDay}
    (h : TimeOfDay.of? t.hour t.minute t.second t.micro = some time) :
    stampWall ⟨d.year, d.month, d.day⟩ t = .ok ⟨d, time, .first⟩ := by
  have hhour : t.hour ≠ 24 := fun h24 => by
    rw [h24, TimeOfDay.of?, dif_neg (by omega)] at h
    cases h
  simp only [stampWall, hhour, false_and, if_false, Date.of?_fields, h, orInvalid]
  rfl

theorem stampWall_of_endOfDay {t : StampClock} {next : Date}
    (h : t.hour = 24 ∧ t.minute = 0 ∧ t.second = 0 ∧ t.micro = 0)
    (hnext : next.dayNumber = d.dayNumber + 1) :
    stampWall ⟨d.year, d.month, d.day⟩ t = .ok ⟨next, .midnight, .first⟩ := by
  obtain ⟨hh, hm, hs, hu⟩ := h
  have hmidnight : TimeOfDay.of? 0 0 0 0 = some .midnight := rfl
  simp only [stampWall, hh, hm, hs, hu, ne_eq, not_true, or_self, and_false, if_false, if_true,
    Date.of?_fields, hmidnight, orInvalid, dateOfDayNumber_eq_ok hnext, bind, Except.bind]
  rfl

/-- **The documented time stamps are read as what they stand for.** -/
theorem stamp_of_writes {v : Reading} (h : WritesStamp s v) : stamp s = .ok v := by
  cases h with
  | date date =>
    have hday := date.found (r := []) fun _ => rfl
    rw [List.append_nil] at hday
    exact stamp_of_parts date.isAscii hday (Or.inl ⟨rfl, rfl⟩) (stampWall_of_time rfl)
  | @time s u o c d t time n date ascii clock fields zone =>
    refine stamp_of_parts (t := { t with offset := n })
      (isAscii_stamp date ascii clock zone) (date.found fun h => by cases h)
      (Or.inr ⟨by simp, clock.found zone⟩)
      (stampWall_of_time fields)
  | @endOfDay s u o c d next t n date ascii clock fields after zone =>
    refine stamp_of_parts (t := { t with offset := n })
      (isAscii_stamp date ascii clock zone) (date.found fun h => by cases h)
      (Or.inr ⟨by simp, clock.found zone⟩)
      (stampWall_of_endOfDay fields after)

end Iso

end RecurringEvents
