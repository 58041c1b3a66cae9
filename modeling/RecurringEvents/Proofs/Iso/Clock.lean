import RecurringEvents.Proofs.Iso.Fields

/-!
# The forms of a time of day in ISO 8601 text

A text denotes a time of day exactly if it is the fields of a time, with the letter T before them or
not, alone or with an offset after them. The offset is dropped. Only `HH:MM`, `HH:MM:SS` and the
latter with a fraction are documented; the others have other characters, or their colons in other
places.

* `Iso.OffsetText`: what is taken for an offset.
* `Iso.WritesTime`, `Iso.clock?_eq_some_iff`: a time of day is found exactly in the forms that are
  accepted.
* `Iso.IsClockText`, `Iso.isClockText_iff`: the documented forms among them.
-/

namespace RecurringEvents

namespace Iso

open Text

/-! ## Times of day -/

/-- A time in microseconds. -/
def ClockFields.micros (u : ClockFields) : Int :=
  ((u.hour * 60 + u.minute) * 60 + u.second) * secondMicros + u.micro

/-- What is taken for an offset: the letter Z with which the text ends, or a sign and a time of less
than a day of which nothing is left unread. -/
inductive OffsetText : List Char → Prop
  | universal {s : List Char} (ends : atEnd s = true) : OffsetText ('Z' :: s)
  | shift {c : Char} {s : List Char} {colons : Bool} {ks : List Nat} {micro : Int}
      (sign : c = '+' ∨ c = '-') (fields : Fields colons 1 s ks micro false)
      (small : (ClockFields.ofList ks micro false).micros < dayMicros) : OffsetText (c :: s)

/-- Whether a time of day has the fields that were found. -/
structure ClockFields.Denotes (u : ClockFields) (t : TimeOfDay) : Prop where
  hour : t.hour = u.hour
  minute : t.minute = u.minute
  second : t.second = u.second
  micro : t.micro = u.micro

/-- The texts that are accepted as a time of day, with the time that they denote: the fields of a
time, with the letter T before them or not, and alone or with an offset after them. The offset makes
no difference, and before it something may be left unread. -/
inductive WritesTime : List Char → TimeOfDay → Prop
  | alone {lead s : List Char} {colons : Bool} {ks : List Nat} {micro : Int} {t : TimeOfDay}
      (letter : lead = [] ∨ lead = ['T']) (marks : ∀ c ∈ s, isOffsetMark c = false)
      (fields : Fields colons 1 s ks micro false)
      (time : (ClockFields.ofList ks micro false).Denotes t) : WritesTime (lead ++ s) t
  | shifted {lead s o : List Char} {colons unread : Bool} {ks : List Nat} {micro : Int}
      {t : TimeOfDay} (letter : lead = [] ∨ lead = ['T'])
      (marks : ∀ c ∈ s, isOffsetMark c = false) (fields : Fields colons 1 s ks micro unread)
      (offset : OffsetText o) (time : (ClockFields.ofList ks micro unread).Denotes t) :
      WritesTime (lead ++ (s ++ o)) t

variable {s r body o : List Char} {c : Char} {t : TimeOfDay} {u : ClockFields}
  {colons unread : Bool} {ks : List Nat} {k h m n : Nat} {micro : Int}

/-- After a sign the fields of a time decide. -/
theorem isOffset_of_sign (hc : c = '+' ∨ c = '-') : isOffset (c :: s) = true ↔
    ∃ u, clockFields? s = some u ∧ u.unread = false ∧ u.micros < dayMicros := by
  cases hu : clockFields? s with
  | none => rcases hc with rfl | rfl <;> simp [isOffset, hu]
  | some u => rcases hc with rfl | rfl <;> simp [isOffset, hu, ClockFields.micros]

theorem isOffset_iff (hc : isOffsetMark c = true) :
    isOffset (c :: s) = true ↔ OffsetText (c :: s) := by
  by_cases hletter : c = 'Z'
  · subst hletter
    constructor
    · intro h
      exact .universal h
    · intro h
      cases h with
      | universal hend => exact hend
      | shift hsign => rcases hsign with h | h <;> cases h
  · have hsign : c = '+' ∨ c = '-' := by simpa [isOffsetMark, hletter] using hc
    rw [isOffset_of_sign hsign]
    constructor
    · rintro ⟨u, hu, hunread, hsmall⟩
      obtain ⟨colons, ks, micro, unread, hfields, rfl⟩ := clockFields?_eq_some_iff.1 hu
      obtain rfl : unread = false := hunread
      exact .shift hsign hfields hsmall
    · intro h
      cases h with
      | universal => exact absurd rfl hletter
      | shift _ hfields hsmall =>
        exact ⟨_, clockFields?_eq_some_iff.2 ⟨_, _, _, _, hfields, rfl⟩, rfl, hsmall⟩

theorem ClockFields.of?_eq_some_iff :
    TimeOfDay.of? u.hour u.minute u.second u.micro = some t ↔ u.Denotes t := by
  rw [TimeOfDay.of?_eq_some_iff]
  constructor
  · rintro ⟨hhour, hminute, hsecond, hmicro⟩
    exact ⟨hhour, hminute, hsecond, hmicro⟩
  · rintro ⟨hhour, hminute, hsecond, hmicro⟩
    exact ⟨hhour, hminute, hsecond, hmicro⟩

/-- The letter T makes no difference. -/
theorem clock?_of_not_letter (h : s.head? ≠ some 'T') : clock? s = clock? ('T' :: s) := by
  rw [clock?, clock?]
  rintro r rfl
  exact h rfl

/-- The text is read up to the first mark of an offset, and then the offset. -/
theorem clock?_append_eq_some_iff (hbody : ∀ c ∈ body, isOffsetMark c = false)
    (ho : ∀ c ∈ o.head?, isOffsetMark c = true) : clock? ('T' :: (body ++ o)) = some t ↔
      ∃ u, clockFields? body = some u ∧ (o = [] ∧ u.unread = false ∨ OffsetText o) ∧
        u.Denotes t := by
  have htake : (body ++ o).takeWhile (fun c => !isOffsetMark c) = body := by
    rw [List.takeWhile_append_of_pos fun c hc => by rw [hbody c hc, Bool.not_false]]
    cases o with
    | nil => exact List.append_nil body
    | cons c o => simp [ho c rfl]
  have hcomplete : ∀ u : ClockFields, (if o.isEmpty then !u.unread else isOffset o) = true ↔
      o = [] ∧ u.unread = false ∨ OffsetText o := by
    intro u
    cases o with
    | nil =>
      have hnot : ¬OffsetText [] := fun h => by cases h
      simp [hnot]
    | cons c o => simp [isOffset_iff (ho c rfl)]
  rw [clock?]
  simp only [htake, List.drop_left, Option.bind_eq_bind, Option.bind_eq_some_iff,
    Option.ite_none_right_eq_some, hcomplete, ClockFields.of?_eq_some_iff]

theorem OffsetText.mark (h : OffsetText o) : ∀ c ∈ o.head?, isOffsetMark c = true := by
  intro c hc
  cases h with
  | universal =>
    cases hc
    rfl
  | shift hsign =>
    cases hc
    rcases hsign with rfl | rfl <;> rfl

/-- The fields of a time begin with a digit. -/
theorem Fields.head?_ne (h : Fields colons n s ks micro unread) (hc : isDigit c = false)
    (r : List Char) : (s ++ r).head? ≠ some c := by
  cases h with
  | last =>
    rw [List.append_assoc]
    exact head?_padded_append hc _ _ _
  | more =>
    rw [List.append_assoc]
    exact head?_padded_append hc _ _ _

/-- **A time of day is found exactly in the texts that denote it.** -/
theorem clock?_eq_some_iff : clock? s = some t ↔ WritesTime s t := by
  constructor
  · intro h
    -- what is written after the letter, if there is one
    obtain ⟨lead, r, hlead, rfl, hr⟩ : ∃ lead r, (lead = [] ∨ lead = ['T']) ∧ s = lead ++ r ∧
        clock? ('T' :: r) = some t := by
      by_cases hs : s.head? = some 'T'
      · obtain ⟨r, rfl⟩ := List.head?_eq_some_iff.1 hs
        exact ⟨['T'], r, Or.inr rfl, rfl, h⟩
      · exact ⟨[], s, Or.inl rfl, rfl, clock?_of_not_letter hs ▸ h⟩
    obtain ⟨body, o, rfl, hbody, ho⟩ := exists_eq_append (fun c => !isOffsetMark c) r
    simp only [Bool.not_eq_true', Bool.not_eq_false'] at hbody ho
    obtain ⟨u, hu, hoffset, htime⟩ := (clock?_append_eq_some_iff hbody ho).1 hr
    obtain ⟨colons, ks, micro, unread, hfields, rfl⟩ := clockFields?_eq_some_iff.1 hu
    rcases hoffset with ⟨rfl, hunread⟩ | hoffset
    · obtain rfl : unread = false := hunread
      rw [List.append_nil]
      exact .alone hlead hbody hfields htime
    · exact .shifted hlead hbody hfields hoffset htime
  · intro h
    -- the letter makes no difference
    have hletter : ∀ {lead s r : List Char} {colons unread : Bool} {ks : List Nat} {micro : Int},
        (lead = [] ∨ lead = ['T']) → Fields colons 1 s ks micro unread →
        clock? (lead ++ (s ++ r)) = clock? ('T' :: (s ++ r)) := by
      rintro lead s r colons unread ks micro (rfl | rfl) hfields
      · exact clock?_of_not_letter (hfields.head?_ne rfl r)
      · rfl
    cases h with
    | @alone lead s _ _ _ _ hlead hbody hfields htime =>
      rw [← List.append_nil s, hletter hlead hfields,
        clock?_append_eq_some_iff hbody fun c hc => by cases hc]
      exact ⟨_, clockFields?_eq_some_iff.2 ⟨_, _, _, _, hfields, rfl⟩, Or.inl ⟨rfl, rfl⟩, htime⟩
    | shifted hlead hbody hfields hoffset htime =>
      rw [hletter hlead hfields, clock?_append_eq_some_iff hbody hoffset.mark]
      exact ⟨_, clockFields?_eq_some_iff.2 ⟨_, _, _, _, hfields, rfl⟩, Or.inr hoffset, htime⟩

/-! ## The documented forms -/

/-- The texts that are documented as a time of day: hours and minutes, with seconds or without, and
with a fraction of the second or without. -/
inductive IsClockText : List Char → TimeOfDay → Prop
  | minute {t : TimeOfDay} (whole : t.IsWholeMinute) : IsClockText (Wall.minuteText t) t
  | second {t : TimeOfDay} (whole : t.micro = 0) :
      IsClockText (Wall.minuteText t ++ ':' :: padded 2 t.second.toNat) t
  | fraction {t : TimeOfDay} {c : Char} {ds : List Char} (point : isPoint c = true)
      (digits : ∀ c ∈ ds, isDigit c = true) (some : ds ≠ [])
      (value : t.micro = millionths (ds.take 6)) :
      IsClockText (Wall.minuteText t ++ ':' :: (padded 2 t.second.toNat ++ c :: ds)) t

/-- The characters of these texts: digits, colons and points. -/
def IsClockChar (c : Char) : Prop := isDigit c = true ∨ c = ':' ∨ isPoint c = true

/-- Whether a text consists of such characters, with a colon after two of them and, if it goes on,
after five, but none after eight. -/
structure HasClockShape (s : List Char) : Prop where
  first : s[2]? = some ':'
  second : s[5]? = none ∨ s[5]? = some ':'
  third : s[8]? ≠ some ':'
  chars : ∀ c ∈ s, IsClockChar c

theorem getElem?_after_field (hk : k < 100) (r : List Char) (i : Nat) :
    (padded 2 k ++ r)[i + 2]? = r[i]? := by
  have hlen := length_padded (length_decimal_le_two hk)
  rw [List.getElem?_append_right (by omega), hlen, Nat.add_sub_cancel]

/-- What stands after the hours, the minutes and the seconds. -/
theorem getElem?_fields (hh : h < 100) (hm : m < 100) (r : List Char) :
    (padded 2 h ++ ':' :: (padded 2 m ++ r))[2]? = some ':' ∧
      (padded 2 h ++ ':' :: (padded 2 m ++ r))[5]? = r[0]? ∧
      (padded 2 h ++ ':' :: (padded 2 m ++ r))[8]? = r[3]? := by
  refine ⟨getElem?_after_field hh _ 0, ?_, ?_⟩
  · rw [getElem?_after_field hh _ 3, List.getElem?_cons_succ, getElem?_after_field hm _ 0]
  · rw [getElem?_after_field hh _ 6, List.getElem?_cons_succ, getElem?_after_field hm _ 3]

theorem isClockChar_of_padded (w k : Nat) : ∀ c ∈ padded w k, IsClockChar c :=
  fun _ hc => Or.inl (isDigit_of_mem_padded hc)

theorem isClockChar_of_minuteText (t : TimeOfDay) : ∀ c ∈ Wall.minuteText t, IsClockChar c :=
  List.forall_mem_append.2 ⟨isClockChar_of_padded _ _,
    List.forall_mem_cons.2 ⟨Or.inr (Or.inl rfl), isClockChar_of_padded _ _⟩⟩

/-- None of them is a mark of an offset, a letter or NUL. -/
theorem IsClockChar.plain (hc : IsClockChar c) :
    isOffsetMark c = false ∧ c ≠ 'T' ∧ c ≠ '\x00' := by
  rcases hc with hdigit | rfl | hpoint
  · have hne : ∀ e, isDigit e = false → c ≠ e := by
      rintro e he rfl
      cases hdigit.symm.trans he
    refine ⟨?_, hne 'T' rfl, hne '\x00' rfl⟩
    simp [isOffsetMark, hne '+' rfl, hne '-' rfl, hne 'Z' rfl]
  · decide
  · simp only [isPoint, Bool.or_eq_true, decide_eq_true_eq] at hpoint
    rcases hpoint with rfl | rfl <;> decide

/-- **The documented forms have their shape.** -/
theorem IsClockText.hasClockShape (h : IsClockText s t) : HasClockShape s := by
  have hhour := t.hour_range
  have hminute := t.minute_range
  have hfirst := getElem?_fields (h := t.hour.toNat) (m := t.minute.toNat) (by omega) (by omega)
  have hsecond := getElem?_after_field (k := t.second.toNat) (by have := t.second_range; omega)
  have hchars := isClockChar_of_minuteText t
  have hcolon : IsClockChar ':' := Or.inr (Or.inl rfl)
  cases h with
  | minute =>
    obtain ⟨h2, h5, h8⟩ := hfirst []
    rw [List.append_nil] at h2 h5 h8
    refine ⟨h2, Or.inl h5, ?_, hchars⟩
    rw [Wall.minuteText, h8]
    simp
  | second =>
    obtain ⟨h2, h5, h8⟩ := hfirst (':' :: padded 2 t.second.toNat)
    have hend := hsecond [] 0
    rw [List.append_nil] at hend
    have hall : ∀ c ∈ Wall.minuteText t ++ ':' :: padded 2 t.second.toNat, IsClockChar c :=
      List.forall_mem_append.2 ⟨hchars,
        List.forall_mem_cons.2 ⟨hcolon, isClockChar_of_padded _ _⟩⟩
    rw [Wall.minuteText, List.append_assoc, List.cons_append] at hall ⊢
    refine ⟨h2, Or.inr h5, ?_, hall⟩
    rw [h8, List.getElem?_cons_succ, hend]
    simp
  | @fraction _ e ds hpoint hds =>
    obtain ⟨h2, h5, h8⟩ := hfirst (':' :: (padded 2 t.second.toNat ++ e :: ds))
    have hall : ∀ c ∈ Wall.minuteText t ++ ':' :: (padded 2 t.second.toNat ++ e :: ds),
        IsClockChar c :=
      List.forall_mem_append.2 ⟨hchars, List.forall_mem_cons.2 ⟨hcolon,
        List.forall_mem_append.2 ⟨isClockChar_of_padded _ _,
          List.forall_mem_cons.2 ⟨Or.inr (Or.inr hpoint), fun c hc => Or.inl (hds c hc)⟩⟩⟩⟩
    rw [Wall.minuteText, List.append_assoc, List.cons_append] at hall ⊢
    refine ⟨h2, Or.inr h5, ?_, hall⟩
    rw [h8, List.getElem?_cons_succ, hsecond (e :: ds) 0]
    intro he
    cases he
    cases hpoint

theorem fields_minuteText (t : TimeOfDay) :
    Fields true 1 (Wall.minuteText t) [t.hour.toNat, t.minute.toNat] 0 false := by
  have hhour := t.hour_range
  have hminute := t.minute_range
  have hlast : Fields true 2 (padded 2 t.minute.toNat ++ []) [t.minute.toNat] 0 false :=
    .last (by omega) .done
  rw [List.append_nil] at hlast
  exact .more (by omega) (by decide) hlast

theorem fields_second (t : TimeOfDay) (h : Tail true 3 r micro unread) :
    Fields true 1 (Wall.minuteText t ++ ':' :: (padded 2 t.second.toNat ++ r))
      [t.hour.toNat, t.minute.toNat, t.second.toNat] micro unread := by
  have hhour := t.hour_range
  have hminute := t.minute_range
  have hsecond := t.second_range
  rw [Wall.minuteText, List.append_assoc, List.cons_append]
  exact .more (by omega) (by decide) (.more (by omega) (by decide) (.last (by omega) h))

theorem WritesTime.of_fields (hmarks : ∀ c ∈ s, isOffsetMark c = false)
    (hfields : Fields colons 1 s ks micro false)
    (htime : (ClockFields.ofList ks micro false).Denotes t) : WritesTime s t := by
  have hletter : ([] : List Char) = [] ∨ [] = ['T'] := Or.inl rfl
  exact .alone hletter hmarks hfields htime

/-- **The documented forms are accepted.** -/
theorem IsClockText.writes (h : IsClockText s t) : WritesTime s t := by
  have hmarks : ∀ c ∈ s, isOffsetMark c = false := fun c hc =>
    (h.hasClockShape.chars c hc).plain.1
  have hhour := Int.toNat_of_nonneg t.hour_range.1
  have hminute := Int.toNat_of_nonneg t.minute_range.1
  have hsecond := Int.toNat_of_nonneg t.second_range.1
  cases h with
  | minute hwhole =>
    exact .of_fields hmarks (fields_minuteText t)
      ⟨hhour.symm, hminute.symm, hwhole.1, hwhole.2⟩
  | second hwhole =>
    have hfields := fields_second t .done
    rw [List.append_nil] at hfields
    exact .of_fields hmarks hfields ⟨hhour.symm, hminute.symm, hsecond.symm, hwhole⟩
  | @fraction _ e ds hpoint hds hsome hvalue =>
    have hfraction := Fraction.mk hds (Or.inl rfl)
    rw [List.append_nil] at hfraction
    exact .of_fields hmarks (fields_second t (.marked (Or.inl hpoint) hsome hfraction))
      ⟨hhour.symm, hminute.symm, hsecond.symm, hvalue⟩

/-- A fraction of such characters, of which nothing is left unread, has digits only. -/
theorem Fraction.of_read (h : Fraction s micro unread) (hread : unread = false)
    (hs : ∀ c ∈ s, IsClockChar c) :
    (∀ c ∈ s, isDigit c = true) ∧ micro = millionths (s.take 6) := by
  obtain ⟨hdigits, -⟩ := h
  rename_i ds r
  obtain rfl : r = [] := by
    cases r with
    | nil => rfl
    | cons c r =>
      have hnul : c ≠ '\x00' := (hs c (by simp)).plain.2.2
      simp [atEnd, hnul] at hread
  rw [List.append_nil]
  exact ⟨hdigits, rfl⟩

/-- With colons there are two ways to go on after the last field in such characters, if nothing is
left unread: not at all, or with a fraction. -/
theorem Tail.of_read (h : Tail true n s micro unread) (hread : unread = false)
    (hs : ∀ c ∈ s, IsClockChar c) :
    s = [] ∧ micro = 0 ∨ ∃ c ds, s = c :: ds ∧ (isPoint c = true ∨ n = 3 ∧ c = ':') ∧ ds ≠ [] ∧
      (∀ c ∈ ds, isDigit c = true) ∧ micro = millionths (ds.take 6) := by
  cases h with
  | done => exact Or.inl ⟨rfl, rfl⟩
  | @last c =>
    have hnul : c ≠ '\x00' := (hs c (by simp)).plain.2.2
    simp [hnul] at hread
  | @marked c s _ _ hmark hmore hfraction =>
    obtain ⟨hdigits, hmicro⟩ :=
      hfraction.of_read hread fun e he => hs e (List.mem_cons_of_mem c he)
    refine Or.inr ⟨c, s, rfl, ?_, hmore, hdigits, hmicro⟩
    rcases hmark with hpoint | ⟨hthird, -, hcolon⟩
    · exact Or.inl hpoint
    · exact Or.inr ⟨hthird, hcolon⟩
  | bare _ hplain => cases hplain

/-- What has a colon after its first field has colons, and another field. -/
theorem Fields.exists_minute (h : Fields colons 1 s ks micro unread) (hs : s[2]? = some ':')
    (hread : unread = false) (hchars : ∀ c ∈ s, IsClockChar c) :
    ∃ k q ls, k < 100 ∧ s = padded 2 k ++ ':' :: q ∧ ks = k :: ls ∧
      Fields true 2 q ls micro unread := by
  cases h with
  | @last _ k r _ _ hk htail =>
    rw [getElem?_after_field hk r 0] at hs
    have hr : ∀ c ∈ r, IsClockChar c := fun c hc => hchars c (List.mem_append_right _ hc)
    rcases (htail.of_hour true).of_read hread hr with ⟨rfl, -⟩ | ⟨c, ds, rfl, hmark, -⟩
    · cases hs
    · cases hs
      simp [isPoint] at hmark
  | @more _ k r ls _ _ hk _ hnext =>
    rw [getElem?_after_field hk _ 0] at hs
    cases colons with
    | true => exact ⟨k, r, ls, hk, rfl, rfl, hnext⟩
    | false =>
      have hhead := hnext.head?_ne (c := ':') rfl []
      rw [List.append_nil, List.head?_eq_getElem?] at hhead
      exact absurd hs hhead

theorem minuteText_of_denotes (h : (ClockFields.ofList (k :: m :: ks) micro unread).Denotes t) :
    Wall.minuteText t = padded 2 k ++ ':' :: padded 2 m := by
  rw [Wall.minuteText, h.hour, h.minute]
  rfl

/-- After the minutes such a text ends, if no seconds follow. -/
theorem isClockText_of_minute (htail : Tail true 2 r micro false) (hchars : ∀ c ∈ r, IsClockChar c)
    (hnext : r[0]? = none ∨ r[0]? = some ':')
    (htime : (ClockFields.ofList [k, m] micro false).Denotes t) :
    IsClockText (padded 2 k ++ ':' :: (padded 2 m ++ r)) t := by
  rcases htail.of_read rfl hchars with ⟨rfl, rfl⟩ | ⟨c, ds, rfl, hmark, -⟩
  · rw [List.append_nil, ← minuteText_of_denotes htime]
    exact .minute ⟨htime.second, htime.micro⟩
  · -- a point would stand where the text has a colon
    rcases hnext with hnone | hcolon
    · cases hnone
    · cases hcolon
      simp [isPoint] at hmark

/-- After the seconds it ends, or goes on with a fraction. -/
theorem isClockText_of_second (htail : Tail true 3 r micro false) (hchars : ∀ c ∈ r, IsClockChar c)
    (hnext : r[0]? ≠ some ':') (htime : (ClockFields.ofList [k, m, n] micro false).Denotes t) :
    IsClockText (padded 2 k ++ ':' :: (padded 2 m ++ ':' :: (padded 2 n ++ r))) t := by
  have hsecond : padded 2 n = padded 2 t.second.toNat := by
    rw [htime.second]
    rfl
  rw [← List.cons_append, ← List.append_assoc, ← minuteText_of_denotes htime, hsecond]
  rcases htail.of_read rfl hchars with ⟨rfl, rfl⟩ | ⟨c, ds, rfl, hmark, hsome, hdigits, hvalue⟩
  · rw [List.append_nil]
    exact .second htime.micro
  · rcases hmark with hpoint | ⟨-, rfl⟩
    · exact .fraction hpoint hdigits hsome (htime.micro.trans hvalue)
    · exact absurd rfl hnext

/-- **Nothing else that is accepted has their shape.** -/
theorem WritesTime.isClockText (h : WritesTime s t) (hs : HasClockShape s) : IsClockText s t := by
  obtain ⟨h2, h5, h8, hchars⟩ := hs
  cases h with
  | @shifted lead body o _ _ _ _ _ _ _ _ hoffset _ =>
    obtain ⟨c, hc⟩ : ∃ c, o.head? = some c := by
      cases hoffset with
      | universal => exact ⟨'Z', rfl⟩
      | @shift c => exact ⟨c, rfl⟩
    have hmem : c ∈ lead ++ (body ++ o) := by simp [List.mem_of_head? hc]
    cases (hoffset.mark c hc).symm.trans (hchars c hmem).plain.1
  | @alone lead body _ _ _ _ hlead hmarks hfields htime =>
    obtain rfl : lead = [] := by
      rcases hlead with rfl | rfl
      · rfl
      · exact absurd rfl (hchars 'T' (by simp)).plain.2.1
    rw [List.nil_append] at *
    obtain ⟨k, q, ls, hk, rfl, rfl, hminutes⟩ := hfields.exists_minute h2 rfl hchars
    cases hminutes with
    | @last _ m r _ _ hm htail =>
      rw [(getElem?_fields hk hm r).2.1] at h5
      exact isClockText_of_minute htail (fun c hc => hchars c (by simp [hc])) h5 htime
    | @more _ m _ _ _ _ hm _ hseconds =>
      cases hseconds with
      | @last _ n r _ _ hn htail =>
        rw [(getElem?_fields hk hm _).2.2, colonIf, if_pos rfl, List.singleton_append,
          List.getElem?_cons_succ, getElem?_after_field hn r 0] at h8
        exact isClockText_of_second htail (fun c hc => hchars c (by simp [hc])) h8 htime
      | more _ hroom => exact absurd hroom (by decide)

/-- **The documented forms are the accepted ones that have their shape.** -/
theorem isClockText_iff : IsClockText s t ↔ WritesTime s t ∧ HasClockShape s :=
  ⟨fun h => ⟨h.writes, h.hasClockShape⟩, fun h => h.1.isClockText h.2⟩

end Iso

end RecurringEvents
