import RecurringEvents.Proofs.Moment.Token
import RecurringEvents.Proofs.Outcome
import RecurringEvents.Proofs.Rule.Draft
import RecurringEvents.Rule.Printer
import RecurringEvents.Rule.Reader

/-!
# The values of fields are read back

The values in the text of a rule have capital letters, digits, minus signs and commas in them and
nothing else. So they are trimmed, in upper case, and do not hold a semicolon; and each is read back
by the reader of its field.

* `readPositive_integer`, `readIntegers_commaList`: numbers and lists of numbers.
* `readDays_commaList`: lists of weekdays.
* `readLastMoment_ofWall`: the last moment.
-/

namespace RecurringEvents

open Text

/-! ## Characters -/

namespace Rule

/-- The characters in the values of fields. -/
def valueChars : List Char := numberChars ++ ",ABCDEFGHIJKLMNOPQRSTUVWXYZ".toList

variable {s : List Char}

theorem mem_valueChars_of_mem_integer {c : Char} {n : Int} (h : c ∈ integer n) :
    c ∈ valueChars := List.mem_append_left _ (mem_of_mem_integer h)

theorem trim_of_valueChars (h : ∀ c ∈ s, c ∈ valueChars) : trim s = s := by
  have hblank : ∀ c ∈ valueChars, isBlank c = false := forall_mem_of_all (by decide)
  exact trim_eq_self fun c hc => hblank c (h c hc)

theorem upper_of_valueChars (h : ∀ c ∈ s, c ∈ valueChars) : upper s = s := by
  have hupper : ∀ c ∈ valueChars, upperChar c = [c] := forall_mem_of_all (by decide)
  exact upper_eq_self fun c hc => hupper c (h c hc)

theorem semicolon_not_mem (h : ∀ c ∈ s, c ∈ valueChars) : ';' ∉ s := by
  have hother : ∀ c ∈ valueChars, c ≠ ';' := forall_mem_of_all (by decide)
  exact fun hm => hother ';' (h ';' hm) rfl

/-- A list with commas has the characters of its items and commas. -/
theorem mem_valueChars_of_mem_commaList {items : List (List Char)}
    (h : ∀ i ∈ items, ∀ c ∈ i, c ∈ valueChars) : ∀ c ∈ commaList items, c ∈ valueChars := by
  intro c hc
  rcases mem_of_mem_join hc with hc | ⟨i, hi, hc⟩
  · rw [List.mem_singleton.1 hc]
    decide
  · exact h i hi c hc

end Rule

theorem Weekday.mem_valueChars (d : Weekday) : ∀ c ∈ d.code.toList, c ∈ Rule.valueChars :=
  forall_mem_of_all (by cases d <;> decide)

theorem Rule.mem_valueChars_of_frequency (f : Frequency) :
    ∀ c ∈ frequencyText f, c ∈ valueChars :=
  forall_mem_of_all (by cases f <;> decide)

theorem Token.mem_valueChars (w : Wall) : ∀ c ∈ ofWall w, c ∈ Rule.valueChars := by
  intro c hc
  rw [ofWall_eq, List.mem_append, List.mem_singleton] at hc
  rcases hc with hc | rfl
  · rcases List.mem_cons.1 (mem_of_mem_stem hc) with rfl | hc
    · decide
    · exact List.mem_append_left _ hc
  · decide

theorem DayEntry.mem_valueChars (e : DayEntry) : ∀ c ∈ e.text, c ∈ Rule.valueChars := by
  intro c hc
  rcases List.mem_append.1 hc with hc | hc
  · cases hp : e.position with
    | none =>
      rw [hp] at hc
      cases hc
    | some n =>
      rw [hp] at hc
      exact Rule.mem_valueChars_of_mem_integer hc
  · exact e.day.mem_valueChars c hc

namespace Rule

/-! ## Numbers -/

theorem comma_not_mem_integer (n : Int) : ',' ∉ integer n := fun h =>
  (by decide : ',' ∉ numberChars) (mem_of_mem_integer h)

/-- A number of few digits is short enough to be read. -/
theorem withinDigitLimit_integer {n : Int} (h : (integer n).length ≤ digitLimit) :
    withinDigitLimit (integer n) = true := by
  have hle : (decimal n.natAbs).length ≤ (integer n).length := by
    unfold integer
    split
    · exact Nat.le_succ _
    · exact Nat.le_refl _
  rw [withinDigitLimit, splitSign_integer, decide_eq_true_eq]
  exact Nat.le_trans hle h

/-- A positive number is read back. -/
theorem readPositive_integer (key : List Char) {n : Int} (hn : 1 ≤ n)
    (h : (integer n).length ≤ digitLimit) : readPositive key (integer n) = .ok n := by
  simp only [readPositive, isInteger_integer, withinDigitLimit_integer h, integerValue_integer,
    Bool.not_true, Bool.false_eq_true, if_false, if_neg (show ¬n < 1 by omega)]

/-- The items of a list with commas. -/
theorem splitOn_commaList {items : List (List Char)} (hne : items ≠ [])
    (h : ∀ i ∈ items, ',' ∉ i) : splitOn ',' (commaList items) = items :=
  splitOn_join hne h

theorem listItems_commaList {ns : List Int} (hne : ns ≠ []) :
    listItems (commaList (ns.map integer)) = ns.map integer := by
  have hsplit : splitOn ',' (commaList (ns.map integer)) = ns.map integer := by
    refine splitOn_commaList (by simpa using hne) fun i hi => ?_
    obtain ⟨n, -, rfl⟩ := List.mem_map.1 hi
    exact comma_not_mem_integer n
  have htrim : (ns.map integer).map trim = ns.map integer := by
    rw [List.map_map]
    exact List.map_congr_left fun n _ =>
      trim_of_valueChars fun c hc => mem_valueChars_of_mem_integer hc
  rw [listItems, hsplit, htrim]
  refine List.filter_eq_self.2 fun i hi => ?_
  obtain ⟨n, -, rfl⟩ := List.mem_map.1 hi
  exact decide_eq_true (integer_ne_nil n)

/-- **A list of numbers is read back**, if none of them is too long. -/
theorem readIntegers_commaList (key : List Char) {ns : List Int} (hne : ns ≠ [])
    (h : ∀ n ∈ ns, (integer n).length ≤ digitLimit) :
    readIntegers key (commaList (ns.map integer)) = .ok ns := by
  have hfind : (ns.map integer).find? (fun i => !isInteger i) = none := by
    refine List.find?_eq_none.2 fun i hi => ?_
    obtain ⟨n, -, rfl⟩ := List.mem_map.1 hi
    simp [isInteger_integer]
  have hall : (ns.map integer).all withinDigitLimit = true := by
    refine List.all_eq_true.2 fun i hi => ?_
    obtain ⟨n, hn, rfl⟩ := List.mem_map.1 hi
    exact withinDigitLimit_integer (h n hn)
  have hback : (ns.map integer).map integerValue = ns := by
    rw [List.map_map]
    exact (List.map_congr_left fun n _ => integerValue_integer n).trans (List.map_id _)
  simp only [readIntegers, listItems_commaList hne, List.map_eq_nil_iff, hne, if_false, hfind, hall,
    if_true, hback]

/-- A place from either end has few digits. -/
theorem length_integer_le {limit n : Int} (hlimit : limit < 1000) (h : InSignedRange limit n) :
    (integer n).length ≤ digitLimit := by
  obtain ⟨-, h1, h2⟩ := h
  have hlen : (decimal n.natAbs).length ≤ (decimal 999).length :=
    length_decimal_mono (by omega)
  unfold integer
  split
  · rw [List.length_cons]
    exact Nat.le_trans (Nat.succ_le_succ hlen) (by decide)
  · exact Nat.le_trans hlen (by decide)

/-! ## Weekdays -/

theorem comma_not_mem_text (e : DayEntry) : ',' ∉ e.text := by
  intro h
  rcases List.mem_append.1 h with h | h
  · cases hp : e.position with
    | none =>
      rw [hp] at h
      cases h
    | some n =>
      rw [hp] at h
      exact comma_not_mem_integer n h
  · revert h
    cases e.day <;> decide

theorem text_ne_nil (e : DayEntry) : e.text ≠ [] := by
  refine List.append_ne_nil_of_right_ne_nil _ ?_
  cases e.day <;> decide

/-- A weekday is read back. -/
theorem readWeekday_code (d : Weekday) : readWeekday d.code.toList = .ok d := by
  rw [readWeekday, trim_of_valueChars d.mem_valueChars, upper_of_valueChars d.mem_valueChars,
    Weekday.ofCode?_code]

/-- Two capital letters with a number before them, or with nothing before them. -/
theorem dayItem?_text (e : DayEntry) : dayItem? e.text = some (e.position, e.day.code.toList) := by
  obtain ⟨day, position, valid⟩ := e
  have hcode : day.code.toList.length = 2 ∧ day.code.toList.all isCapital = true := by
    cases day <;> decide
  generalize hc : day.code.toList = code at hcode
  -- the number is what stands before the last two characters
  have hnumber : ∀ number : List Char, (number ++ code).dropLast.dropLast = number := by
    intro number
    match code, hcode.1 with
    | [a, b], _ =>
      rw [List.append_cons, List.dropLast_concat, List.dropLast_concat]
  unfold dayItem?
  cases position with
  | none =>
    simp only [DayEntry.text, hc, hnumber, List.drop_left, hcode, and_self, if_true]
  | some n =>
    obtain ⟨-, h1, h2⟩ := valid n rfl
    have hlen := length_decimal_le_two (n := n.natAbs) (by omega)
    simp only [DayEntry.text, hc, hnumber, List.drop_left, hcode, and_self, if_true,
      integer_ne_nil, if_false, isInteger_integer, splitSign_integer, hlen, integerValue_integer]

/-- An item of a list of weekdays is read back. -/
theorem readDayItem_text (e : DayEntry) : readDayItem e.text = .ok (DayDraft.ofEntry e) := by
  -- the position is checked on the spot, and that of an entry passes
  have hcheck := DayDraft.check_ofEntry [] e
  rw [readDayItem, trim_of_valueChars e.mem_valueChars, upper_of_valueChars e.mem_valueChars,
    dayItem?_text]
  simp only [readWeekday_code]
  refine bind_eq_ok_iff.2 ⟨e.day, rfl, ?_⟩
  rw [DayDraft.ofEntry] at hcheck
  rw [hcheck]
  rfl

/-- **A list of weekdays is read back**, with the positions. -/
theorem readDays_commaList (key : List Char) {es : List DayEntry} (hne : es ≠ []) :
    readDays key (commaList (es.map DayEntry.text)) = .ok (es.map DayDraft.ofEntry) := by
  have hsplit : splitOn ',' (commaList (es.map DayEntry.text)) = es.map DayEntry.text := by
    refine splitOn_commaList (by simpa using hne) fun i hi => ?_
    obtain ⟨e, -, rfl⟩ := List.mem_map.1 hi
    exact comma_not_mem_text e
  have hfilter : (es.map DayEntry.text).filter (fun i => trim i ≠ []) = es.map DayEntry.text := by
    refine List.filter_eq_self.2 fun i hi => ?_
    obtain ⟨e, -, rfl⟩ := List.mem_map.1 hi
    rw [trim_of_valueChars e.mem_valueChars]
    exact decide_eq_true (text_ne_nil e)
  have hread : (es.map DayEntry.text).mapM readDayItem = .ok (es.map DayDraft.ofEntry) := by
    clear hne hsplit hfilter
    induction es with
    | nil => rfl
    | cons e es ih =>
      rw [List.map_cons, List.mapM_cons, readDayItem_text, ih]
      rfl
  rw [readDays, hsplit, hfilter, hread]
  exact if_neg (by simpa using hne)

/-! ## The last moment and the frequency -/

/-- The last moment is read back in UTC, whatever the zone. -/
theorem readLastMoment_ofWall (zone : Zone) {w : Wall} (hy : 1000 ≤ w.date.year)
    (ht : w.time.micro = 0) :
    readLastMoment zone (Token.ofWall w) = .ok ⟨{ w with pass := .first }, some .utc⟩ := by
  rw [readLastMoment, Token.read_ofWall hy ht]
  rfl

/-- The word of a frequency is read back. -/
theorem ofWord?_lower_text (f : Frequency) :
    Frequency.ofWord? (lower (frequencyText f)) = some f := by
  cases f <;> decide

end Rule

end RecurringEvents
