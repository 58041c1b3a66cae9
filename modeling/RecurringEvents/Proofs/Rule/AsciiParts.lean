import RecurringEvents.Proofs.Moment.Forms
import RecurringEvents.Proofs.Rule.Items
import RecurringEvents.Proofs.Rule.Segments
import RecurringEvents.Proofs.Text.Folded

/-!
# The characters of a rule text

A rule text of which a rule is read may have any character in its segments that are skipped. The
parts that the reader acts on are in ASCII, except for characters that become ASCII when the case is
changed: in the keys the dotless i, the long s and two ligatures of s and t; in the frequency the
Kelvin sign; in the codes of weekdays the long s. Numbers and tokens are in ASCII.

* `Rule.isAsciiBut_of_readValue`: the values of the keys.
* `AsciiParts`: the keys, the frequency and the values of a text.
* `Session.asciiParts_of_readRule`: the texts of which a rule is read.
-/

namespace RecurringEvents

open Text

variable {s value : List Char} {zone : Zone}

/-! ## Numbers and tokens -/

theorem Text.toNat_lt_of_isDigit {c : Char} (h : isDigit c = true) : c.toNat < 0x80 := by
  have := (isDigit_iff.1 h).2
  omega

/-- A number consists of a sign and digits. -/
theorem Text.isAscii_of_isInteger (h : isInteger s = true) : IsAscii s := by
  simp only [isInteger, Bool.and_eq_true, List.all_eq_true] at h
  have hdigits := h.2
  intro c hc
  unfold splitSign at hdigits
  split at hdigits
  · rcases List.mem_cons.1 hc with rfl | hc
    · decide
    · exact toNat_lt_of_isDigit (hdigits c hc)
  · rcases List.mem_cons.1 hc with rfl | hc
    · decide
    · exact toNat_lt_of_isDigit (hdigits c hc)
  · exact toNat_lt_of_isDigit (hdigits c hc)

theorem Grammar.Numeral.isAscii {limit : Nat} {n : Int} (h : Numeral limit s n) : IsAscii s :=
  isAscii_of_isInteger (numeral_iff.1 h).1.1

/-- What writes a date is in ASCII. -/
theorem Token.Writes.isAscii {w : Wall} {utc : Bool} (h : Writes DayText s w utc) : IsAscii s := by
  cases h with
  | date hday => exact fun c hc => toNat_lt_of_mem_bodyChars c (mem_bodyChars_of_date hday hc)
  | time hday _ hletter =>
    exact fun c hc => toNat_lt_of_mem_bodyChars c (mem_bodyChars_of_time hday hletter hc)
  | utc hday _ hletter hlast =>
    refine isAscii_append.2 ⟨fun c hc => ?_, fun c hc => ?_⟩
    · exact toNat_lt_of_mem_bodyChars c (mem_bodyChars_of_time hday hletter hc)
    · rw [List.mem_singleton.1 hc]
      rcases hlast with rfl | rfl <;> decide

/-- A token that is read is in ASCII when it is trimmed. -/
theorem Token.isAscii_of_read {m : Moment} (h : read value zone = .ok m) :
    IsAscii (trim value) := by
  obtain ⟨w, utc, hwrites, -⟩ := read_eq_ok_iff.1 h
  exact hwrites.isAscii

/-! ## Weekdays and frequencies -/

/-- The long s, whose upper case is that of the letter S. -/
def longS : Char := 'ſ'

/-- The code of a weekday behind characters that are no letters. -/
theorem Weekday.isAsciiBut_of_upper_eq {number : List Char} {d : Weekday}
    (h : upper s = number ++ d.code.toList) (hnumber : IsAscii number)
    (hletters : ∀ c ∈ number, c.isAlpha = false) : IsAsciiBut [longS] s := by
  have hcode : IsAscii d.code.toList := forall_mem_of_all (by cases d <;> decide)
  have hall : d.code.toList.filter Char.isAlpha = d.code.toList := by cases d <;> decide
  have hnone : number.filter Char.isAlpha = [] :=
    List.filter_eq_nil_iff.2 fun c hc => by simp [hletters c hc]
  refine Text.isAsciiBut_of_upper_eq h (isAscii_append.2 ⟨hnumber, hcode⟩) ?_
  rw [List.filter_append, hnone, hall, List.nil_append]
  cases d <;> decide

namespace Rule

theorem isAsciiBut_of_readWeekday {d : Weekday} (h : readWeekday value = .ok d) :
    IsAsciiBut [longS] (trim value) := by
  unfold readWeekday at h
  split at h
  · next d' hcode =>
    have hupper : upper (trim value) = [] ++ d'.code.toList := Weekday.toList_of_ofCode? hcode
    exact Weekday.isAsciiBut_of_upper_eq hupper (List.forall_mem_nil _) (List.forall_mem_nil _)
  · cases h

theorem isAsciiBut_of_readDayItem {d : DayDraft} (h : readDayItem s = .ok d) :
    IsAsciiBut [longS] (trim s) := by
  unfold readDayItem at h
  split at h
  · cases h
  · next p code hitem =>
    obtain ⟨day, hday, -⟩ := bind_eq_ok_iff.1 h
    obtain ⟨hcapital, number, hparts, hnumber⟩ := Grammar.of_dayItem? hitem
    rw [Grammar.code_of_readWeekday hcapital hday] at hparts
    have hplain : IsAscii number ∧ ∀ c ∈ number, c.isAlpha = false := by
      rcases hnumber with ⟨rfl, -⟩ | ⟨n, -, hn⟩
      · exact ⟨List.forall_mem_nil _, List.forall_mem_nil _⟩
      · exact ⟨hn.isAscii, hn.isAlpha_eq_false⟩
    exact Weekday.isAsciiBut_of_upper_eq hparts hplain.1 hplain.2

/-- A frequency is read of a word that has no other characters outside ASCII than the Kelvin
sign. -/
theorem exists_word_of_readFrequency {fs : Fields} {f : Frequency} (h : readFrequency fs = .ok f) :
    ∃ word, fs.value? "FREQ" = some word ∧ IsAsciiBut [kelvinSign] word := by
  unfold readFrequency at h
  split at h
  · cases h
  · next word hword =>
    split at h
    · cases h
    · split at h
      · next f' hlower =>
        have hascii : IsAscii f'.word.toList := forall_mem_of_all (by cases f' <;> decide)
        exact ⟨word, hword, isAsciiBut_of_lower_eq (Frequency.toList_of_ofWord? hlower) hascii⟩
      · cases h

end Rule

/-! ## The values of the keys -/

/-- The characters outside ASCII that the value of a key may have. -/
def FieldKey.folded : FieldKey → List Char
  | .byDay | .weekStart => [longS]
  | _ => []

namespace Rule

theorem subset_of_mem_listItems {item : List Char} (h : item ∈ listItems value) : item ⊆ value := by
  obtain ⟨part, hpart, rfl⟩ := List.mem_map.1 (List.mem_filter.1 h).1
  exact fun c hc => mem_of_mem_splitOn hpart (mem_of_mem_trim hc)

/-- The items of a value that is read as a whole. -/
theorem isAsciiBut_of_mem_listItems {exceptions item : List Char} (h : IsAsciiBut exceptions value)
    (hitem : item ∈ listItems value) : IsAsciiBut exceptions item :=
  h.of_subset (subset_of_mem_listItems hitem)

theorem isAscii_of_readPositive {key : List Char} {n : Int} (h : readPositive key value = .ok n) :
    IsAscii value :=
  (Grammar.readPositive_eq_ok_iff.1 h).1.isAscii

theorem isAscii_of_readIntegers {key item : List Char} {ns : List Int}
    (h : readIntegers key value = .ok ns) (hitem : item ∈ listItems value) : IsAscii item := by
  have hlist := Grammar.lists_iff.1 (Grammar.readIntegers_eq_ok_iff.1 h)
  exact isAscii_of_isInteger ((Grammar.forall₂_numeral_iff.1 hlist.2).1 item hitem).1

theorem isAsciiBut_of_readDays {key item : List Char} {ds : List DayDraft}
    (h : readDays key value = .ok ds) (hitem : item ∈ listItems value) :
    IsAsciiBut [longS] item := by
  obtain ⟨days, hdays, -⟩ := bind_eq_ok_iff.1 h
  obtain ⟨hmem, hne⟩ := List.mem_filter.1 hitem
  obtain ⟨part, hpart, rfl⟩ := List.mem_map.1 hmem
  obtain ⟨d, hd⟩ := exists_mapM_eq_ok_iff.1 ⟨days, hdays⟩ part (List.mem_filter.2 ⟨hpart, hne⟩)
  exact isAsciiBut_of_readDayItem hd

/-- **The values that are read** have no characters outside ASCII but those of their key. -/
theorem isAsciiBut_of_readValue {k : FieldKey} {a : k.Value} {item : List Char}
    (htrim : trim value = value) (h : k.readValue zone value = .ok a)
    (hitem : item ∈ listItems value) : IsAsciiBut k.folded item := by
  cases k with
  | interval =>
    exact isAsciiBut_of_mem_listItems (isAscii_of_readPositive h).isAsciiBut hitem
  | count =>
    exact isAsciiBut_of_mem_listItems (isAscii_of_readPositive h).isAsciiBut hitem
  | lastMoment =>
    rw [FieldKey.readValue, readLastMoment] at h
    split at h
    · next m hread =>
      have hascii := Token.isAscii_of_read hread
      rw [htrim] at hascii
      exact isAsciiBut_of_mem_listItems hascii.isAsciiBut hitem
    · cases h
  | byDay => exact isAsciiBut_of_readDays h hitem
  | byMonthDay => exact (isAscii_of_readIntegers h hitem).isAsciiBut
  | byMonth => exact (isAscii_of_readIntegers h hitem).isAsciiBut
  | bySetPos => exact (isAscii_of_readIntegers h hitem).isAsciiBut
  | weekStart =>
    obtain ⟨day, hday, -⟩ := map_eq_ok_iff.1 h
    have hvalue := isAsciiBut_of_readWeekday hday
    rw [htrim] at hvalue
    exact isAsciiBut_of_mem_listItems hvalue hitem

end Rule

/-! ## The parts of a text -/

/-- The characters outside ASCII that a key may have. -/
def keyFolded : List Char := ['ı', longS, 'ﬅ', 'ﬆ']

/-- A key in any case of all scripts. -/
theorem isAsciiBut_of_upper_eq_key {key : String} (hkey : key ∈ Rule.keys)
    (h : upper s = key.toList) : IsAsciiBut keyFolded s := by
  have hascii : ∀ key ∈ Rule.keys, key.toList.all (fun c => decide (c.toNat < 0x80)) = true := by
    decide
  have hfolded : ∀ key ∈ Rule.keys, ∀ p ∈ upperFolded,
      p.2 <:+: key.toList.filter Char.isAlpha → p.1 ∈ keyFolded := by decide
  exact Text.isAsciiBut_of_upper_eq h (forall_mem_of_all (hascii key hkey)) (hfolded key hkey)

/-- The values of a text are trimmed. -/
theorem Fields.trim_of_lookup {text key : List Char} (h : (ofText text).lookup key = some value) :
    trim value = value := by
  rw [ofText_eq, lookup_ofSegments, lastValue?] at h
  obtain ⟨before, after, hfields, -⟩ := List.lookup_eq_some_iff.1 h
  have hmem : (key, value) ∈ (splitOn ';' (body text)).filterMap ofSegment? := by
    rw [← List.mem_reverse, hfields]
    exact List.mem_append_right before List.mem_cons_self
  obtain ⟨segment, -, hsegment⟩ := List.mem_filterMap.1 hmem
  unfold ofSegment? at hsegment
  split at hsegment
  · cases hsegment
  · next k v hcut =>
    simp only at hsegment
    split at hsegment
    · cases hsegment
    · cases hsegment
      exact trim_trim v

/-- What a text has in ASCII, but for characters that become ASCII: its known keys, the word for the
frequency, and the items in the values of the other known keys. -/
structure AsciiParts (text : List Char) : Prop where
  keys : ∀ segment ∈ splitOn ';' (Fields.body text), ∀ k v, cut? '=' segment = some (k, v) →
    ∀ key ∈ Rule.keys, upper (trim k) = key.toList → IsAsciiBut keyFolded (trim k)
  frequency : ∃ word, (Fields.ofText text).value? "FREQ" = some word ∧ IsAsciiBut [kelvinSign] word
  values : ∀ (k : FieldKey) value, (Fields.ofText text).lookup k.text.toList = some value →
    ∀ item ∈ Rule.listItems value, IsAsciiBut k.folded item

/-- **The texts of which a rule is read** have the parts that are acted on in ASCII, except for
characters that become ASCII when the case is changed. -/
theorem Session.asciiParts_of_readRule [ZoneDatabase] (s : Session) (name : Option String)
    {text : String} {r : Rule}
    (h : s.readRule name (some text) = .ok r) : AsciiParts text.toList := by
  have hfields : Rule.ofFields (s.floatingZone name) (Fields.ofText text.toList) = .ok r :=
    Rule.read_eq_ok_iff_ofFields.1 h
  obtain ⟨f, d, hfrequency, hgives, -⟩ :=
    (Rule.ofFields_eq_ok_iff (Fields.nodup_ofSegments _)).1 hfields
  refine ⟨fun _ _ k v _ key hkey hupper => isAsciiBut_of_upper_eq_key hkey hupper,
    Rule.exists_word_of_readFrequency hfrequency, fun k value hvalue item hitem => ?_⟩
  obtain ⟨a, hread, -⟩ := (hgives.tells k).present value hvalue
  exact Rule.isAsciiBut_of_readValue (Fields.trim_of_lookup hvalue) hread hitem

/-- A text with the Kelvin sign, the dotless i, the long s and both ligatures in the parts that are
acted on. -/
def foldedText : String :=
  "FREQ=WEE\u212aLY;ıNTERVAL=2;BYſETPOS=1;BYDAY=ſu,-1ſA;WKﬅ=ſu;WKﬆ=mo"

/-- It is a rule, so there is none of these characters too many above. -/
theorem Session.foldedText_parts :
    (∃ r, readRule {} none (some foldedText) = .ok r ∧
      (r.frequency = .weekly ∧ r.interval = 2 ∧ r.bySetPos = some [1] ∧
        r.days.map DayEntry.day = [.sunday, .saturday] ∧ r.weekStart = some .monday)) ∧
    ¬IsAscii foldedText.toList ∧ AsciiParts foldedText.toList := by
  obtain ⟨r, hread, hr⟩ : ∃ r, readRule {} none (some foldedText) = .ok r ∧
      (r.frequency = .weekly ∧ r.interval = 2 ∧ r.bySetPos = some [1] ∧
        r.days.map DayEntry.day = [.sunday, .saturday] ∧ r.weekStart = some .monday) :=
    exists_ok_of_any (by decide +kernel)
  refine ⟨⟨r, hread, hr⟩, fun h => ?_, asciiParts_of_readRule {} none hread⟩
  exact absurd (h kelvinSign (by decide)) (by decide)

/-- A frequency that is read, with the Kelvin sign in the place of its K. -/
def kelvinWeekly : String := "FREQ=WEE\u212aLY"

/-- So what is read is not always in ASCII. -/
theorem Session.kelvinWeekly_read :
    (∃ r, readRule {} none (some kelvinWeekly) = .ok r ∧ r.frequency = .weekly) ∧
    ∃ word, (Fields.ofText kelvinWeekly.toList).value? "FREQ" = some word ∧
      ∃ item ∈ Rule.listItems word, ¬IsAscii item := by
  have hword : (Fields.ofText kelvinWeekly.toList).value? "FREQ"
      = some ['W', 'E', 'E', kelvinSign, 'L', 'Y'] := by decide +kernel
  have hitem : ['W', 'E', 'E', kelvinSign, 'L', 'Y']
      ∈ Rule.listItems ['W', 'E', 'E', kelvinSign, 'L', 'Y'] := by decide +kernel
  refine ⟨exists_ok_of_any (by decide +kernel), _, hword, _, hitem, fun h => ?_⟩
  exact absurd (h kelvinSign (by decide)) (by decide)

end RecurringEvents
