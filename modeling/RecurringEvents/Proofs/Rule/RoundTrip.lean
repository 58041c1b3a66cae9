import RecurringEvents.Proofs.Moment.Floating
import RecurringEvents.Proofs.Rule.Fields
import RecurringEvents.Proofs.Rule.Values
import RecurringEvents.Proofs.Zone.Reading

/-!
# Rules are read back

A rule is written and read again. The text keeps all fields but the excluded and the added
occurrences; empty lists come back as absent, and the last moment comes back in UTC, at the same
instant. The rule that is read has the same text as the one that was written.

The reader takes the fields one by one into a draft. Each field that is written sets its own part of
the draft, so that the draft is that of the rule which the text stands for (`Rule.written`).

* `takeAll_fields`: the draft that the fields of a rule give.
* `ofText_fields`: the fields are found in the text.
* `exists_read_text`: a rule is read back.
-/

namespace RecurringEvents

open Text

/-- A list, unless it is empty. -/
def unlessEmpty {α : Type} (l : List α) : Option (List α) := if l.isEmpty then none else some l

theorem getD_unlessEmpty {α : Type} (l : List α) : (unlessEmpty l).getD [] = l := by
  cases l <;> rfl

/-- What the items of a list are, they are still if the list is left out when it is empty. -/
theorem forall_mem_unlessEmpty {α : Type} {p : α → Prop} {o : Option (List α)}
    (h : ∀ l ∈ o, ∀ a ∈ l, p a) : ∀ l ∈ unlessEmpty (o.getD []), ∀ a ∈ l, p a := by
  intro l hl a ha
  cases o with
  | none => cases hl
  | some l' =>
    cases l' with
    | nil => cases hl
    | cons b bs =>
      cases hl
      exact h _ rfl a ha

namespace Rule

/-! ## The rule that a text stands for -/

/-- What is left of a rule in its text, when `last` is its last moment on the wall of UTC. -/
def written (r : Rule) (last : Option Wall) (h : ∀ w ∈ last, w.time.micro = 0) : Rule where
  frequency := r.frequency
  interval := r.interval
  count := r.count
  lastMoment := last.map fun w => .ofUtc { w with pass := .first }
  byDay := unlessEmpty r.days
  byMonthDay := unlessEmpty r.monthDays
  byMonth := unlessEmpty r.months
  bySetPos := unlessEmpty r.setPositions
  weekStart := r.weekStart
  interval_pos := r.interval_pos
  count_pos := r.count_pos
  lastMoment_whole := by
    intro m hm
    obtain ⟨w, hw, rfl⟩ := Option.map_eq_some_iff.1 hm
    exact h w hw
  byMonthDay_valid := forall_mem_unlessEmpty r.byMonthDay_valid
  byMonth_valid := forall_mem_unlessEmpty r.byMonth_valid
  bySetPos_valid := forall_mem_unlessEmpty r.bySetPos_valid

/-- Two rules say the same, as far as a text can: all fields but those of excluded and added
occurrences, where an empty list is as good as none. -/
structure ReadsAs (r s : Rule) : Prop where
  frequency : s.frequency = r.frequency
  interval : s.interval = r.interval
  count : s.count = r.count
  weekStart : s.weekStart = r.weekStart
  byDay : s.byDay = unlessEmpty r.days
  byMonthDay : s.byMonthDay = unlessEmpty r.monthDays
  byMonth : s.byMonth = unlessEmpty r.months
  bySetPos : s.bySetPos = unlessEmpty r.setPositions
  lastMoment : s.lastMoment.map Moment.instant = r.lastMoment.map Moment.instant
  exdates : s.exdates = none
  rdates : s.rdates = none

variable {r : Rule} {last : Option Wall}

/-- The rule that is left has the fields of the one it is left of. -/
theorem fields_written (h : ∀ w ∈ last, w.time.micro = 0) (text : Option (List Char)) :
    (r.written last h).fields text = r.fields text := by
  have hdays : (r.written last h).days = r.days := getD_unlessEmpty r.days
  have hmonthDays : (r.written last h).monthDays = r.monthDays := getD_unlessEmpty r.monthDays
  have hmonths : (r.written last h).months = r.months := getD_unlessEmpty r.months
  have hsetPositions : (r.written last h).setPositions = r.setPositions :=
    getD_unlessEmpty r.setPositions
  simp only [fields, hdays, hmonthDays, hmonths, hsetPositions]
  rfl

/-! ## Taking fields -/

section Taking

variable (zone : Zone) (d : RuleDraft)

/-- Takes fields into a draft, one after the other. -/
def takeAll (zone : Zone) (d : RuleDraft) (fs : Fields) : Except ReadCause RuleDraft :=
  fs.foldlM (fun d f => readField zone d f.1 f.2) d

variable {zone d}

theorem takeAll_append {d₁ d₂ : RuleDraft} {fs gs : Fields} (h : takeAll zone d fs = .ok d₁)
    (h' : takeAll zone d₁ gs = .ok d₂) : takeAll zone d (fs ++ gs) = .ok d₂ := by
  rw [takeAll, List.foldlM_append]
  exact bind_eq_ok_iff.2 ⟨d₁, h, h'⟩

/-- A field that may be left out is taken, or the draft stays as it is. -/
theorem takeAll_fieldUnless {absent : Bool} {key : String} {value : List Char} {d' : RuleDraft}
    (h : absent = true → d' = d)
    (h' : absent = false → readField zone d key.toList value = .ok d') :
    takeAll zone d (fieldUnless absent key value) = .ok d' := by
  cases absent with
  | true =>
    rw [h rfl]
    rfl
  | false =>
    rw [takeAll, fieldUnless, if_neg (by decide), List.foldlM_cons]
    exact bind_eq_ok_iff.2 ⟨d', h' rfl, rfl⟩

theorem takeAll_frequency (zone : Zone) (d : RuleDraft) (word : List Char) :
    takeAll zone d (fieldUnless false "FREQ" word) = .ok d := by
  refine takeAll_fieldUnless (fun h => by cases h) fun _ => ?_
  rw [readField, if_neg (by decide), if_neg (by decide), if_neg (by decide), if_neg (by decide),
    if_neg (by decide), if_neg (by decide), if_neg (by decide), if_neg (by decide)]
  rfl

theorem takeAll_interval (hd : d.interval = none)
    (h : (integer r.interval).length ≤ digitLimit) :
    takeAll zone d (fieldUnless (r.interval = 1) "INTERVAL" (integer r.interval))
      = .ok { d with interval := if r.interval = 1 then none else some r.interval } := by
  by_cases h1 : r.interval = 1
  · refine takeAll_fieldUnless (fun _ => ?_) (fun h => by simp [h1] at h)
    rw [if_pos h1, ← hd]
  · refine takeAll_fieldUnless (fun h => by simp [h1] at h) fun _ => ?_
    rw [readField, if_pos rfl, readPositive_integer _ r.interval_pos h, if_neg h1]
    rfl

theorem takeAll_count (hd : d.count = none)
    (h : ∀ n ∈ r.count, (integer n).length ≤ digitLimit) :
    takeAll zone d (fieldUnless r.count.isNone "COUNT" (integer (r.count.getD 0)))
      = .ok { d with count := r.count } := by
  have hpos := r.count_pos
  generalize r.count = count at h hpos
  cases count with
  | none => exact takeAll_fieldUnless (fun _ => by rw [← hd]) (fun h => by cases h)
  | some n =>
    refine takeAll_fieldUnless (fun h => by cases h) fun _ => ?_
    rw [Option.getD_some, readField, if_neg (by decide), if_pos rfl,
      readPositive_integer _ (hpos n rfl) (h n rfl)]
    rfl

theorem takeAll_lastMoment (hd : d.lastMoment = none)
    (h : ∀ w ∈ last, 1000 ≤ w.date.year ∧ w.time.micro = 0) :
    takeAll zone d (fieldUnless (last.map Token.ofWall).isNone "UNTIL"
        ((last.map Token.ofWall).getD []))
      = .ok { d with
          lastMoment := last.map fun w => ⟨{ w with pass := .first }, some .utc⟩ } := by
  cases last with
  | none => exact takeAll_fieldUnless (fun _ => by rw [Option.map_none, ← hd]) (fun h => by cases h)
  | some w =>
    obtain ⟨hy, ht⟩ := h w rfl
    refine takeAll_fieldUnless (fun h => by cases h) fun _ => ?_
    rw [Option.map_some, Option.getD_some, readField, if_neg (by decide), if_neg (by decide),
      if_pos rfl, readLastMoment_ofWall zone hy ht]
    rfl

theorem takeAll_days (hd : d.byDay = none) (es : List DayEntry) :
    takeAll zone d (fieldUnless es.isEmpty "BYDAY" (commaList (es.map DayEntry.text)))
      = .ok { d with byDay := (unlessEmpty es).map (·.map DayDraft.ofEntry) } := by
  cases es with
  | nil =>
    refine takeAll_fieldUnless (fun _ => ?_) (fun h => by cases h)
    show { d with byDay := none } = d
    rw [← hd]
  | cons e es =>
    refine takeAll_fieldUnless (fun h => by cases h) fun _ => ?_
    rw [readField, if_neg (by decide), if_neg (by decide), if_neg (by decide), if_pos rfl,
      readDays_commaList _ (List.cons_ne_nil e es)]
    rfl

theorem takeAll_weekStart (hd : d.weekStart = none) (day : Option Weekday) :
    takeAll zone d (fieldUnless day.isNone "WKST" ((day.map fun d => d.code.toList).getD []))
      = .ok { d with weekStart := day.map Weekday.code } := by
  cases day with
  | none => exact takeAll_fieldUnless (fun _ => by rw [Option.map_none, ← hd]) (fun h => by cases h)
  | some w =>
    refine takeAll_fieldUnless (fun h => by cases h) fun _ => ?_
    rw [readField, if_neg (by decide), if_neg (by decide), if_neg (by decide), if_neg (by decide),
      if_neg (by decide), if_neg (by decide), if_neg (by decide), if_pos rfl, Option.map_some,
      Option.getD_some, readWeekday_code]
    rfl

theorem readField_monthDays (d : RuleDraft) (value : List Char) (ns : List Int)
    (h : readIntegers "BYMONTHDAY".toList value = .ok ns) :
    readField zone d "BYMONTHDAY".toList value = .ok { d with byMonthDay := some ns } := by
  rw [readField, if_neg (by decide), if_neg (by decide), if_neg (by decide), if_neg (by decide),
    if_pos rfl, h]
  rfl

theorem readField_months (d : RuleDraft) (value : List Char) (ns : List Int)
    (h : readIntegers "BYMONTH".toList value = .ok ns) :
    readField zone d "BYMONTH".toList value = .ok { d with byMonth := some ns } := by
  rw [readField, if_neg (by decide), if_neg (by decide), if_neg (by decide), if_neg (by decide),
    if_neg (by decide), if_pos rfl, h]
  rfl

theorem readField_setPositions (d : RuleDraft) (value : List Char) (ns : List Int)
    (h : readIntegers "BYSETPOS".toList value = .ok ns) :
    readField zone d "BYSETPOS".toList value = .ok { d with bySetPos := some ns } := by
  rw [readField, if_neg (by decide), if_neg (by decide), if_neg (by decide), if_neg (by decide),
    if_neg (by decide), if_neg (by decide), if_pos rfl, h]
  rfl

/-- A list of numbers is taken to the part of the draft that its key stands for. -/
theorem takeAll_numbers {key : String} (set : RuleDraft → Option (List Int) → RuleDraft)
    (hread : ∀ d value ns, readIntegers key.toList value = .ok ns →
      readField zone d key.toList value = .ok (set d (some ns)))
    (hd : set d none = d) {limit : Int} (hlimit : limit < 1000) {ns : Option (List Int)}
    (h : ∀ l ∈ ns, ∀ n ∈ l, InSignedRange limit n) :
    takeAll zone d (fieldUnless (ns.getD []).isEmpty key (commaList ((ns.getD []).map integer)))
      = .ok (set d (unlessEmpty (ns.getD []))) := by
  have hshort := forall_mem_unlessEmpty h
  generalize ns.getD [] = ns at hshort
  cases ns with
  | nil => exact takeAll_fieldUnless (fun _ => hd) (fun h => by cases h)
  | cons n ns =>
    refine takeAll_fieldUnless (fun h => by cases h) fun _ => hread d _ _ ?_
    exact readIntegers_commaList _ (List.cons_ne_nil n ns) fun m hm =>
      length_integer_le hlimit (hshort _ rfl m hm)

/-- **The fields of a rule give the draft of the rule that they stand for.** -/
theorem takeAll_fields (hinterval : (integer r.interval).length ≤ digitLimit)
    (hcount : ∀ n ∈ r.count, (integer n).length ≤ digitLimit)
    (hlast : ∀ w ∈ last, 1000 ≤ w.date.year ∧ w.time.micro = 0) :
    takeAll zone { frequency := some r.frequency.word } (r.fields (last.map Token.ofWall))
      = .ok { RuleDraft.ofRule (r.written last fun w hw => (hlast w hw).2) with
          interval := if r.interval = 1 then none else some r.interval } := by
  have hmonths : ∀ l ∈ r.byMonth, ∀ n ∈ l, InSignedRange 12 n := by
    intro l hl n hn
    obtain ⟨h1, h2⟩ := r.byMonth_valid l hl n hn
    exact ⟨by omega, by omega, h2⟩
  -- the fields in the order in which they are written
  have h0 := takeAll_frequency zone { frequency := some r.frequency.word }
    (frequencyText r.frequency)
  have h1 := takeAll_append h0 (takeAll_interval rfl hinterval)
  have h2 := takeAll_append h1 (takeAll_count rfl hcount)
  have h3 := takeAll_append h2 (takeAll_lastMoment rfl hlast)
  have h4 := takeAll_append h3 (takeAll_days rfl r.days)
  have h5 := takeAll_append h4 (takeAll_numbers (fun d ns => { d with byMonthDay := ns })
    readField_monthDays rfl (by decide) r.byMonthDay_valid)
  have h6 := takeAll_append h5 (takeAll_numbers (fun d ns => { d with byMonth := ns })
    readField_months rfl (by decide) hmonths)
  have h7 := takeAll_append h6 (takeAll_numbers (fun d ns => { d with bySetPos := ns })
    readField_setPositions rfl (by decide) r.bySetPos_valid)
  have h8 := takeAll_append h7 (takeAll_weekStart rfl r.weekStart)
  rw [fields]
  refine h8.trans ?_
  cases last with
  | none => rfl
  | some w => rfl

end Taking

/-! ## Finding the fields in the text -/

/-- The keys that are written, in their order. -/
def keys : List String :=
  ["FREQ", "INTERVAL", "COUNT", "UNTIL", "BYDAY", "BYMONTHDAY", "BYMONTH", "BYSETPOS", "WKST"]

theorem mem_fieldUnless {absent : Bool} {key : String} {value : List Char}
    {f : List Char × List Char} (h : f ∈ fieldUnless absent key value) :
    absent = false ∧ f = (key.toList, value) := by
  cases absent with
  | true => cases h
  | false => exact ⟨rfl, List.mem_singleton.1 h⟩

theorem map_fieldUnless (absent : Bool) (key : String) (value : List Char) :
    ((fieldUnless absent key value).map Prod.fst).Sublist [key.toList] := by
  cases absent with
  | true => exact List.nil_sublist _
  | false => exact List.Sublist.refl _

/-- The keys are written in their order. -/
theorem keys_fields (r : Rule) (text : Option (List Char)) :
    ((r.fields text).map Prod.fst).Sublist (keys.map String.toList) := by
  have hkeys : keys.map String.toList = ["FREQ".toList] ++ ["INTERVAL".toList] ++ ["COUNT".toList]
      ++ ["UNTIL".toList] ++ ["BYDAY".toList] ++ ["BYMONTHDAY".toList] ++ ["BYMONTH".toList]
      ++ ["BYSETPOS".toList] ++ ["WKST".toList] := rfl
  rw [hkeys]
  simp only [fields, List.map_append]
  -- each field has its own key or is left out
  iterate 8 refine List.Sublist.append ?_ (map_fieldUnless _ _ _)
  exact map_fieldUnless _ _ _

theorem mem_valueChars_of_numbers {ns : List Int} :
    ∀ c ∈ commaList (ns.map integer), c ∈ valueChars := by
  refine mem_valueChars_of_mem_commaList fun i hi c hc => ?_
  obtain ⟨n, -, rfl⟩ := List.mem_map.1 hi
  exact mem_valueChars_of_mem_integer hc

/-- The values that are written consist of the characters of values. -/
theorem mem_valueChars_of_mem_fields {f : List Char × List Char}
    (h : f ∈ r.fields (last.map Token.ofWall)) : ∀ c ∈ f.2, c ∈ valueChars := by
  simp only [fields, List.mem_append, or_assoc] at h
  rcases h with h | h | h | h | h | h | h | h | h <;> obtain ⟨habsent, rfl⟩ := mem_fieldUnless h
  · exact mem_valueChars_of_frequency r.frequency
  · exact fun c => mem_valueChars_of_mem_integer
  · exact fun c => mem_valueChars_of_mem_integer
  · cases last with
    | none => cases habsent
    | some w => exact Token.mem_valueChars w
  · refine mem_valueChars_of_mem_commaList fun i hi => ?_
    obtain ⟨e, -, rfl⟩ := List.mem_map.1 hi
    exact e.mem_valueChars
  · exact mem_valueChars_of_numbers
  · exact mem_valueChars_of_numbers
  · exact mem_valueChars_of_numbers
  · cases hw : r.weekStart with
    | none =>
      rw [hw] at habsent
      cases habsent
    | some d => exact d.mem_valueChars

/-- The fields that are written can be read back. -/
theorem plain_of_mem_fields {f : List Char × List Char}
    (h : f ∈ r.fields (last.map Token.ofWall)) : Fields.Plain f := by
  have hvalue := mem_valueChars_of_mem_fields h
  have hkey : f.1 ∈ keys.map String.toList :=
    (keys_fields r _).subset (List.mem_map_of_mem h)
  have hplain : ∀ k ∈ keys.map String.toList,
      k ≠ [] ∧ upper (trim k) = k ∧ '=' ∉ k ∧ ';' ∉ k := by decide
  obtain ⟨hne, hupper, hcut, hend⟩ := hplain f.1 hkey
  exact ⟨hne, hupper, hcut, hend, trim_of_valueChars hvalue, semicolon_not_mem hvalue⟩

/-- The first field is that of the frequency. -/
theorem fields_eq_cons (r : Rule) (text : Option (List Char)) :
    ∃ fs, r.fields text = ("FREQ".toList, frequencyText r.frequency) :: fs := by
  simp only [fields, List.append_assoc]
  exact ⟨_, rfl⟩

/-- A rule text without the mark begins with the F of its first key. -/
theorem fieldsText_fields (r : Rule) (text : Option (List Char)) :
    ∃ s, fieldsText (r.fields text) = 'F' :: s := by
  obtain ⟨fs, hfs⟩ := fields_eq_cons r text
  rw [hfs]
  cases fs with
  | nil => exact ⟨_, rfl⟩
  | cons g gs => exact ⟨_, rfl⟩

/-- **The fields of a rule are found in its text**, with and without the mark. -/
theorem ofText_fields (r : Rule) (last : Option Wall) (marked : Bool) :
    Fields.ofText ((if marked then Fields.mark else [])
        ++ fieldsText (r.fields (last.map Token.ofWall)))
      = r.fields (last.map Token.ofWall) := by
  have hplain : ∀ f ∈ r.fields (last.map Token.ofWall), Fields.Plain f :=
    fun f hf => plain_of_mem_fields hf
  have hput : (r.fields (last.map Token.ofWall)).foldl (fun acc f => Fields.put f.1 f.2 acc) []
      = r.fields (last.map Token.ofWall) := by
    rw [Fields.foldl_put_append, List.nil_append]
    exact (keys_fields r _).nodup (by decide)
  cases marked with
  | true => rw [if_pos rfl, Fields.ofText_mark_append hplain, hput]
  | false =>
    obtain ⟨s, hs⟩ := fieldsText_fields r (last.map Token.ofWall)
    have htrim : trim (fieldsText (r.fields (last.map Token.ofWall)))
        = fieldsText (r.fields (last.map Token.ofWall)) := by
      refine trim_eq_self_iff.2 ⟨fun c hc => ?_, Fields.getLast?_fieldsText hplain⟩
      rw [hs] at hc
      cases hc
      rfl
    -- an F is no R
    have hmark : Fields.mark.isPrefixOf (upper (fieldsText (r.fields (last.map Token.ofWall))))
        = false := by
      rw [hs, upper_cons]
      rfl
    rw [if_neg (by decide), List.nil_append, Fields.ofText_fieldsText hplain htrim hmark, hput]

/-! ## Writing and reading -/

/-- The last moment of a rule in UTC: it is what the text shows of it, and denotes the same
instant. -/
theorem exists_last (r : Rule)
    (h : ∀ m ∈ r.lastMoment, ∃ u, m.inUtc = .ok u ∧ 1000 ≤ u.wall.date.year) :
    ∃ last : Option Wall, (∀ w ∈ last, 1000 ≤ w.date.year ∧ w.time.micro = 0) ∧
      r.lastMoment.mapM Token.write = .ok (last.map Token.ofWall) ∧
      last.map Wall.count = r.lastMoment.map Moment.instant := by
  have hwhole := r.lastMoment_whole
  generalize r.lastMoment = lastMoment at h hwhole
  cases lastMoment with
  | none => exact ⟨none, forall_mem_none, rfl, rfl⟩
  | some m =>
    obtain ⟨u, hu, hy⟩ := h m rfl
    have hwrite : Token.write m = .ok (Token.ofWall u.wall) := by
      rw [Token.write, hu]
      rfl
    refine ⟨some u.wall, fun w hw => ?_, ?_, ?_⟩
    · cases hw
      exact ⟨hy, Moment.micro_of_inZone hu (hwhole m rfl)⟩
    · exact bind_eq_ok_iff.2 ⟨_, hwrite, rfl⟩
    · rw [Option.map_some, Option.map_some, (Moment.count_of_inUtc hu).2]

/-- A text of which nothing is left when it is trimmed has no fields. -/
theorem ofText_of_trim {s : List Char} (h : trim s = []) : Fields.ofText s = [] := by
  simp only [Fields.ofText, Fields.body, h]
  rfl

theorem readFrequency_fields (r : Rule) (text : Option (List Char)) :
    readFrequency (r.fields text) = .ok r.frequency := by
  obtain ⟨fs, hfs⟩ := fields_eq_cons r text
  have hword := ofWord?_lower_text r.frequency
  have hne : frequencyText r.frequency ≠ [] := by cases r.frequency <;> decide
  rw [readFrequency, hfs, Fields.value?, List.lookup_cons_self]
  simp only [hne, if_false, hword]

/-- **The text of a rule is read as what is left of the rule.** -/
theorem read_fieldsText (zone : Zone) (marked : Bool)
    (hinterval : (integer r.interval).length ≤ digitLimit)
    (hcount : ∀ n ∈ r.count, (integer n).length ≤ digitLimit)
    (hlast : ∀ w ∈ last, 1000 ≤ w.date.year ∧ w.time.micro = 0) :
    read zone ((if marked then Fields.mark else [])
        ++ fieldsText (r.fields (last.map Token.ofWall)))
      = .ok (r.written last fun w hw => (hlast w hw).2) := by
  have hfields := ofText_fields r last marked
  have hdefault : (if r.interval = 1 then none else some r.interval).getD 1 = r.interval := by
    split
    · next h1 => exact h1.symm
    · rfl
  have hcheck := RuleDraft.check_ofRule (r.written last fun w hw => (hlast w hw).2) _ hdefault
  have hread : ofFields zone (r.fields (last.map Token.ofWall))
      = .ok (r.written last fun w hw => (hlast w hw).2) := by
    refine bind_eq_ok_iff.2 ⟨r.frequency, readFrequency_fields r _, ?_⟩
    refine bind_eq_ok_iff.2 ⟨_, takeAll_fields hinterval hcount hlast, ?_⟩
    rw [hcheck]
    rfl
  rw [read, if_neg, hfields, hread]
  -- a blank text has no fields, but the frequency is always written
  intro hblank
  obtain ⟨fs, hfs⟩ := fields_eq_cons r (last.map Token.ofWall)
  rw [ofText_of_trim hblank, hfs] at hfields
  cases hfields

/-- **A rule is read back from its text**, with and without the mark, whatever the zone in which
times without a zone are read. It comes back with all its fields but the excluded and the added
occurrences, and it has the same text. Numbers may not have more digits than are read, and the last
moment has a year of four digits in UTC. -/
theorem exists_read_text (r : Rule) (zone : Zone) (marked : Bool)
    (hinterval : (integer r.interval).length ≤ digitLimit)
    (hcount : ∀ n ∈ r.count, (integer n).length ≤ digitLimit)
    (hlast : ∀ m ∈ r.lastMoment, ∃ u, m.inUtc = .ok u ∧ 1000 ≤ u.wall.date.year) :
    ∃ text s, r.text marked = .ok text ∧ read zone text = .ok s ∧ r.ReadsAs s ∧
      s.text marked = .ok text := by
  obtain ⟨last, hwall, hwrite, hinstant⟩ := exists_last r hlast
  have hagain : (r.written last fun w hw => (hwall w hw).2).lastMoment.mapM Token.write
      = .ok (last.map Token.ofWall) := by
    cases last with
    | none => rfl
    | some w => rfl
  refine ⟨_, r.written last fun w hw => (hwall w hw).2, bind_eq_ok_iff.2 ⟨_, hwrite, rfl⟩,
    read_fieldsText zone marked hinterval hcount hwall, ?_, bind_eq_ok_iff.2 ⟨_, hagain, ?_⟩⟩
  · refine ⟨rfl, rfl, rfl, rfl, rfl, rfl, rfl, rfl, ?_, rfl, rfl⟩
    rw [← hinstant]
    cases last with
    | none => rfl
    | some w => exact congrArg some (Moment.instant_ofUtc _)
  · rw [fields_written]
    rfl

/-- The second Monday and the last Friday but one of every other year, until the end of a year one
hour east of Greenwich. -/
def everyOtherYear : Rule :=
  { every .yearly with
    interval := 2
    lastMoment := some ⟨⟨⟨2025, 12, 31, by decide⟩, ⟨86340000000, by decide, by decide⟩, .first⟩,
      .fixed 3600⟩
    byDay := some [{ day := .monday, position := some 2 },
      { day := .friday, position := some (-2) }]
    byMonth := some []
    weekStart := some .sunday
    interval_pos := by decide
    lastMoment_whole := by decide
    byMonth_valid := by decide }

/-- That rule is read back. -/
theorem everyOtherYear_readsAs : ∃ text s, everyOtherYear.text true = .ok text ∧
    read .utc text = .ok s ∧ everyOtherYear.ReadsAs s ∧ s.text true = .ok text := by
  refine exists_read_text everyOtherYear .utc true (by decide +kernel) (by decide +kernel) ?_
  intro m hm
  cases hm
  exact ⟨⟨⟨⟨2025, 12, 31, by decide⟩, ⟨82740000000, by decide, by decide⟩, .first⟩, .utc⟩, rfl,
    by decide⟩

example : everyOtherYear.text.toOption
    = some "RRULE:FREQ=YEARLY;INTERVAL=2;UNTIL=20251231T225900Z;BYDAY=2MO,-2FR;WKST=SU".toList := by
  decide +kernel

end Rule

end RecurringEvents
