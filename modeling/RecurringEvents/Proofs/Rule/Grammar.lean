import RecurringEvents.Proofs.Moment.Floating
import RecurringEvents.Proofs.Rule.Items
import RecurringEvents.Proofs.Rule.Segments

/-!
# The grammar of rule texts

Which ASCII texts are rules, and which rules they are, told without the reader. The body of a text
is cut at the semicolons; the last segment with a key gives its value. A text is a rule if it names
a frequency and every other key that is known has a proper value, and the rule has these values and
nothing else.

* `says_iff`: the value of a key is the one that the reader finds.
* `readValue_of_writes`, `exists_of_readValue`: the values that the reader takes.
* `Session.readRule_iff_denotes`: the reader takes these texts and no others, as these rules.
-/

namespace RecurringEvents

open Text

namespace Grammar

/-! ## Keys and their values -/

/-- The body of a text: what is left of the trimmed text when the mark is taken off, if there is one
in any case. -/
inductive IsBody (text : List Char) : List Char → Prop where
  | marked {m body : List Char} (h : trim text = m ++ body) (hm : IsInAnyCase Fields.mark m) :
      IsBody text body
  | unmarked (h : ∀ m body, trim text = m ++ body → ¬IsInAnyCase Fields.mark m) :
      IsBody text (trim text)

/-- Whether a segment sets a key: what stands before its first `=` is the key, trimmed and in any
case, and what stands behind it is the value, trimmed. -/
def Sets (segment key value : List Char) : Prop :=
  ∃ k v, segment = k ++ '=' :: v ∧ '=' ∉ k ∧ IsInAnyCase key (trim k) ∧ key ≠ [] ∧ value = trim v

/-- Whether a text says what the value of a key is: the last segment of its body that sets the key
sets it to this value. -/
def Says (text key value : List Char) : Prop :=
  ∃ body before segment after, IsBody text body ∧ splitOn ';' body = before ++ segment :: after ∧
    Sets segment key value ∧ ∀ s ∈ after, ∀ v, ¬Sets s key v

/-! ## Rules -/

/-- A frequency as it is written in capital letters. -/
def frequencyWord : Frequency → List Char
  | .daily => "DAILY".toList | .weekly => "WEEKLY".toList | .monthly => "MONTHLY".toList
  | .yearly => "YEARLY".toList

/-- What the value of a key stands for. -/
abbrev Meaning : FieldKey → Type
  | .interval | .count => Int
  | .lastMoment => Moment
  | .byDay => List DayEntry
  | .byMonthDay | .byMonth | .bySetPos => List Int
  | .weekStart => Weekday

/-- How the value of a key is written. -/
def Writes (zone : Zone) : (k : FieldKey) → List Char → Meaning k → Prop
  | .interval, value, n | .count, value, n => Numeral 4300 value n
  | .lastMoment, value, m => Token.read value zone = .ok m
  | .byDay, value, es => Lists DayItem value es
  | .byMonthDay, value, ns | .byMonth, value, ns | .bySetPos, value, ns =>
    Lists (Numeral 4300) value ns
  | .weekStart, value, day => IsInAnyCase day.code.toList value

/-- Which values of a key are in range. -/
def InRange : (k : FieldKey) → Meaning k → Prop
  | .interval, n | .count, n => 1 ≤ n
  | .byMonthDay, ns => ∀ n ∈ ns, InSignedRange 31 n
  | .byMonth, ns => ∀ n ∈ ns, IsMonth n
  | .bySetPos, ns => ∀ n ∈ ns, InSignedRange 366 n
  | .lastMoment, _ | .byDay, _ | .weekStart, _ => True

/-- What a rule has where a key has a value, and its default where the key has none. -/
def Has (r : Rule) : (k : FieldKey) → Option (Meaning k) → Prop
  | .interval, n => r.interval = n.getD 1
  | .count, n => r.count = n
  | .lastMoment, m => r.lastMoment = m
  | .byDay, es => r.byDay = es
  | .byMonthDay, ns => r.byMonthDay = ns
  | .byMonth, ns => r.byMonth = ns
  | .bySetPos, ns => r.bySetPos = ns
  | .weekStart, day => r.weekStart = day

/-- What a text says of a key: nothing, or a proper value. -/
inductive SaysOf (zone : Zone) (text : List Char) (k : FieldKey) : Option (Meaning k) → Prop where
  | absent (h : ∀ value, ¬Says text k.text.toList value) : SaysOf zone text k none
  | present {value : List Char} {a : Meaning k} (h : Says text k.text.toList value)
      (hw : Writes zone k value a) (hr : InRange k a) : SaysOf zone text k (some a)

/-- The rule that a text denotes: it has the frequency and the values that the text says, and
nothing else. -/
structure Denotes (zone : Zone) (text : List Char) (r : Rule) : Prop where
  frequency : ∃ word, Says text "FREQ".toList word ∧ IsInAnyCase (frequencyWord r.frequency) word
  fields : ∀ k, ∃ o, SaysOf zone text k o ∧ Has r k o
  exdates : r.exdates = none
  rdates : r.rdates = none

/-- The texts that are rules: they say a frequency, and what else they say are proper values. -/
structure Accepts (zone : Zone) (text : List Char) : Prop where
  frequency : ∃ f word, Says text "FREQ".toList word ∧ IsInAnyCase (frequencyWord f) word
  values : ∀ (k : FieldKey) value, Says text k.text.toList value →
    ∃ a, Writes zone k value a ∧ InRange k a

/-! ## Finding keys -/

variable {text segment key value : List Char}

/-- A text begins with the mark in any case if its upper case begins with the mark. -/
theorem mark_isPrefixOf_iff {s : List Char} (h : IsAscii s) :
    Fields.mark.isPrefixOf (upper s) = true ↔
      ∃ m body, s = m ++ body ∧ IsInAnyCase Fields.mark m := by
  rw [h.upper_eq, List.isPrefixOf_iff_prefix]
  constructor
  · rintro ⟨t, ht⟩
    obtain ⟨m, body, rfl, hm, -⟩ := List.map_eq_append_iff.1 ht.symm
    exact ⟨m, body, rfl, hm⟩
  · rintro ⟨m, body, rfl, hm⟩
    rw [List.map_append, hm]
    exact List.prefix_append _ _

theorem isBody_iff {body : List Char} (h : IsAscii text) :
    IsBody text body ↔ body = Fields.body text := by
  have hmark := mark_isPrefixOf_iff h.trim
  rw [Fields.body]
  by_cases hm : Fields.mark.isPrefixOf (upper (trim text)) = true
  · rw [if_pos hm]
    -- the mark is as long as what is written for it
    have hdrop : ∀ m body, trim text = m ++ body → IsInAnyCase Fields.mark m →
        body = (trim text).drop Fields.mark.length := by
      intro m body htrim hword
      have hlength : m.length = Fields.mark.length := by rw [← hword, List.length_map]
      rw [htrim, ← hlength, List.drop_left]
    obtain ⟨m, body', htrim, hword⟩ := hmark.1 hm
    constructor
    · intro hbody
      cases hbody with
      | marked htrim' hword' => exact hdrop _ _ htrim' hword'
      | unmarked hno => exact absurd hword (hno m body' htrim)
    · rintro rfl
      rw [← hdrop m body' htrim hword]
      exact .marked htrim hword
  · rw [if_neg hm]
    have hno : ∀ m body, trim text = m ++ body → ¬IsInAnyCase Fields.mark m :=
      fun m body htrim hword => hm (hmark.2 ⟨m, body, htrim, hword⟩)
    constructor
    · intro hbody
      cases hbody with
      | marked htrim' hword' => exact absurd hword' (hno _ _ htrim')
      | unmarked => rfl
    · rintro rfl
      exact .unmarked hno

theorem sets_iff (h : IsAscii segment) :
    Sets segment key value ↔ Fields.ofSegment? segment = some (key, value) := by
  constructor
  · rintro ⟨k, v, rfl, hk, hkey, hne, rfl⟩
    have hupper : upper (trim k) = key := by
      rw [IsAscii.upper_eq (isAscii_append.1 h).1.trim]
      exact hkey
    simp only [Fields.ofSegment?, cut?_append hk, hupper, if_neg hne]
  · intro hset
    unfold Fields.ofSegment? at hset
    split at hset
    · cases hset
    · next k v hcut =>
      obtain ⟨rfl, hk⟩ := eq_of_cut? hcut
      simp only at hset
      split at hset
      · cases hset
      · next hne =>
        cases hset
        rw [IsAscii.upper_eq (isAscii_append.1 h).1.trim] at hne ⊢
        exact ⟨k, v, rfl, hk, rfl, hne, rfl⟩

theorem lastValue?_singleton_eq_some_iff {s : Segment} :
    Fields.lastValue? key [s] = some value ↔ Fields.ofSegment? s = some (key, value) := by
  cases hs : Fields.ofSegment? s with
  | none => simp [Fields.lastValue?, hs]
  | some f =>
    obtain ⟨k, v⟩ := f
    by_cases hk : key = k
    · subst hk
      simp [Fields.lastValue?, hs]
    · simp [Fields.lastValue?, hs, hk, Ne.symm hk]

theorem lastValue?_eq_none_iff {ss : List Segment} (h : ∀ s ∈ ss, IsAscii s) :
    Fields.lastValue? key ss = none ↔ ∀ s ∈ ss, ∀ v, ¬Sets s key v := by
  induction ss with
  | nil => simp [Fields.lastValue?]
  | cons s ss ih =>
    rw [List.forall_mem_cons] at h
    obtain ⟨hs, hss⟩ := h
    rw [Fields.lastValue?_cons, Option.or_eq_none_iff, ih hss, List.forall_mem_cons, and_comm,
      Option.eq_none_iff_forall_ne_some]
    simp only [ne_eq, lastValue?_singleton_eq_some_iff, sets_iff hs]

/-- The last value of a key is that of a segment behind which no segment sets the key. -/
theorem lastValue?_eq_some_iff {ss : List Segment} (h : ∀ s ∈ ss, IsAscii s) :
    Fields.lastValue? key ss = some value ↔ ∃ before segment after,
      ss = before ++ segment :: after ∧ Sets segment key value ∧
        ∀ s ∈ after, ∀ v, ¬Sets s key v := by
  constructor
  · intro hv
    induction ss with
    | nil => cases hv
    | cons s ss ih =>
      rw [List.forall_mem_cons] at h
      obtain ⟨hs, hss⟩ := h
      rw [Fields.lastValue?_cons, Option.or_eq_some_iff] at hv
      rcases hv with hv | ⟨hlater, hv⟩
      · obtain ⟨before, segment, after, rfl, hset, hnone⟩ := ih hss hv
        exact ⟨s :: before, segment, after, rfl, hset, hnone⟩
      · exact ⟨[], s, ss, rfl, (sets_iff hs).2 (lastValue?_singleton_eq_some_iff.1 hv),
          (lastValue?_eq_none_iff hss).1 hlater⟩
  · rintro ⟨before, segment, after, rfl, hset, hnone⟩
    obtain ⟨-, hlater⟩ := List.forall_mem_append.1 h
    rw [List.forall_mem_cons] at hlater
    obtain ⟨hsegment, hafter⟩ := hlater
    rw [Fields.lastValue?_append, Fields.lastValue?_cons, (lastValue?_eq_none_iff hafter).2 hnone,
      lastValue?_singleton_eq_some_iff.2 ((sets_iff hsegment).1 hset)]
    rfl

/-- **What a text says is what the reader finds.** -/
theorem says_iff (h : IsAscii text) :
    Says text key value ↔ (Fields.ofText text).lookup key = some value := by
  have hbody : IsAscii (Fields.body text) := by
    unfold Fields.body
    simp only
    split
    · exact h.trim.drop _
    · exact h.trim
  rw [Fields.ofText_eq, Fields.lookup_ofSegments,
    lastValue?_eq_some_iff fun s hs => hbody.of_mem_splitOn hs]
  constructor
  · rintro ⟨body, before, segment, after, hb, hsplit, hset, hlater⟩
    rw [(isBody_iff h).1 hb] at hsplit
    exact ⟨before, segment, after, hsplit, hset, hlater⟩
  · rintro ⟨before, segment, after, hsplit, hset, hlater⟩
    exact ⟨_, before, segment, after, (isBody_iff h).2 rfl, hsplit, hset, hlater⟩

theorem Says.unique {value' : List Char} (ht : IsAscii text) (h : Says text key value)
    (h' : Says text key value') : value' = value :=
  Option.some.inj (((says_iff ht).1 h').symm.trans ((says_iff ht).1 h))

/-- What a text says is a part of it, and trimmed. -/
theorem Says.isAscii (ht : IsAscii text) (h : Says text key value) :
    IsAscii value ∧ trim value = value := by
  obtain ⟨body, before, segment, after, hb, hsplit, ⟨k, v, rfl, -, -, -, rfl⟩, -⟩ := h
  have hbody : IsAscii body := by
    cases hb with
    | marked htrim _ =>
      have hboth := ht.trim
      rw [htrim] at hboth
      exact (isAscii_append.1 hboth).2
    | unmarked => exact ht.trim
  have hsegment : IsAscii (k ++ '=' :: v) := hbody.of_mem_splitOn (by rw [hsplit]; simp)
  have hv : IsAscii v := fun c hc =>
    (isAscii_append.1 hsegment).2 c (List.mem_cons_of_mem _ hc)
  exact ⟨hv.trim, trim_trim v⟩

/-! ## Reading values -/

variable {zone : Zone} {k : FieldKey} {d : RuleDraft} {r : Rule}

/-- What a draft holds for a value. -/
def toDraft : (k : FieldKey) → Meaning k → k.Value
  | .interval, n | .count, n => n
  | .lastMoment, m => ⟨m.wall, some m.zone⟩
  | .byDay, es => es.map DayDraft.ofEntry
  | .byMonthDay, ns | .byMonth, ns | .bySetPos, ns => ns
  | .weekStart, day => day.code

/-- Proper values are read. -/
theorem readValue_of_writes {a : Meaning k} (hv : IsAscii value ∧ trim value = value)
    (hw : Writes zone k value a) (hr : InRange k a) :
    k.readValue zone value = .ok (toDraft k a) := by
  obtain ⟨hascii, htrim⟩ := hv
  cases k with
  | interval => exact readPositive_eq_ok_iff.2 ⟨hw, hr⟩
  | count => exact readPositive_eq_ok_iff.2 ⟨hw, hr⟩
  | lastMoment =>
    have hread : Token.read value zone = .ok a := hw
    rw [FieldKey.readValue, Rule.readLastMoment, hread]
    rfl
  | byDay => exact (readDays_eq_ok_iff hascii).2 ⟨a, hw, rfl⟩
  | byMonthDay => exact readIntegers_eq_ok_iff.2 hw
  | byMonth => exact readIntegers_eq_ok_iff.2 hw
  | bySetPos => exact readIntegers_eq_ok_iff.2 hw
  | weekStart =>
    have hday : Rule.readWeekday value = .ok a := by
      rw [readWeekday_eq_ok_iff hascii, htrim]
      exact hw
    exact map_eq_ok_iff.2 ⟨a, hday, rfl⟩

/-- What is read is written as it should be. Its range is looked at later, if at all. -/
theorem exists_of_readValue {b : k.Value} (hv : IsAscii value ∧ trim value = value)
    (h : k.readValue zone value = .ok b) : ∃ a, Writes zone k value a ∧ b = toDraft k a := by
  obtain ⟨hascii, htrim⟩ := hv
  cases k with
  | interval => exact ⟨b, (readPositive_eq_ok_iff.1 h).1, rfl⟩
  | count => exact ⟨b, (readPositive_eq_ok_iff.1 h).1, rfl⟩
  | lastMoment =>
    rw [FieldKey.readValue, Rule.readLastMoment] at h
    split at h
    · next m hread =>
      cases h
      exact ⟨m, hread, rfl⟩
    · cases h
  | byDay => exact (readDays_eq_ok_iff hascii).1 h
  | byMonthDay => exact ⟨b, readIntegers_eq_ok_iff.1 h, rfl⟩
  | byMonth => exact ⟨b, readIntegers_eq_ok_iff.1 h, rfl⟩
  | bySetPos => exact ⟨b, readIntegers_eq_ok_iff.1 h, rfl⟩
  | weekStart =>
    obtain ⟨day, hday, rfl⟩ := map_eq_ok_iff.1 h
    rw [readWeekday_eq_ok_iff hascii, htrim] at hday
    exact ⟨day, hday, rfl⟩

/-! ## Values of drafts and rules -/

/-- The values of a rule are in range. -/
theorem inRange_of_has {a : Meaning k} (h : Has r k (some a)) : InRange k a := by
  cases k with
  | interval =>
    have hn : r.interval = a := h
    exact hn ▸ r.interval_pos
  | count => exact r.count_pos a h
  | byMonthDay => exact r.byMonthDay_valid a h
  | byMonth => exact r.byMonth_valid a h
  | bySetPos => exact r.bySetPos_valid a h
  | lastMoment => trivial
  | byDay => trivial
  | weekStart => trivial

/-- A rule has the default where its draft has nothing. -/
theorem has_none (h : d.IsOf r) (hd : d.get k = none) : Has r k none := by
  cases k with
  | interval => exact h.interval.symm.trans (congrArg (·.getD 1) hd)
  | count => exact h.count.symm.trans hd
  | lastMoment =>
    have hlast : d.lastMoment = none := hd
    have hr := h.lastMoment
    rw [hlast] at hr
    exact hr.symm
  | byDay => exact Option.map_eq_none_iff.1 (h.byDay.symm.trans hd)
  | byMonthDay => exact h.byMonthDay.symm.trans hd
  | byMonth => exact h.byMonth.symm.trans hd
  | bySetPos => exact h.bySetPos.symm.trans hd
  | weekStart => exact Option.map_eq_none_iff.1 (h.weekStart.symm.trans hd)

theorem ofEntry_injective : Function.Injective DayDraft.ofEntry := by
  intro e e' h
  have he := DayDraft.check_ofEntry [] e
  rw [h, DayDraft.check_ofEntry] at he
  exact (Except.ok.inj he).symm

theorem word_injective : Function.Injective Frequency.word := by
  intro f f' h
  have hf := Frequency.ofWord?_word f
  rw [h, Frequency.ofWord?_word] at hf
  exact (Option.some.inj hf).symm

theorem code_injective : Function.Injective Weekday.code := by
  intro day day' h
  have hday := Weekday.ofCode?_code day
  rw [h, Weekday.ofCode?_code] at hday
  exact (Option.some.inj hday).symm

/-- A rule has the values that its draft has. -/
theorem has_some {a : Meaning k} (h : d.IsOf r) (hd : d.get k = some (toDraft k a))
    (hw : Writes zone k value a) : Has r k (some a) := by
  cases k with
  | interval => exact h.interval.symm.trans (congrArg (·.getD 1) hd)
  | count => exact h.count.symm.trans hd
  | lastMoment =>
    have hlast : d.lastMoment = some ⟨a.wall, some a.zone⟩ := hd
    -- the check takes off parts of a second, but a token has none
    have hwhole : ∀ m ∈ some a, m.wall.time.micro = 0 := forall_mem_some (Token.micro_of_read hw)
    have hr := h.lastMoment
    rw [hlast] at hr
    have hmap := RuleDraft.lastMomentOf_map hwhole
    rw [Option.map_some] at hmap
    rw [hmap] at hr
    exact hr.symm
  | byDay =>
    have hmap := h.byDay.symm.trans hd
    obtain ⟨es, hes, heq⟩ := Option.map_eq_some_iff.1 hmap
    exact hes.trans (congrArg some (List.map_injective_iff.2 ofEntry_injective heq))
  | byMonthDay => exact h.byMonthDay.symm.trans hd
  | byMonth => exact h.byMonth.symm.trans hd
  | bySetPos => exact h.bySetPos.symm.trans hd
  | weekStart =>
    have hmap := h.weekStart.symm.trans hd
    obtain ⟨day, hday, heq⟩ := Option.map_eq_some_iff.1 hmap
    exact hday.trans (congrArg some (code_injective heq))

/-- The draft that has what a text says has what the rule has, except that a default interval may be
left out. -/
theorem get_ofRule {o : (k : FieldKey) → Option (Meaning k)} (h : ∀ k, Has r k (o k))
    (k : FieldKey) :
    ({ RuleDraft.ofRule r with interval := o .interval } : RuleDraft).get k
      = (o k).map (toDraft k) := by
  cases k with
  | interval => exact Option.map_id'.symm
  | count =>
    have hk : r.count = o .count := h .count
    exact hk.trans Option.map_id'.symm
  | lastMoment =>
    have hk : r.lastMoment = o .lastMoment := h .lastMoment
    exact congrArg (Option.map (toDraft .lastMoment)) hk
  | byDay =>
    have hk : r.byDay = o .byDay := h .byDay
    exact congrArg (Option.map (toDraft .byDay)) hk
  | byMonthDay =>
    have hk : r.byMonthDay = o .byMonthDay := h .byMonthDay
    exact hk.trans Option.map_id'.symm
  | byMonth =>
    have hk : r.byMonth = o .byMonth := h .byMonth
    exact hk.trans Option.map_id'.symm
  | bySetPos =>
    have hk : r.bySetPos = o .bySetPos := h .bySetPos
    exact hk.trans Option.map_id'.symm
  | weekStart =>
    have hk : r.weekStart = o .weekStart := h .weekStart
    exact congrArg (Option.map (toDraft .weekStart)) hk

/-! ## Reading rules -/

theorem SaysOf.exists_of_said {o : Option (Meaning k)} (ht : IsAscii text)
    (h : SaysOf zone text k o) (hsaid : Says text k.text.toList value) :
    ∃ a, o = some a ∧ Writes zone k value a ∧ InRange k a := by
  cases h with
  | absent hno => exact absurd hsaid (hno value)
  | @present value' a hsaid' hw hr =>
    obtain rfl := hsaid.unique ht hsaid'
    exact ⟨a, rfl, hw, hr⟩

/-- The frequencies that are read. -/
theorem readFrequency_eq_ok_iff {f : Frequency} (h : IsAscii text) :
    Rule.readFrequency (Fields.ofText text) = .ok f ↔
      ∃ word, Says text "FREQ".toList word ∧ IsInAnyCase (frequencyWord f) word := by
  have hword : ∀ f : Frequency, f.word.toList.map Char.toLower = f.word.toList ∧
      f.word.toList.map Char.toUpper = frequencyWord f ∧ frequencyWord f ≠ [] := by
    intro f
    cases f <;> decide
  unfold Rule.readFrequency
  cases hvalue : (Fields.ofText text).value? "FREQ" with
  | none =>
    constructor
    · intro hread
      cases hread
    · rintro ⟨word, hsaid, -⟩
      have hlookup := (says_iff h).1 hsaid
      rw [Fields.value?, hlookup] at hvalue
      cases hvalue
  | some word =>
    have hsaid : Says text "FREQ".toList word := (says_iff h).2 hvalue
    have hlower : ∀ f, lower word = f.word.toList ↔ IsInAnyCase (frequencyWord f) word := by
      intro f
      rw [lower_eq_iff (hsaid.isAscii h).1 (hword f).1, (hword f).2.1]
    constructor
    · intro hread
      simp only at hread
      split at hread
      · cases hread
      · split at hread
        · next f' hf =>
          cases hread
          exact ⟨word, hsaid, (hlower f).1 (Frequency.toList_of_ofWord? hf)⟩
        · cases hread
    · rintro ⟨word', hsaid', hcase⟩
      obtain rfl := hsaid.unique h hsaid'
      have hne : word' ≠ [] := by
        rintro rfl
        exact (hword f).2.2 hcase.symm
      simp only [if_neg hne, (hlower f).2 hcase, Frequency.ofWord?_word]

/-- What the text says of a key is what the reader makes of it. -/
theorem SaysOf.tells {o : Option (Meaning k)} (ht : IsAscii text) (h : SaysOf zone text k o) :
    Rule.Tells zone (Fields.ofText text) k none (o.map (toDraft k)) := by
  cases h with
  | absent hno =>
    exact ⟨fun _ => rfl, fun value hvalue => absurd ((says_iff ht).2 hvalue) (hno value)⟩
  | present hsaid hw hr =>
    exact (Rule.tells_of_lookup ((says_iff ht).1 hsaid)).2
      ⟨_, readValue_of_writes (hsaid.isAscii ht) hw hr, rfl⟩

/-- What the reader makes of a key is what the text says of it, and the rule has it. -/
theorem exists_saysOf_of_tells (ht : IsAscii text) (hof : d.IsOf r)
    (h : Rule.Tells zone (Fields.ofText text) k none (d.get k)) :
    ∃ o, SaysOf zone text k o ∧ Has r k o := by
  cases hvalue : (Fields.ofText text).lookup k.text.toList with
  | none =>
    have hno : ∀ value, ¬Says text k.text.toList value := by
      intro value hsaid
      rw [says_iff ht, hvalue] at hsaid
      cases hsaid
    exact ⟨none, .absent hno, has_none hof (h.absent hvalue)⟩
  | some value =>
    have hsaid := (says_iff ht).2 hvalue
    obtain ⟨b, hb, hget⟩ := h.present value hvalue
    obtain ⟨a, hw, rfl⟩ := exists_of_readValue (hsaid.isAscii ht) hb
    have hhas := has_some hof hget hw
    exact ⟨some a, .present hsaid hw (inRange_of_has hhas), hhas⟩

/-- **The rule that is read is the one that the text denotes.** -/
theorem ofFields_eq_ok_iff_denotes (h : IsAscii text) :
    Rule.ofFields zone (Fields.ofText text) = .ok r ↔ Denotes zone text r := by
  have hempty : ∀ (f : Frequency) (k : FieldKey),
      ({ frequency := some f.word } : RuleDraft).get k = none := fun f k => by cases k <;> rfl
  have hnodup : ((Fields.ofText text).map Prod.fst).Nodup := Fields.nodup_ofSegments _
  rw [Rule.ofFields_eq_ok_iff hnodup]
  constructor
  · rintro ⟨f, d, hf, hgives, hcheck⟩
    have hof := RuleDraft.check_eq_ok_iff.1 hcheck
    obtain rfl : f = r.frequency :=
      word_injective (Option.some.inj (hgives.rest.frequency.symm.trans hof.frequency))
    refine ⟨(readFrequency_eq_ok_iff h).1 hf, fun k => ?_,
      hof.exdates.symm.trans hgives.rest.exdates, hof.rdates.symm.trans hgives.rest.rdates⟩
    exact exists_saysOf_of_tells h hof (hempty r.frequency k ▸ hgives.tells k)
  · rintro ⟨hfrequency, hfields, hexdates, hrdates⟩
    choose o hsaid hhas using hfields
    refine ⟨r.frequency, { RuleDraft.ofRule r with interval := o .interval },
      (readFrequency_eq_ok_iff h).2 hfrequency, ⟨⟨rfl, hexdates, hrdates⟩, fun k => ?_⟩,
      RuleDraft.check_ofRule r (o .interval) (hhas .interval).symm⟩
    rw [get_ofRule hhas, hempty]
    exact (hsaid k).tells h

/-- What a text says of a key is told, if it is proper. -/
theorem exists_saysOf (h : ∀ value, Says text k.text.toList value →
    ∃ a, Writes zone k value a ∧ InRange k a) : ∃ o, SaysOf zone text k o := by
  by_cases hsaid : ∃ value, Says text k.text.toList value
  · obtain ⟨value, hvalue⟩ := hsaid
    obtain ⟨a, hw, hr⟩ := h value hvalue
    exact ⟨some a, .present hvalue hw hr⟩
  · exact ⟨none, .absent fun value hvalue => hsaid ⟨value, hvalue⟩⟩

/-- **The texts that are accepted are those that denote a rule.** -/
theorem accepts_iff (h : IsAscii text) : Accepts zone text ↔ ∃ r, Denotes zone text r := by
  constructor
  · rintro ⟨⟨f, hf⟩, hvalues⟩
    choose o ho using fun k => exists_saysOf (hvalues k)
    have hrange : ∀ k, ∀ a ∈ o k, InRange k a := by
      intro k a ha
      have hk := ho k
      rw [ha] at hk
      cases hk with
      | present _ _ hr => exact hr
    have hwhole : ∀ m ∈ o .lastMoment, m.wall.time.micro = 0 := by
      intro m hm
      have hlast := ho .lastMoment
      rw [hm] at hlast
      cases hlast with
      | present _ hw _ => exact Token.micro_of_read hw
    have hinterval : 1 ≤ (o .interval).getD 1 := by
      cases hn : o .interval with
      | none => exact Int.le_refl 1
      | some n => exact hrange .interval n hn
    refine ⟨{ frequency := f, interval := (o .interval).getD 1, count := o .count
              lastMoment := o .lastMoment, byDay := o .byDay, byMonthDay := o .byMonthDay
              byMonth := o .byMonth, bySetPos := o .bySetPos, weekStart := o .weekStart
              interval_pos := hinterval, count_pos := hrange .count, lastMoment_whole := hwhole
              byMonthDay_valid := hrange .byMonthDay, byMonth_valid := hrange .byMonth
              bySetPos_valid := hrange .bySetPos },
      hf, fun k => ⟨o k, ho k, ?_⟩, rfl, rfl⟩
    cases k <;> rfl
  · rintro ⟨r, hfrequency, hfields, -, -⟩
    refine ⟨⟨r.frequency, hfrequency⟩, fun k value hsaid => ?_⟩
    obtain ⟨o, ho, -⟩ := hfields k
    obtain ⟨a, -, hw, hr⟩ := ho.exists_of_said h hsaid
    exact ⟨a, hw, hr⟩

end Grammar

/-- **The reader takes the texts of the grammar and no others.** The rule that is read of an ASCII
text is the one that the text denotes, and a rule is read exactly if the text names a frequency and
all other known keys in it have proper values. Times without a zone are those of the zone that is
named, or of the default one. -/
theorem Session.readRule_iff_denotes [ZoneDatabase] (s : Session) (name : Option String)
    {text : String} (h : IsAscii text.toList) :
    (∀ r, s.readRule name (some text) = .ok r ↔
      Grammar.Denotes (s.floatingZone name) text.toList r) ∧
    ((∃ r, s.readRule name (some text) = .ok r) ↔
      Grammar.Accepts (s.floatingZone name) text.toList) := by
  have hread : ∀ r, s.readRule name (some text) = .ok r ↔
      Grammar.Denotes (s.floatingZone name) text.toList r := by
    intro r
    rw [readRule, Rule.read_eq_ok_iff_ofFields, Grammar.ofFields_eq_ok_iff_denotes h]
  refine ⟨hread, ?_⟩
  rw [Grammar.accepts_iff h]
  exact exists_congr hread

/-! ### An example -/

/-- A text in mixed case, with blanks, signs, leading zeros, an empty item and a count that is set
twice. -/
def looseText : String :=
  " rrule:COUNT=5; freq = Monthly;ByDay=+1mo, ,-01 Fr;count=007;X-NOTE=a=b; "

/-- Without the blank between number and weekday, it is a rule. -/
def tidyText : String := " rrule:COUNT=5; freq = Monthly;ByDay=+1mo, ,-01Fr;count=007;X-NOTE=a=b; "

/-- A blank in an entry is not in the grammar; without it, the text denotes seven Mondays and
Fridays. -/
theorem Session.tidyText_denotes :
    (IsAscii looseText.toList ∧ ¬Grammar.Accepts (floatingZone {} none) looseText.toList) ∧
    IsAscii tidyText.toList ∧ Grammar.Accepts (floatingZone {} none) tidyText.toList ∧
    ∃ r, (r.count = some 7 ∧ r.days.map DayEntry.position = [some 1, some (-1)]) ∧
      Grammar.Denotes (floatingZone {} none) tidyText.toList r := by
  have hloose : IsAscii looseText.toList := forall_mem_of_all (by decide)
  have htidy : IsAscii tidyText.toList := forall_mem_of_all (by decide)
  have hrefused : (readRule {} none (some looseText)).toOption = none := by decide +kernel
  obtain ⟨r, hread, hr⟩ : ∃ r, readRule {} none (some tidyText) = .ok r ∧
      (r.count = some 7 ∧ r.days.map DayEntry.position = [some 1, some (-1)]) :=
    exists_ok_of_any (by decide +kernel)
  obtain ⟨hdenotes, haccepts⟩ := readRule_iff_denotes {} none htidy
  refine ⟨⟨hloose, fun h => ?_⟩, htidy, haccepts.1 ⟨r, hread⟩, r, hr, (hdenotes r).1 hread⟩
  obtain ⟨r', hread'⟩ := (readRule_iff_denotes {} none hloose).2.2 h
  rw [hread'] at hrefused
  cases hrefused

end RecurringEvents
