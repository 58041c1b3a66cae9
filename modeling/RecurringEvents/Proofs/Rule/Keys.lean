import RecurringEvents.Proofs.Rule.RoundTrip

/-!
# Fields and their keys

Eight keys have a value of their own in the draft of a rule. The reader takes each field to the
place of its key and looks at nothing else, so what comes of the fields is told by what each key
has, whatever the order of the fields: the frequency is read, every key that is known has a value
that is read, and the draft that they make passes its check.

* `readField_text`, `readField_of_unknown`: what the reader does with one field.
* `takeAll_eq_ok_iff`: the draft that fields give.
* `ofFields_eq_ok_iff`: the rule that fields give.
* `ofFields_of_sameValues`: fields that agree on the known keys give the same rule.
-/

namespace RecurringEvents

open Text

/-- The keys that are known, other than that of the frequency. -/
inductive FieldKey where
  | interval | count | lastMoment | byDay | byMonthDay | byMonth | bySetPos | weekStart
  deriving Repr, DecidableEq

namespace FieldKey

/-- A key as it is written. -/
def text : FieldKey → String
  | interval => "INTERVAL" | count => "COUNT" | lastMoment => "UNTIL" | byDay => "BYDAY"
  | byMonthDay => "BYMONTHDAY" | byMonth => "BYMONTH" | bySetPos => "BYSETPOS"
  | weekStart => "WKST"

/-- What a draft holds for a key. -/
abbrev Value : FieldKey → Type
  | interval | count => Int
  | lastMoment => Reading
  | byDay => List DayDraft
  | byMonthDay | byMonth | bySetPos => List Int
  | weekStart => String

/-- Reads the value of a key. -/
def readValue (zone : Zone) (value : List Char) : (k : FieldKey) → Except Rule.ReadCause k.Value
  | interval => Rule.readPositive "INTERVAL".toList value
  | count => Rule.readPositive "COUNT".toList value
  | lastMoment => Rule.readLastMoment zone value
  | byDay => Rule.readDays "BYDAY".toList value
  | byMonthDay => Rule.readIntegers "BYMONTHDAY".toList value
  | byMonth => Rule.readIntegers "BYMONTH".toList value
  | bySetPos => Rule.readIntegers "BYSETPOS".toList value
  | weekStart => (Rule.readWeekday value).map Weekday.code

theorem text_inj {k k' : FieldKey} (h : k.text.toList = k'.text.toList) : k = k' := by
  cases k <;> cases k' <;> first | rfl | exact absurd h (by decide)

end FieldKey

namespace RuleDraft

/-- What a draft has for a key. -/
def get (d : RuleDraft) : (k : FieldKey) → Option k.Value
  | .interval => d.interval
  | .count => d.count
  | .lastMoment => d.lastMoment
  | .byDay => d.byDay
  | .byMonthDay => d.byMonthDay
  | .byMonth => d.byMonth
  | .bySetPos => d.bySetPos
  | .weekStart => d.weekStart

/-- The draft with a value for a key. -/
def set (d : RuleDraft) : (k : FieldKey) → k.Value → RuleDraft
  | .interval, n => { d with interval := some n }
  | .count, n => { d with count := some n }
  | .lastMoment, m => { d with lastMoment := some m }
  | .byDay, ds => { d with byDay := some ds }
  | .byMonthDay, ns => { d with byMonthDay := some ns }
  | .byMonth, ns => { d with byMonth := some ns }
  | .bySetPos, ns => { d with bySetPos := some ns }
  | .weekStart, day => { d with weekStart := some day }

/-- Whether two drafts agree on what no key but that of the frequency tells. -/
structure SameRest (d d' : RuleDraft) : Prop where
  frequency : d'.frequency = d.frequency
  exdates : d'.exdates = d.exdates
  rdates : d'.rdates = d.rdates

variable {d d' : RuleDraft}

@[simp] theorem get_set_self (d : RuleDraft) (k : FieldKey) (a : k.Value) :
    (d.set k a).get k = some a := by
  cases k <;> rfl

theorem get_set_of_ne (d : RuleDraft) {k k' : FieldKey} (a : k.Value) (h : k' ≠ k) :
    (d.set k a).get k' = d.get k' := by
  cases k <;> cases k' <;> first | rfl | exact absurd rfl h

theorem sameRest_set_iff (k : FieldKey) (a : k.Value) :
    (d.set k a).SameRest d' ↔ d.SameRest d' := by
  cases k <;> exact ⟨fun h => ⟨h.frequency, h.exdates, h.rdates⟩,
    fun h => ⟨h.frequency, h.exdates, h.rdates⟩⟩

/-- A draft is told by what it has for each key, and the rest. -/
theorem ext_of_get (hrest : d.SameRest d') (h : ∀ k, d'.get k = d.get k) : d' = d := by
  obtain ⟨hfrequency, hexdates, hrdates⟩ := hrest
  have h1 := h .interval
  have h2 := h .count
  have h3 := h .lastMoment
  have h4 := h .byDay
  have h5 := h .byMonthDay
  have h6 := h .byMonth
  have h7 := h .bySetPos
  have h8 := h .weekStart
  cases d
  cases d'
  simp only [get] at *
  subst_vars
  rfl

end RuleDraft

namespace Rule

variable {zone : Zone} {d d' : RuleDraft} {fs gs : Fields}

/-! ## One field -/

/-- A field whose key is known is taken to the place of its key. -/
theorem readField_text (zone : Zone) (d : RuleDraft) (k : FieldKey) (value : List Char) :
    readField zone d k.text.toList value
      = (k.readValue zone value >>= fun a => pure (d.set k a)) := by
  cases k with
  | weekStart =>
    show (readWeekday value >>= fun day => pure _) = _
    rw [FieldKey.readValue]
    cases readWeekday value <;> rfl
  | _ => rfl

/-- A field whose key is not known is passed over. -/
theorem readField_of_unknown {key : List Char} (h : ∀ k : FieldKey, key ≠ k.text.toList)
    (value : List Char) : readField zone d key value = .ok d :=
  (if_neg (h .interval)).trans <| (if_neg (h .count)).trans <| (if_neg (h .lastMoment)).trans <|
    (if_neg (h .byDay)).trans <| (if_neg (h .byMonthDay)).trans <| (if_neg (h .byMonth)).trans <|
      (if_neg (h .bySetPos)).trans <| if_neg (h .weekStart)

/-! ## All fields -/

/-- What fields make of a key: it keeps what it has if no field is its own, else it gets the value
of this field. -/
structure Tells (zone : Zone) (fs : Fields) (k : FieldKey) (old new : Option k.Value) : Prop where
  absent : fs.lookup k.text.toList = none → new = old
  present : ∀ value, fs.lookup k.text.toList = some value →
    ∃ a, k.readValue zone value = .ok a ∧ new = some a

/-- The first field is not looked at for another key. -/
theorem tells_cons_of_ne {k : FieldKey} {f : List Char × List Char} {old new : Option k.Value}
    (h : k.text.toList ≠ f.1) : Tells zone (f :: fs) k old new ↔ Tells zone fs k old new := by
  have hlookup : (f :: fs).lookup k.text.toList = fs.lookup k.text.toList := by
    rw [List.lookup_cons, beq_eq_false_iff_ne.2 h]
  exact ⟨fun ht => ⟨hlookup ▸ ht.absent, hlookup ▸ ht.present⟩,
    fun ht => ⟨hlookup.symm ▸ ht.absent, hlookup.symm ▸ ht.present⟩⟩

/-- A key that a field has gets the value of this field. -/
theorem tells_of_lookup {k : FieldKey} {value : List Char} {old new : Option k.Value}
    (h : fs.lookup k.text.toList = some value) : Tells zone fs k old new ↔
      ∃ a, k.readValue zone value = .ok a ∧ new = some a := by
  refine ⟨fun ht => ht.present value h, fun hread => ⟨fun hnone => ?_, fun v hv => ?_⟩⟩
  · rw [h] at hnone
    cases hnone
  · rw [h] at hv
    cases hv
    exact hread

/-- Nothing is told of a key that no field has. -/
theorem tells_of_not_mem {k : FieldKey} {old new : Option k.Value}
    (h : k.text.toList ∉ fs.map Prod.fst) : Tells zone fs k old new ↔ new = old := by
  have hlookup : fs.lookup k.text.toList = none := by
    refine List.lookup_eq_none_iff.2 fun f hf => ?_
    simp only [bne_iff_ne, ne_eq]
    intro heq
    exact h (heq ▸ List.mem_map_of_mem hf)
  refine ⟨fun ht => ht.absent hlookup, fun hsame => ⟨fun _ => hsame, fun value hvalue => ?_⟩⟩
  rw [hlookup] at hvalue
  cases hvalue

/-- The first field tells its key. -/
theorem tells_cons_self {k : FieldKey} {value : List Char} {old new : Option k.Value} :
    Tells zone ((k.text.toList, value) :: fs) k old new ↔
      ∃ a, k.readValue zone value = .ok a ∧ new = some a :=
  tells_of_lookup (by rw [List.lookup_cons, beq_self_eq_true])

/-- What fields make of a draft: they leave what no key tells, and each key gets what its field
says. -/
structure Gives (zone : Zone) (fs : Fields) (d d' : RuleDraft) : Prop where
  rest : d.SameRest d'
  tells : ∀ k, Tells zone fs k (d.get k) (d'.get k)

theorem gives_nil_iff : Gives zone [] d d' ↔ d' = d := by
  constructor
  · intro h
    exact RuleDraft.ext_of_get h.rest fun k => (tells_of_not_mem List.not_mem_nil).1 (h.tells k)
  · rintro rfl
    exact ⟨⟨rfl, rfl, rfl⟩, fun k => (tells_of_not_mem List.not_mem_nil).2 rfl⟩

/-- The first field is passed over if its key is not known. -/
theorem gives_cons_of_unknown {key value : List Char} (h : ∀ k : FieldKey, key ≠ k.text.toList) :
    Gives zone ((key, value) :: fs) d d' ↔ Gives zone fs d d' := by
  have hsame : ∀ k : FieldKey, Tells zone ((key, value) :: fs) k (d.get k) (d'.get k) ↔
      Tells zone fs k (d.get k) (d'.get k) := fun k => tells_cons_of_ne (h k).symm
  exact ⟨fun hg => ⟨hg.rest, fun k => (hsame k).1 (hg.tells k)⟩,
    fun hg => ⟨hg.rest, fun k => (hsame k).2 (hg.tells k)⟩⟩

/-- The first field is taken to its place if its key is known, and no later field has this key. -/
theorem gives_cons_text {k : FieldKey} {value : List Char}
    (hnew : k.text.toList ∉ fs.map Prod.fst) :
    Gives zone ((k.text.toList, value) :: fs) d d' ↔
      ∃ a, k.readValue zone value = .ok a ∧ Gives zone fs (d.set k a) d' := by
  -- for every other key both sides look at the later fields
  have hother : ∀ a : k.Value, ∀ k' ≠ k,
      (Tells zone ((k.text.toList, value) :: fs) k' (d.get k') (d'.get k') ↔
        Tells zone fs k' ((d.set k a).get k') (d'.get k')) := by
    intro a k' hk'
    rw [RuleDraft.get_set_of_ne d a hk']
    exact tells_cons_of_ne fun heq => hk' (FieldKey.text_inj heq)
  have hself : ∀ a : k.Value,
      Tells zone fs k ((d.set k a).get k) (d'.get k) ↔ d'.get k = some a := by
    intro a
    rw [tells_of_not_mem hnew, RuleDraft.get_set_self]
  constructor
  · intro h
    obtain ⟨a, ha, hget⟩ := tells_cons_self.1 (h.tells k)
    refine ⟨a, ha, (RuleDraft.sameRest_set_iff k a).2 h.rest, fun k' => ?_⟩
    by_cases hk' : k' = k
    · subst hk'
      exact (hself a).2 hget
    · exact (hother a k' hk').1 (h.tells k')
  · rintro ⟨a, ha, h⟩
    refine ⟨(RuleDraft.sameRest_set_iff k a).1 h.rest, fun k' => ?_⟩
    by_cases hk' : k' = k
    · subst hk'
      exact tells_cons_self.2 ⟨a, ha, (hself a).1 (h.tells k')⟩
    · exact (hother a k' hk').2 (h.tells k')

/-- **The draft that fields give**, if no key comes twice. -/
theorem takeAll_eq_ok_iff (h : (fs.map Prod.fst).Nodup) :
    takeAll zone d fs = .ok d' ↔ Gives zone fs d d' := by
  induction fs generalizing d with
  | nil =>
    rw [gives_nil_iff]
    exact ⟨fun h => by cases h; rfl, fun h => by rw [h]; rfl⟩
  | cons f fs ih =>
    obtain ⟨key, value⟩ := f
    rw [List.map_cons, List.nodup_cons] at h
    obtain ⟨hnew, hnodup⟩ := h
    have hstep : takeAll zone d ((key, value) :: fs) = .ok d' ↔
        ∃ d₁, readField zone d key value = .ok d₁ ∧ Gives zone fs d₁ d' := by
      simp only [← ih hnodup]
      exact bind_eq_ok_iff
    rw [hstep]
    by_cases hk : ∃ k : FieldKey, key = k.text.toList
    · obtain ⟨k, rfl⟩ := hk
      rw [gives_cons_text hnew, readField_text]
      constructor
      · rintro ⟨_, hread, hgives⟩
        obtain ⟨a, ha, hset⟩ := bind_eq_ok_iff.1 hread
        cases hset
        exact ⟨a, ha, hgives⟩
      · rintro ⟨a, ha, hgives⟩
        exact ⟨_, bind_eq_ok_iff.2 ⟨a, ha, rfl⟩, hgives⟩
    · have hunknown : ∀ k : FieldKey, key ≠ k.text.toList := fun k hkey => hk ⟨k, hkey⟩
      rw [gives_cons_of_unknown hunknown, readField_of_unknown hunknown]
      constructor
      · rintro ⟨_, heq, hgives⟩
        cases heq
        exact hgives
      · intro hgives
        exact ⟨d, rfl, hgives⟩

/-- **The rule that fields give**: the frequency is read, and the draft passes its check. -/
theorem ofFields_eq_ok_iff {r : Rule} (h : (fs.map Prod.fst).Nodup) :
    ofFields zone fs = .ok r ↔ ∃ f d, readFrequency fs = .ok f ∧
      Gives zone fs { frequency := some f.word } d ∧ d.check = .ok r := by
  constructor
  · intro hread
    obtain ⟨f, hf, hread⟩ := bind_eq_ok_iff.1 hread
    obtain ⟨d, hd, hread⟩ := bind_eq_ok_iff.1 hread
    refine ⟨f, d, hf, (takeAll_eq_ok_iff h).1 hd, ?_⟩
    cases hcheck : d.check with
    | ok s =>
      rw [hcheck] at hread
      cases hread
      rfl
    | error issues =>
      rw [hcheck] at hread
      cases hread
  · rintro ⟨f, d, hf, hd, hcheck⟩
    refine bind_eq_ok_iff.2 ⟨f, hf, bind_eq_ok_iff.2 ⟨d, (takeAll_eq_ok_iff h).2 hd, ?_⟩⟩
    rw [hcheck]
    rfl

/-! ## Fields that agree -/

/-- Whether two lists of fields have the same value for every key that is known. -/
structure SameValues (fs gs : Fields) : Prop where
  frequency : gs.value? "FREQ" = fs.value? "FREQ"
  values : ∀ k : FieldKey, gs.lookup k.text.toList = fs.lookup k.text.toList

theorem Gives.of_sameValues (h : SameValues fs gs) (hg : Gives zone fs d d') :
    Gives zone gs d d' :=
  ⟨hg.rest, fun k => ⟨fun hnone => (hg.tells k).absent ((h.values k).symm.trans hnone),
    fun value hvalue => (hg.tells k).present value ((h.values k).symm.trans hvalue)⟩⟩

/-- **Fields that agree on the known keys give the same rule.** -/
theorem ofFields_of_sameValues {r : Rule} (hf : (fs.map Prod.fst).Nodup)
    (hg : (gs.map Prod.fst).Nodup) (h : SameValues fs gs) (hr : ofFields zone fs = .ok r) :
    ofFields zone gs = .ok r := by
  obtain ⟨f, d, hfrequency, hgives, hcheck⟩ := (ofFields_eq_ok_iff hf).1 hr
  refine (ofFields_eq_ok_iff hg).2 ⟨f, d, ?_, hgives.of_sameValues h, hcheck⟩
  rwa [readFrequency, h.frequency]

end Rule

end RecurringEvents
