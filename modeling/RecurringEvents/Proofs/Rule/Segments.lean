import Mathlib.Data.List.Nodup
import Mathlib.Logic.Relation
import RecurringEvents.Proofs.Rule.Gathered
import RecurringEvents.Proofs.Rule.Keys
import RecurringEvents.Proofs.Text.Trimmed
import RecurringEvents.Session

/-!
# Segments of a rule text

A rule text is read segment by segment, and a segment that sets a key again takes the place of the
one before. So only the last value of each known key counts. Segments may change their places as
long as no key is set twice, and segments may be inserted that set no known key, or a key that is
set again behind them.

* `Fields.lookup_ofSegments`: the value of a key is the last one.
* `Fields.ofText_mark_join`: the segments are found in the text.
* `SegmentChange`: the changes that keep the last values.
* `Session.readRule_of_segments`: what is read does not change with them.
-/

namespace RecurringEvents

open Text

/-- A segment of a rule text. -/
abbrev Segment : Type := List Char

namespace Fields

/-! ## Last values -/

/-- The key that a segment sets, if it sets one. -/
def key? (s : Segment) : Option (List Char) := (ofSegment? s).map Prod.fst

/-- The fields of some segments. -/
def ofSegments (ss : List Segment) : Fields := ss.foldl putSegment []

/-- The value that the last segment with a key gives. -/
def lastValue? (key : List Char) (ss : List Segment) : Option (List Char) :=
  (ss.filterMap ofSegment?).reverse.lookup key

variable {key : List Char} {s t : Segment} {ss ts : List Segment}

theorem ofText_eq (text : List Char) : ofText text = ofSegments (splitOn ';' (body text)) := rfl

theorem lookup_putSegment (key : List Char) (fs : Fields) (s : Segment) :
    (putSegment fs s).lookup key = (lastValue? key [s]).or (fs.lookup key) := by
  cases hs : ofSegment? s with
  | none => simp only [putSegment, lastValue?, List.filterMap_cons, hs, List.filterMap_nil,
      List.reverse_nil, List.lookup_nil, Option.none_or]
  | some f =>
    obtain ⟨k, v⟩ := f
    simp only [putSegment, lastValue?, List.filterMap_cons, hs, List.filterMap_nil,
      List.reverse_singleton, List.lookup_cons, List.lookup_nil]
    by_cases hk : key = k
    · subst hk
      rw [lookup_put_self, beq_self_eq_true]
      rfl
    · rw [lookup_put_of_ne v fs hk, beq_eq_false_iff_ne.2 hk]
      rfl

theorem lastValue?_append (key : List Char) (ss ts : List Segment) :
    lastValue? key (ss ++ ts) = (lastValue? key ts).or (lastValue? key ss) := by
  rw [lastValue?, List.filterMap_append, List.reverse_append, List.lookup_append]
  rfl

theorem lastValue?_cons (key : List Char) (s : Segment) (ss : List Segment) :
    lastValue? key (s :: ss) = (lastValue? key ss).or (lastValue? key [s]) :=
  lastValue?_append key [s] ss

/-- **The value of a key is the last one**, or the one before all segments. -/
theorem lookup_foldl_putSegment (key : List Char) (ss : List Segment) (fs : Fields) :
    (ss.foldl putSegment fs).lookup key = (lastValue? key ss).or (fs.lookup key) := by
  induction ss generalizing fs with
  | nil => rfl
  | cons s ss ih =>
    rw [List.foldl_cons, ih, lookup_putSegment, lastValue?_cons key s ss, Option.or_assoc]

theorem lookup_ofSegments (key : List Char) (ss : List Segment) :
    (ofSegments ss).lookup key = lastValue? key ss := by
  rw [ofSegments, lookup_foldl_putSegment, List.lookup_nil, Option.or_none]

/-- Each key comes once. -/
theorem nodup_ofSegments (ss : List Segment) : ((ofSegments ss).map Prod.fst).Nodup := by
  rw [ofSegments, foldl_putSegment]
  exact (gathers_foldl_put (ss.filterMap ofSegment?)).once

/-! ## Segments in a text -/

/-- White space behind a segment does not count. -/
theorem ofSegment?_append_blank {w : List Char} (hw : ∀ c ∈ w, isBlank c = true) (s : Segment) :
    ofSegment? (s ++ w) = ofSegment? s := by
  have hcut : '=' ∉ w := fun hm => absurd (hw _ hm) (by decide)
  cases hs : cut? '=' s with
  | none =>
    have hnone : cut? '=' (s ++ w) = none := by
      rw [cut?_eq_none_iff] at hs ⊢
      intro hm
      exact (List.mem_append.1 hm).elim hs hcut
    rw [ofSegment?, ofSegment?, hs, hnone]
  | some kv =>
    obtain ⟨k, v⟩ := kv
    obtain ⟨rfl, hk⟩ := eq_of_cut? hs
    rw [List.append_assoc, List.cons_append]
    simp only [ofSegment?, cut?_append hk, trim_append_blank hw]

/-- White space behind all segments does not count. -/
theorem ofSegments_splitOn_append_blank {w : List Char} (hw : ∀ c ∈ w, isBlank c = true)
    (s : List Char) : ofSegments (splitOn ';' (s ++ w)) = ofSegments (splitOn ';' s) := by
  have hsep : ';' ∉ w := fun hm => absurd (hw _ hm) (by decide)
  obtain ⟨before, last, hs, hsw⟩ := splitOn_append_of_not_mem hsep s
  simp only [ofSegments, hs, hsw, List.foldl_append, List.foldl_cons, List.foldl_nil, putSegment,
    ofSegment?_append_blank hw]

/-- A text that begins with the mark is what follows it, less white space at the end. -/
theorem body_mark_append (s : List Char) : body (mark ++ s) = s.rdropWhile isBlank := by
  have htrim : trim (mark ++ s) = mark ++ s.rdropWhile isBlank :=
    trim_append_of_not_blank (by decide) (forall_mem_some (by decide)) (forall_mem_some (by decide))
  have hmark : mark.isPrefixOf (upper (mark ++ s.rdropWhile isBlank)) = true := by
    rw [upper_append, (by decide : upper mark = mark), List.isPrefixOf_iff_prefix]
    exact List.prefix_append mark _
  simp only [body, htrim, hmark, if_true, List.drop_left]

/-- **The segments of a marked text are found in it.** -/
theorem ofText_mark_join (h : ∀ s ∈ ss, ';' ∉ s) :
    ofText (mark ++ join [';'] ss) = ofSegments ss := by
  obtain ⟨w, hw, heq⟩ := exists_blank_append (join [';'] ss)
  rw [ofText_eq, body_mark_append, ← ofSegments_splitOn_append_blank hw, heq]
  cases ss with
  | nil => rfl
  | cons s ss => rw [splitOn_join (List.cons_ne_nil s ss) h]

end Fields

/-! ## Changes that keep the last values -/

open Fields

/-- Changes of segments that keep the last value of every known key. -/
inductive SegmentChange : List Segment → List Segment → Prop where
  /-- Segments change their places, and no two of them have the same key. -/
  | permute {ss ts : List Segment} (h : ss.Perm ts) (hkeys : (ss.filterMap key?).Nodup) :
      SegmentChange ss ts
  /-- A segment without a key, or with a key that is not known, is inserted. -/
  | insertUnknown (before after : List Segment) {s : Segment}
      (h : ∀ key ∈ Rule.keys, key? s ≠ some key.toList) :
      SegmentChange (before ++ after) (before ++ s :: after)
  /-- A segment is inserted before one with the same key. -/
  | insertEarlier (before after : List Segment) {s t : Segment} (ht : t ∈ after)
      (h : key? t = key? s) : SegmentChange (before ++ after) (before ++ s :: after)

namespace SegmentChange

variable {key : List Char} {s t : Segment} {ss ts : List Segment}

/-- Whether two lists of segments have the same last value for every known key. -/
def SameLast (ss ts : List Segment) : Prop :=
  ∀ key ∈ Rule.keys, lastValue? key.toList ts = lastValue? key.toList ss

/-- A field is found by its key, if no key comes twice. -/
theorem lookup_eq_some_iff_mem {fs : Fields} (h : (fs.map Prod.fst).Nodup) {value : List Char} :
    fs.lookup key = some value ↔ (key, value) ∈ fs := by
  induction fs with
  | nil => simp
  | cons f fs ih =>
    obtain ⟨k, v⟩ := f
    rw [List.map_cons, List.nodup_cons] at h
    obtain ⟨hnew, hnodup⟩ := h
    rw [List.lookup_cons, List.mem_cons, ← ih hnodup]
    by_cases hk : key = k
    · subst hk
      have hlater : fs.lookup key ≠ some value := fun hm =>
        hnew (List.mem_map.2 ⟨(key, value), (ih hnodup).1 hm, rfl⟩)
      rw [beq_self_eq_true]
      simp [hlater, eq_comm]
    · rw [beq_eq_false_iff_ne.2 hk]
      simp [hk]

/-- The order of fields does not count, if no key comes twice. -/
theorem lookup_of_perm {fs gs : Fields} (h : fs.Perm gs) (hfs : (fs.map Prod.fst).Nodup)
    (key : List Char) : gs.lookup key = fs.lookup key := by
  have hgs : (gs.map Prod.fst).Nodup := (h.map Prod.fst).nodup hfs
  refine Option.ext fun value => ?_
  rw [lookup_eq_some_iff_mem hgs, lookup_eq_some_iff_mem hfs, h.mem_iff]

theorem lastValue?_of_perm (h : ss.Perm ts) (hkeys : (ss.filterMap key?).Nodup) (key : List Char) :
    lastValue? key ts = lastValue? key ss := by
  have hmap : (ss.filterMap ofSegment?).map Prod.fst = ss.filterMap key? :=
    List.map_filterMap
  refine lookup_of_perm ?_ ?_ key
  · exact (List.reverse_perm _).trans ((h.filterMap _).trans (List.reverse_perm _).symm)
  · rw [List.map_reverse, hmap, List.nodup_reverse]
    exact hkeys

theorem lastValue?_singleton_of_ne (h : key? s ≠ some key) : lastValue? key [s] = none := by
  unfold key? at h
  cases hs : ofSegment? s with
  | none => simp [lastValue?, hs]
  | some f =>
    rw [hs, Option.map_some, ne_eq, Option.some.injEq] at h
    have hne : ¬key = f.1 := fun heq => h heq.symm
    simp [lastValue?, hs, hne]

theorem isSome_lastValue? (h : key? s = some key) (hs : s ∈ ss) :
    (lastValue? key ss).isSome = true := by
  obtain ⟨f, hf, rfl⟩ := Option.map_eq_some_iff.1 h
  rw [lastValue?, List.lookup_isSome_iff]
  exact ⟨f, List.mem_reverse.2 (List.mem_filterMap.2 ⟨s, hs, hf⟩), beq_self_eq_true _⟩

/-- A segment in between counts for its own key, and only if this is not set behind it. -/
theorem lastValue?_insert (before after : List Segment)
    (h : key? s = some key → (lastValue? key after).isSome = true) :
    lastValue? key (before ++ s :: after) = lastValue? key (before ++ after) := by
  rw [lastValue?_append, lastValue?_cons, lastValue?_append]
  by_cases hs : key? s = some key
  · obtain ⟨value, hvalue⟩ := Option.isSome_iff_exists.1 (h hs)
    rw [hvalue, Option.some_or, Option.some_or]
  · rw [lastValue?_singleton_of_ne hs, Option.or_none]

/-- **The changes keep the last values.** -/
theorem sameLast (h : SegmentChange ss ts) : SameLast ss ts := by
  intro key hkey
  cases h with
  | permute hperm hkeys => exact lastValue?_of_perm hperm hkeys key.toList
  | insertUnknown before after hs =>
    exact lastValue?_insert before after fun hset => absurd hset (hs key hkey)
  | insertEarlier before after ht hs =>
    exact lastValue?_insert before after fun hset => isSome_lastValue? (hs.trans hset) ht

/-- One change after the other keeps the last values, forward and backward. -/
theorem sameLast_of_eqvGen (h : Relation.EqvGen SegmentChange ss ts) : SameLast ss ts := by
  induction h with
  | rel ss ts h => exact h.sameLast
  | refl ss => exact fun _ _ => rfl
  | symm ss ts _ ih => exact fun key hkey => (ih key hkey).symm
  | trans ss ts us _ _ ih ih' => exact fun key hkey => (ih' key hkey).trans (ih key hkey)

end SegmentChange

/-! ## What is read -/

namespace Rule

variable {zone : Zone} {text : List Char} {r : Rule} {ss ts : List Segment}

/-- A rule is read from the fields of its text. A blank text has none. -/
theorem read_eq_ok_iff_ofFields :
    read zone text = .ok r ↔ ofFields zone (Fields.ofText text) = .ok r := by
  unfold read
  split
  · next hblank =>
    rw [ofText_of_trim hblank]
    exact ⟨fun h => (by cases h), fun h => (by cases h)⟩
  · cases ofFields zone (Fields.ofText text) with
    | ok s => exact ⟨fun h => (by cases h; rfl), fun h => (by cases h; rfl)⟩
    | error cause => exact ⟨fun h => (by cases h), fun h => (by cases h)⟩

/-- Segments with the same last values give the same rule. -/
theorem ofFields_of_sameLast (h : SegmentChange.SameLast ss ts)
    (hr : ofFields zone (ofSegments ss) = .ok r) : ofFields zone (ofSegments ts) = .ok r := by
  have hlookup : ∀ key ∈ keys,
      (ofSegments ts).lookup key.toList = (ofSegments ss).lookup key.toList := by
    intro key hkey
    rw [lookup_ofSegments, lookup_ofSegments, h key hkey]
  refine ofFields_of_sameValues (nodup_ofSegments ss) (nodup_ofSegments ts) ⟨?_, fun k => ?_⟩ hr
  · exact hlookup "FREQ" (by decide)
  · exact hlookup k.text (by cases k <;> decide)

end Rule

/-- Whether two readings give the same rule, or neither gives one. -/
structure SameReading (x y : Except Rule.ReadError Rule) : Prop where
  rule : y.toOption = x.toOption
  refused : (∃ e, y = .error e) ↔ ∃ e, x = .error e

theorem sameReading_of_ok {x y : Except Rule.ReadError Rule} (h : ∀ r, x = .ok r ↔ y = .ok r) :
    SameReading x y := by
  cases x with
  | ok r =>
    rw [(h r).1 rfl]
    exact ⟨rfl, Iff.rfl⟩
  | error e =>
    cases y with
    | ok r => exact absurd ((h r).2 rfl) (by simp)
    | error e' => exact ⟨rfl, ⟨fun _ => ⟨e, rfl⟩, fun _ => ⟨e', rfl⟩⟩⟩

namespace Session

open SegmentChange

/-- Reads the rule of some segments, after the mark and with semicolons between them. -/
def readSegments [ZoneDatabase] (s : Session) (name : Option String) (ss : List Segment) :
    Except Rule.ReadError Rule :=
  s.readRule name (some (String.ofList (Fields.mark ++ join [';'] ss)))

variable {s : Session} {name : Option String} {ss ts : List Segment}

theorem readSegments_eq_ok_iff [ZoneDatabase] (h : ∀ x ∈ ss, ';' ∉ x) {r : Rule} :
    s.readSegments name ss = .ok r ↔
      Rule.ofFields (s.floatingZone name) (ofSegments ss) = .ok r := by
  rw [← ofText_mark_join h, ← Rule.read_eq_ok_iff_ofFields, readSegments, readRule,
    String.toList_ofList]

/-- Segments with the same last values are read alike. -/
theorem sameReading_of_sameLast [ZoneDatabase] (hs : ∀ x ∈ ss, ';' ∉ x) (ht : ∀ x ∈ ts, ';' ∉ x)
    (h : SameLast ss ts) : SameReading (s.readSegments name ss) (s.readSegments name ts) := by
  refine sameReading_of_ok fun r => ?_
  rw [readSegments_eq_ok_iff hs, readSegments_eq_ok_iff ht]
  exact ⟨Rule.ofFields_of_sameLast h,
    Rule.ofFields_of_sameLast fun key hkey => (h key hkey).symm⟩

/-- **Only the last value of each known key counts**: segments with the same last values are read as
the same rule, or refused both. So segments with different keys may change their places, and a
segment that sets no known key, or one that is set again behind it, may be inserted or left out. -/
theorem readRule_of_segments [ZoneDatabase] (s : Session) (name : Option String)
    (hs : ∀ x ∈ ss, ';' ∉ x) (ht : ∀ x ∈ ts, ';' ∉ x) :
    (SameLast ss ts → SameReading (s.readSegments name ss) (s.readSegments name ts)) ∧
      (Relation.EqvGen SegmentChange ss ts →
        SameReading (s.readSegments name ss) (s.readSegments name ts)) :=
  ⟨sameReading_of_sameLast hs ht, fun h => sameReading_of_sameLast hs ht (sameLast_of_eqvGen h)⟩

/-! ### An example -/

/-- Three days. -/
def threeDays : List Segment := ["FREQ=DAILY".toList, "COUNT=3".toList]

/-- The same with a count that is taken back, in another order and with a key of its own. -/
def threeDaysAgain : List Segment :=
  [" count = 5".toList, "COUNT=3".toList, [], "X-NAME=1".toList, "FREQ=DAILY".toList]

theorem threeDays_changes : Relation.EqvGen SegmentChange threeDays threeDaysAgain := by
  have hpermute : SegmentChange threeDays ["COUNT=3".toList, "FREQ=DAILY".toList] :=
    .permute (List.Perm.swap _ _ _) (by decide)
  have hcount : SegmentChange ["COUNT=3".toList, "FREQ=DAILY".toList]
      [" count = 5".toList, "COUNT=3".toList, "FREQ=DAILY".toList] :=
    .insertEarlier [] _ List.mem_cons_self (by decide)
  have hempty : SegmentChange [" count = 5".toList, "COUNT=3".toList, "FREQ=DAILY".toList]
      [" count = 5".toList, "COUNT=3".toList, [], "FREQ=DAILY".toList] :=
    .insertUnknown [" count = 5".toList, "COUNT=3".toList] _ (by decide)
  have hname : SegmentChange [" count = 5".toList, "COUNT=3".toList, [], "FREQ=DAILY".toList]
      threeDaysAgain :=
    .insertUnknown [" count = 5".toList, "COUNT=3".toList, []] _ (by decide)
  exact ((Relation.EqvGen.rel _ _ hpermute).trans _ _ _ (.rel _ _ hcount)).trans _ _ _
    ((Relation.EqvGen.rel _ _ hempty).trans _ _ _ (.rel _ _ hname))

/-- They are read alike, as a rule. -/
theorem threeDays_readAlike :
    (SameLast threeDays threeDaysAgain ∧ Relation.EqvGen SegmentChange threeDays threeDaysAgain) ∧
      SameReading (readSegments {} none threeDays) (readSegments {} none threeDaysAgain) ∧
      (readSegments {} none threeDaysAgain).toOption.map Rule.count = some (some 3) := by
  have hs : ∀ x ∈ threeDays, ';' ∉ x := by decide
  have ht : ∀ x ∈ threeDaysAgain, ';' ∉ x := by decide
  have hread := readRule_of_segments {} none hs ht
  exact ⟨⟨sameLast_of_eqvGen threeDays_changes, threeDays_changes⟩, hread.2 threeDays_changes,
    by decide +kernel⟩

end Session

end RecurringEvents
