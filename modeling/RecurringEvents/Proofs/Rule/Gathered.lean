import Mathlib.Data.List.Sort
import RecurringEvents.Proofs.Rule.Fields

/-!
# Fields that come again

The segments of a text may give one key several times. Reading gathers them: each key comes once, at
the place where it came first and with the value that it was given last. This is so for the segments
of every text; what is written with the mark has as its segments the fields that were joined, so
splitting undoes joining, and nothing is gathered if no key comes again.

* `Fields.IsLast`, `Fields.Gathers`: what gathering some fields comes to.
* `Fields.Gathers.put`, `Fields.gathers_foldl_put`: putting one field, and all of them in turn.
* `Fields.Gathers.unique`: there is one way to gather.
* `Fields.ofText_eq_iff_gathers`: the fields of a text.
* `Fields.ofText_joined`: the fields of a text that was joined.
-/

namespace RecurringEvents

open Text

namespace Fields

variable {key value : List Char} {f g : List Char × List Char} {fs gs : Fields}

/-- Whether a field is the last one with its key. -/
def IsLast (fs : Fields) (f : List Char × List Char) : Prop :=
  ∃ before after, fs = before ++ f :: after ∧ f.1 ∉ after.map Prod.fst

/-- Whether the first place of a key among some keys is before that of another. -/
def ComesBefore (keys : List (List Char)) (key other : List Char) : Prop :=
  keys.idxOf key < keys.idxOf other

/-- What gathering some fields comes to. -/
structure Gathers (fs gs : Fields) : Prop where
  once : (gs.map Prod.fst).Nodup
  inOrder : (gs.map Prod.fst).Pairwise (ComesBefore (fs.map Prod.fst))
  /-- Each key that comes has its last value. -/
  mem_iff : ∀ f, f ∈ gs ↔ IsLast fs f

/-! ## Last fields -/

theorem IsLast.mem (h : IsLast fs f) : f ∈ fs := by
  obtain ⟨before, after, rfl, -⟩ := h
  exact List.mem_append_right before List.mem_cons_self

theorem not_isLast_nil (f : List Char × List Char) : ¬IsLast [] f := fun h =>
  List.not_mem_nil h.mem

/-- A field at the end is the last one with its key, and the others with this key are not any
more. -/
theorem isLast_concat_iff : IsLast (fs ++ [g]) f ↔ f = g ∨ IsLast fs f ∧ f.1 ≠ g.1 := by
  constructor
  · rintro ⟨before, after, heq, hlast⟩
    rcases List.eq_nil_or_concat after with rfl | ⟨front, x, rfl⟩
    · exact Or.inl (List.append_singleton_inj.1 heq).2.symm
    · rw [List.concat_eq_append, ← List.cons_append, ← List.append_assoc,
        List.append_singleton_inj] at heq
      obtain ⟨rfl, rfl⟩ := heq
      rw [List.concat_eq_append, List.map_append, List.mem_append, not_or] at hlast
      exact Or.inr ⟨⟨before, front, rfl, hlast.1⟩, fun hkey => hlast.2 (List.mem_singleton.2 hkey)⟩
  · rintro (rfl | ⟨⟨before, after, rfl, hlast⟩, hne⟩)
    · exact ⟨fs, [], rfl, List.not_mem_nil⟩
    · refine ⟨before, after ++ [g], by rw [List.append_assoc, List.cons_append], ?_⟩
      rw [List.map_append, List.mem_append, not_or]
      exact ⟨hlast, fun hmem => hne (List.mem_singleton.1 hmem)⟩

/-- A key that comes has a last value. -/
theorem exists_isLast (h : key ∈ fs.map Prod.fst) : ∃ value, IsLast fs (key, value) := by
  induction fs using List.reverseRecOn with
  | nil => cases h
  | append_singleton fs g ih =>
    by_cases hkey : key = g.1
    · subst hkey
      exact ⟨g.2, isLast_concat_iff.2 (Or.inl rfl)⟩
    · rw [List.map_append, List.mem_append] at h
      obtain ⟨value, hvalue⟩ := ih (h.resolve_right fun hmem => hkey (List.mem_singleton.1 hmem))
      exact ⟨value, isLast_concat_iff.2 (Or.inr ⟨hvalue, hkey⟩)⟩

/-! ## First places -/

/-- What comes later does not change the first places. -/
theorem comesBefore_concat_iff {keys : List (List Char)} {other last : List Char} (h : key ∈ keys)
    (h' : other ∈ keys) :
    ComesBefore (keys ++ [last]) key other ↔ ComesBefore keys key other := by
  rw [ComesBefore, List.idxOf_append_of_mem h, List.idxOf_append_of_mem h', ComesBefore]

/-- A new key comes after all others. -/
theorem comesBefore_concat {keys : List (List Char)} {last : List Char} (h : key ∈ keys)
    (hnew : last ∉ keys) : ComesBefore (keys ++ [last]) key last := by
  calc (keys ++ [last]).idxOf key
      = keys.idxOf key := List.idxOf_append_of_mem h
    _ < keys.length := List.idxOf_lt_length_iff.2 h
    _ ≤ keys.length + [last].idxOf last := Nat.le_add_right _ _
    _ = (keys ++ [last]).idxOf last := (List.idxOf_append_of_notMem hnew).symm

/-! ## Putting one field after the other -/

/-- What is there after a put: the new field, and the others with another key. -/
theorem mem_put_iff (h : (fs.map Prod.fst).Nodup) :
    f ∈ put key value fs ↔ f = (key, value) ∨ f ∈ fs ∧ f.1 ≠ key := by
  induction fs with
  | nil => simp [put]
  | cons g gs ih =>
    rw [List.map_cons, List.nodup_cons] at h
    obtain ⟨hnew, hnodup⟩ := h
    by_cases hg : g.1 = key
    · have hothers : f ∈ gs → f.1 ≠ key := fun hmem hkey =>
        hnew (List.mem_map.2 ⟨f, hmem, hkey.trans hg.symm⟩)
      rw [put, if_pos hg, List.mem_cons, List.mem_cons]
      constructor
      · exact Or.imp_right fun hmem => ⟨Or.inr hmem, hothers hmem⟩
      · rintro (hf | ⟨rfl | hmem, hkey⟩)
        · exact Or.inl hf
        · exact absurd hg hkey
        · exact Or.inr hmem
    · have hfirst : f = g → f.1 ≠ key := fun hf => hf ▸ hg
      rw [put, if_neg hg, List.mem_cons, List.mem_cons, ih hnodup, or_and_right,
        and_iff_left_of_imp hfirst, or_left_comm]

theorem Gathers.mem_keys_iff (h : Gathers fs gs) :
    key ∈ gs.map Prod.fst ↔ key ∈ fs.map Prod.fst := by
  constructor
  · intro hkey
    obtain ⟨f, hf, rfl⟩ := List.mem_map.1 hkey
    exact List.mem_map_of_mem ((h.mem_iff f).1 hf).mem
  · intro hkey
    obtain ⟨value, hvalue⟩ := exists_isLast hkey
    exact List.mem_map.2 ⟨(key, value), (h.mem_iff _).2 hvalue, rfl⟩

/-- **Putting a field gathers one more.** -/
theorem Gathers.put (h : Gathers fs gs) (key value : List Char) :
    Gathers (fs ++ [(key, value)]) (put key value gs) where
  once := nodup_put h.once key value
  inOrder := by
    have hold : (gs.map Prod.fst).Pairwise (ComesBefore (fs.map Prod.fst ++ [key])) :=
      h.inOrder.imp_of_mem fun hk hother hbefore =>
        (comesBefore_concat_iff (h.mem_keys_iff.1 hk) (h.mem_keys_iff.1 hother)).2 hbefore
    rw [List.map_append, keys_put]
    split
    · exact hold
    · next hnew =>
      refine List.pairwise_append.2 ⟨hold, List.pairwise_singleton _ key,
        fun k hk other hother => ?_⟩
      rw [List.mem_singleton.1 hother]
      exact comesBefore_concat (h.mem_keys_iff.1 hk) (mt h.mem_keys_iff.2 hnew)
  mem_iff f := by rw [mem_put_iff h.once, h.mem_iff, isLast_concat_iff]

/-- **Putting fields in turn gathers them.** -/
theorem gathers_foldl_put (fs : Fields) :
    Gathers fs (fs.foldl (fun acc f => put f.1 f.2 acc) []) := by
  induction fs using List.reverseRecOn with
  | nil => exact ⟨List.nodup_nil, .nil, fun f => iff_of_false List.not_mem_nil (not_isLast_nil f)⟩
  | append_singleton fs f ih =>
    rw [List.foldl_append]
    exact ih.put f.1 f.2

/-- There is one way to gather. -/
theorem Gathers.unique {gs' : Fields} (h : Gathers fs gs) (h' : Gathers fs gs') : gs = gs' := by
  have hirrefl : Std.Irrefl fun f g : List Char × List Char =>
      ComesBefore (fs.map Prod.fst) f.1 g.1 := ⟨fun f => Nat.lt_irrefl _⟩
  have hantisymm : Std.Antisymm fun f g : List Char × List Char =>
      ComesBefore (fs.map Prod.fst) f.1 g.1 := ⟨fun f g hfg hgf => absurd hgf (Nat.lt_asymm hfg)⟩
  exact (List.pairwise_map.1 h.inOrder).eq_of_mem_iff (List.pairwise_map.1 h'.inOrder) fun f =>
    (h.mem_iff f).trans (h'.mem_iff f).symm

/-! ## The fields of a text -/

/-- The fields that the segments of a text have, as often as they come. -/
def segmentFields (text : List Char) : Fields := (splitOn ';' (body text)).filterMap ofSegment?

/-- **The fields of a text** are those of its segments, gathered. -/
theorem ofText_eq_iff_gathers (text : List Char) :
    ofText text = gs ↔ Gathers (segmentFields text) gs := by
  have hgathers : Gathers (segmentFields text) (ofText text) := by
    rw [ofText, foldl_putSegment]
    exact gathers_foldl_put (segmentFields text)
  constructor
  · rintro rfl
    exact hgathers
  · exact hgathers.unique

example : ofText "RRULE:freq=DAILY;;count=3;junk".toList
    = [("FREQ".toList, "DAILY".toList), ("COUNT".toList, "3".toList)] := by decide

/-- The segments of a marked text are the fields that were joined. -/
theorem segmentFields_mark_append (h : ∀ f ∈ fs, Plain f) :
    segmentFields (mark ++ Rule.fieldsText fs) = fs := by
  rw [segmentFields, body_mark_fieldsText h, filterMap_ofSegment?_fieldsText h]

/-- **Splitting undoes joining.** Of a marked text of plain fields these fields are read, gathered
where a key comes again, and just these in their order where none does. -/
theorem ofText_joined (h : ∀ f ∈ fs, Plain f) :
    (∀ gs, ofText (mark ++ Rule.fieldsText fs) = gs ↔ Gathers fs gs) ∧
    ((fs.map Prod.fst).Nodup → ofText (mark ++ Rule.fieldsText fs) = fs) := by
  refine ⟨fun gs => ?_, fun hnodup => ?_⟩
  · rw [ofText_eq_iff_gathers, segmentFields_mark_append h]
  · rw [ofText_mark_append h, foldl_put_append, List.nil_append]
    exact hnodup

/-- Fields of which one has a mark in its key and `=` in its value, and the last has no value. -/
def customFields : Fields :=
  [("FREQ".toList, "DAILY".toList), ("RRULE:X".toList, "a=b=".toList), ("ÜBER".toList, [])]

/-- Fields of which two come again. -/
def repeatedFields : Fields :=
  [("FREQ".toList, "DAILY".toList), ("COUNT".toList, "3".toList), ("FREQ".toList, "WEEKLY".toList),
    ("X".toList, "=".toList), ("COUNT".toList, [])]

/-- Both lists are plain. The one is read back as it is, and the other is gathered. -/
theorem customFields_joined :
    ((∀ f ∈ customFields, Plain f) ∧ (customFields.map Prod.fst).Nodup ∧
      ofText (mark ++ Rule.fieldsText customFields) = customFields) ∧
    (∀ f ∈ repeatedFields, Plain f) ∧
      Gathers repeatedFields
        [("FREQ".toList, "WEEKLY".toList), ("COUNT".toList, []), ("X".toList, "=".toList)] := by
  have hcustom : ∀ f ∈ customFields, Plain f := by decide +kernel
  have hkeys : (customFields.map Prod.fst).Nodup := by decide
  have hrepeated : ∀ f ∈ repeatedFields, Plain f := by decide +kernel
  exact ⟨⟨hcustom, hkeys, (ofText_joined hcustom).2 hkeys⟩, hrepeated,
    ((ofText_joined hrepeated).1 _).1 (by decide +kernel)⟩

end Fields

end RecurringEvents
