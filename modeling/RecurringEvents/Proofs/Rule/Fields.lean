import RecurringEvents.Proofs.Text.Written
import RecurringEvents.Rule.Printer

/-!
# Splitting undoes joining

Fields are written with `=` after the key and semicolons between them. They are found again if their
keys are in upper case and neither keys nor values hold what separates them. What is written is
split segment by segment, and each segment is put into the fields before it.

* `ofSegment?_text`: a segment is read back as its field.
* `filterMap_ofSegment?_fieldsText`: a text of plain fields has these fields in its segments.
* `ofText_mark_append`: a marked text puts its fields one after the other.
* `foldl_put_append`: fields with new keys stand at the end.
-/

namespace RecurringEvents

open Text

namespace Fields

/-- A field that can be read back: the key is in upper case and is not empty, key and value are
trimmed, and there is no separator in them that would end them too early. -/
structure Plain (f : List Char × List Char) : Prop where
  key_ne : f.1 ≠ []
  key_upper : upper (trim f.1) = f.1
  key_cut : '=' ∉ f.1
  key_end : ';' ∉ f.1
  value_trim : trim f.2 = f.2
  value_end : ';' ∉ f.2

instance (f : List Char × List Char) : Decidable (Plain f) :=
  decidable_of_iff
    (f.1 ≠ [] ∧ upper (trim f.1) = f.1 ∧ '=' ∉ f.1 ∧ ';' ∉ f.1 ∧ trim f.2 = f.2 ∧ ';' ∉ f.2)
    ⟨fun ⟨hne, hupper, hcut, hend, htrim, hend'⟩ => ⟨hne, hupper, hcut, hend, htrim, hend'⟩,
      fun h => ⟨h.key_ne, h.key_upper, h.key_cut, h.key_end, h.value_trim, h.value_end⟩⟩

/-! ## Segments -/

/-- A segment is read back as its field. -/
theorem ofSegment?_text {f : List Char × List Char} (h : Plain f) :
    ofSegment? (f.1 ++ '=' :: f.2) = some f := by
  simp only [ofSegment?, cut?_append h.key_cut, h.key_upper, h.key_ne, if_false, h.value_trim]

/-- Plain fields do not hold the separator of segments. -/
theorem Plain.not_mem_text {f : List Char × List Char} (h : Plain f) :
    ';' ∉ f.1 ++ '=' :: f.2 := by
  intro hm
  rcases List.mem_append.1 hm with hm | hm
  · exact h.key_end hm
  · rcases List.mem_cons.1 hm with hm | hm
    · cases hm
    · exact h.value_end hm

/-- Only the segments that have a field count. -/
theorem foldl_putSegment (ss : List (List Char)) (fs : Fields) :
    ss.foldl putSegment fs = (ss.filterMap ofSegment?).foldl (fun acc f => put f.1 f.2 acc) fs := by
  induction ss generalizing fs with
  | nil => rfl
  | cons s ss ih =>
    rw [List.foldl_cons, ih, List.filterMap_cons, putSegment]
    cases ofSegment? s with
    | none => rfl
    | some f => rfl

/-- **A text of plain fields has these fields in its segments**, in their order and as often as they
were written. -/
theorem filterMap_ofSegment?_fieldsText {fs : Fields} (h : ∀ f ∈ fs, Plain f) :
    (splitOn ';' (Rule.fieldsText fs)).filterMap ofSegment? = fs := by
  cases fs with
  | nil => rfl
  | cons f fs =>
    rw [Rule.fieldsText, splitOn_join (by simp) fun s hs => ?_, List.filterMap_map]
    · calc (f :: fs).filterMap (ofSegment? ∘ fun g => g.1 ++ '=' :: g.2)
          = (f :: fs).filterMap some := List.filterMap_congr fun g hg => ofSegment?_text (h g hg)
        _ = f :: fs := List.filterMap_some
    · obtain ⟨g, hg, rfl⟩ := List.mem_map.1 hs
      exact (h g hg).not_mem_text

/-! ## Texts -/

/-- The text of a plain field does not end with white space, not even without a value. -/
theorem Plain.getLast?_text {f : List Char × List Char} (h : Plain f) :
    ∀ c ∈ (f.1 ++ '=' :: f.2).getLast?, isBlank c = false := by
  rw [← List.singleton_append, ← List.append_assoc]
  refine getLast?_append_not_blank (fun c hc => ?_) (trim_eq_self_iff.1 h.value_trim).2
  rw [List.getLast?_concat] at hc
  cases hc
  rfl

/-- The text of plain fields does not end with white space. -/
theorem getLast?_fieldsText {fs : Fields} (h : ∀ f ∈ fs, Plain f) :
    ∀ c ∈ (Rule.fieldsText fs).getLast?, isBlank c = false := by
  unfold Rule.fieldsText
  induction fs with
  | nil =>
    intro c hc
    cases hc
  | cons f fs ih =>
    have hf := (h f List.mem_cons_self).getLast?_text
    cases fs with
    | nil => exact hf
    | cons g gs =>
      refine getLast?_append_not_blank (getLast?_append_not_blank hf fun c hc => ?_)
        (ih fun f hf => h f (List.mem_cons_of_mem _ hf))
      cases hc
      rfl

/-- The body of a marked text of plain fields is what follows the mark. -/
theorem body_mark_fieldsText {fs : Fields} (h : ∀ f ∈ fs, Plain f) :
    body (mark ++ Rule.fieldsText fs) = Rule.fieldsText fs := by
  have htrim : trim (mark ++ Rule.fieldsText fs) = mark ++ Rule.fieldsText fs := by
    refine trim_eq_self_iff.2 ⟨fun c hc => ?_, ?_⟩
    · cases hc
      rfl
    · refine getLast?_append_not_blank (fun c hc => ?_) (getLast?_fieldsText h)
      cases hc
      rfl
  have hmark : mark.isPrefixOf (upper (mark ++ Rule.fieldsText fs)) = true := by
    rw [upper_append, (by decide : upper mark = mark), List.isPrefixOf_iff_prefix]
    exact List.prefix_append mark _
  rw [body]
  simp only [htrim, hmark, if_true, List.drop_left]

/-- **A marked text puts its fields one after the other.** -/
theorem ofText_mark_append {fs : Fields} (h : ∀ f ∈ fs, Plain f) :
    ofText (mark ++ Rule.fieldsText fs) = fs.foldl (fun acc f => put f.1 f.2 acc) [] := by
  rw [ofText, body_mark_fieldsText h, foldl_putSegment, filterMap_ofSegment?_fieldsText h]

/-- A text of plain fields without the mark puts its fields as well, if it does not look like a
marked one. -/
theorem ofText_fieldsText {fs : Fields} (h : ∀ f ∈ fs, Plain f)
    (htrim : trim (Rule.fieldsText fs) = Rule.fieldsText fs)
    (hmark : mark.isPrefixOf (upper (Rule.fieldsText fs)) = false) :
    ofText (Rule.fieldsText fs) = fs.foldl (fun acc f => put f.1 f.2 acc) [] := by
  rw [ofText, body]
  simp only [htrim, hmark, Bool.false_eq_true, if_false]
  rw [foldl_putSegment, filterMap_ofSegment?_fieldsText h]

/-! ## Putting -/

/-- A new key stands at the end. -/
theorem put_of_not_mem {key : List Char} (value : List Char) {fs : Fields}
    (h : key ∉ fs.map Prod.fst) : put key value fs = fs ++ [(key, value)] := by
  induction fs with
  | nil => rfl
  | cons f fs ih =>
    rw [List.map_cons, List.mem_cons, not_or] at h
    rw [put, if_neg (Ne.symm h.1), ih h.2, List.cons_append]

/-- No key comes twice. -/
theorem nodup_put {fs : Fields} (h : (fs.map Prod.fst).Nodup) (key value : List Char) :
    ((put key value fs).map Prod.fst).Nodup := by
  rw [keys_put]
  split
  · exact h
  · next hk =>
    refine List.nodup_append.2 ⟨h, List.pairwise_singleton _ key,
      fun k hmem other hother hkey => ?_⟩
    rw [hkey, List.mem_singleton.1 hother] at hmem
    exact hk hmem

/-- **Fields with new keys stand at the end, in their order.** -/
theorem foldl_put_append {acc fs : Fields} (h : ((acc ++ fs).map Prod.fst).Nodup) :
    fs.foldl (fun acc f => put f.1 f.2 acc) acc = acc ++ fs := by
  induction fs generalizing acc with
  | nil => rw [List.foldl_nil, List.append_nil]
  | cons f fs ih =>
    have hnew : f.1 ∉ acc.map Prod.fst := by
      intro hm
      rw [List.map_append, List.nodup_append] at h
      exact h.2.2 f.1 hm f.1 (List.mem_cons_self) rfl
    rw [List.foldl_cons, put_of_not_mem f.2 hnew, ih, List.append_assoc, List.singleton_append]
    rwa [List.append_assoc, List.singleton_append]

end Fields

end RecurringEvents
