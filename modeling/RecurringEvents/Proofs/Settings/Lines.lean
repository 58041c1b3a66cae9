import RecurringEvents.Proofs.Text.Trimmed
import RecurringEvents.Settings.EnvFile

/-!
# Lines of an environment file

A line that assigns a value holds an equals sign, and it is no comment. The name is what precedes
the first equals sign, and the value is what follows it.

* `EnvFile.Assigns`: what a line assigns, said without the reader.
* `EnvFile.assignment?_eq_some_iff`: the reader finds exactly this.
* `EnvFile.IsFirst`: the first line that assigns a variable.
-/

namespace RecurringEvents.EnvFile

open Text

variable {line key text : List Char} {lines : List (List Char)} {name value value' : String}
  {i j : Nat} {c : Char}

/-! ## One line -/

/-- How a name is written before the equals sign: with white space around it, and with or without
`export` and a space in front. -/
inductive WritesName (key : List Char) : List Char → Prop where
  | plain {name : List Char} (trims : Trims isBlank key name)
      (unmarked : ¬"export ".toList <+: name) : WritesName key name
  | exported {rest name : List Char} (marked : Trims isBlank key ("export ".toList ++ rest))
      (trims : Trims isBlank rest name) : WritesName key name

/-- How a value is written after the equals sign: with white space around it, within it double
quotes and within these single ones. -/
inductive WritesValue (text : List Char) : List Char → Prop where
  | intro {quoted inner value : List Char} (spaced : Trims isBlank text quoted)
      (double : Trims (· = '"') quoted inner) (single : Trims (· = '\x27') inner value) :
      WritesValue text value

/-- What a line assigns. -/
inductive Assigns (line : List Char) : String → String → Prop where
  | intro {body key text name value : List Char} (trims : Trims isBlank line body)
      (noComment : body.head? ≠ some '#') (parts : body = key ++ '=' :: text) (first : '=' ∉ key)
      (names : WritesName key name) (nonempty : name ≠ []) (writes : WritesValue text value) :
      Assigns line (String.ofList name) (String.ofList value)

theorem withoutExport_trim_eq_iff {name : List Char} :
    withoutExport (trim key) = name ↔ WritesName key name := by
  constructor
  · rintro rfl
    unfold withoutExport
    split
    · next hmark =>
      obtain ⟨rest, hrest⟩ := List.isPrefixOf_iff_prefix.1 hmark
      refine .exported (trimBy_eq_iff.1 hrest.symm) (trimBy_eq_iff.1 ?_)
      rw [← hrest]
      rfl
    · next hmark =>
      exact .plain (trimBy_eq_iff.1 rfl) fun hprefix => hmark (List.isPrefixOf_iff_prefix.2 hprefix)
  · rintro (⟨htrims, hunmarked⟩ | ⟨hmarked, htrims⟩)
    · rw [trim, trimBy_eq_iff.2 htrims, withoutExport, if_neg]
      exact fun hprefix => hunmarked (List.isPrefixOf_iff_prefix.1 hprefix)
    · rw [trim, trimBy_eq_iff.2 hmarked, withoutExport, if_pos]
      · exact trimBy_eq_iff.2 htrims
      · exact List.isPrefixOf_iff_prefix.2 (List.prefix_append _ _)

theorem unquoted_eq_iff {value : List Char} : unquoted text = value ↔ WritesValue text value := by
  constructor
  · rintro rfl
    exact .intro (trims_trimBy _ _) (trims_trimBy _ _) (trims_trimBy _ _)
  · rintro ⟨hspaced, hdouble, hsingle⟩
    rw [unquoted, trim, trimBy_eq_iff.2 hspaced, trimBy_eq_iff.2 hdouble, trimBy_eq_iff.2 hsingle]

/-- **A line is read as the assignment that it makes.** -/
theorem assignment?_eq_some_iff :
    assignment? line = some (name, value) ↔ Assigns line name value := by
  unfold assignment?
  constructor
  · intro h
    simp only at h
    split at h
    · cases h
    · next hbody =>
      split at h
      · cases h
      · next key text hcut =>
        split at h
        · cases h
        · next hname =>
          obtain ⟨hparts, hfirst⟩ := eq_of_cut? hcut
          cases h
          exact .intro (trims_trimBy _ _) (fun hhead => hbody (Or.inr hhead)) hparts hfirst
            (withoutExport_trim_eq_iff.1 rfl) hname (unquoted_eq_iff.1 rfl)
  · rintro ⟨htrims, hnoComment, rfl, hfirst, hnames, hnonempty, hwrites⟩
    rw [trim, trimBy_eq_iff.2 htrims]
    simp only [cut?_append hfirst, withoutExport_trim_eq_iff.2 hnames, unquoted_eq_iff.2 hwrites,
      if_neg hnonempty]
    rw [if_neg]
    rintro (hnil | hhead)
    · exact List.append_ne_nil_of_right_ne_nil _ (List.cons_ne_nil _ _) hnil
    · exact hnoComment hhead

/-- A line makes at most one assignment. -/
theorem Assigns.unique {name' : String} (h : Assigns line name value)
    (h' : Assigns line name' value') : name = name' ∧ value = value' := by
  have heq := (assignment?_eq_some_iff.2 h).symm.trans (assignment?_eq_some_iff.2 h')
  exact Prod.mk.inj (Option.some.inj heq)

theorem WritesName.subset {name : List Char} (h : WritesName key name) : name ⊆ key := by
  rcases h with ⟨htrims, -⟩ | ⟨hmarked, htrims⟩
  · exact htrims.subset
  · exact fun _ hc => hmarked.subset (List.mem_append_right _ (htrims.subset hc))

theorem WritesValue.subset {value : List Char} (h : WritesValue text value) : value ⊆ text := by
  obtain ⟨hspaced, hdouble, hsingle⟩ := h
  exact fun _ hc => hspaced.subset (hdouble.subset (hsingle.subset hc))

/-- The characters of an assignment are those of its line. -/
theorem Assigns.mem_line (h : Assigns line name value)
    (hc : c ∈ name.toList ∨ c ∈ value.toList) : c ∈ line := by
  obtain ⟨htrims, -, rfl, -, hnames, -, hwrites⟩ := h
  rw [String.toList_ofList, String.toList_ofList] at hc
  refine htrims.subset ?_
  rcases hc with hc | hc
  · exact List.mem_append_left _ (hnames.subset hc)
  · exact List.mem_append_right _ (List.mem_cons_of_mem _ (hwrites.subset hc))

/-! ## The first line for a variable -/

/-- Whether the line number `i` is the first one that assigns a variable, and assigns it `value`. -/
structure IsFirst (lines : List (List Char)) (i : Nat) (name value : String) : Prop where
  assigns : ∃ line, lines[i]? = some line ∧ Assigns line name value
  first : ∀ j < i, ∀ line, lines[j]? = some line → ∀ v, ¬Assigns line name v

theorem isFirst_zero (h : Assigns line name value) : IsFirst (line :: lines) 0 name value :=
  ⟨⟨line, rfl, h⟩, fun _ hj => absurd hj (Nat.not_lt_zero _)⟩

theorem IsFirst.cons (h : IsFirst lines i name value) (hline : ∀ v, ¬Assigns line name v) :
    IsFirst (line :: lines) (i + 1) name value := by
  refine ⟨h.assigns, fun j hj l hl => ?_⟩
  cases j with
  | zero =>
    cases hl
    exact hline
  | succ j => exact h.first j (Nat.lt_of_succ_lt_succ hj) l hl

/-- The first line of all assigns a variable, or one of the others is the first to do so. -/
theorem exists_isFirst_cons_iff : (∃ i, IsFirst (line :: lines) i name value) ↔
    Assigns line name value ∨ (∀ v, ¬Assigns line name v) ∧ ∃ i, IsFirst lines i name value := by
  constructor
  · rintro ⟨i, hassigns, hfirst⟩
    cases i with
    | zero =>
      obtain ⟨l, hl, hassigns⟩ := hassigns
      cases hl
      exact Or.inl hassigns
    | succ i =>
      refine Or.inr ⟨hfirst 0 (Nat.succ_pos i) line rfl, i, hassigns, fun j hj => ?_⟩
      exact hfirst (j + 1) (Nat.succ_lt_succ hj)
  · rintro (hassigns | ⟨hline, i, hi⟩)
    · exact ⟨0, isFirst_zero hassigns⟩
    · exact ⟨i + 1, hi.cons hline⟩

/-- There is a first line for a variable if some line assigns it. -/
theorem exists_isFirst_iff : (∃ value, ∃ i, IsFirst lines i name value) ↔
    ∃ line ∈ lines, ∃ value, Assigns line name value := by
  induction lines with
  | nil =>
    constructor
    · rintro ⟨value, i, ⟨line, hline, -⟩, -⟩
      cases hline
    · rintro ⟨line, hline, -⟩
      cases hline
  | cons line lines ih =>
    simp only [exists_isFirst_cons_iff, List.exists_mem_cons_iff, exists_or, ← ih]
    by_cases hline : ∃ v, Assigns line name v
    · exact iff_of_true (Or.inl hline) (Or.inl hline)
    · rw [or_iff_right hline, exists_and_left, and_iff_right (not_exists.1 hline),
        or_iff_right hline]

end RecurringEvents.EnvFile
