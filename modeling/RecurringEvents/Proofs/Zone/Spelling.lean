import RecurringEvents.Proofs.Text.Trimmed
import RecurringEvents.Proofs.Zone.Names

/-!
# Spellings of a name

White space around a name does not count, and a canonical name is its own canonical name. Both hold
of canonical names, of aliases, of unknown names, and of the names of Windows calendars as they
stand. A Windows name with white space around it is not taken for one: what is left without the
white space is looked up as it is, so that it names no region unless some region goes by a Windows
name.

* `ZoneName.IsPaddedWindows`: a Windows name with white space around it.
* `ZoneName.lookupName_lookupName_iff`: when a name is looked up by a name that stays.
* `ZoneName.canonicalIn?_eq_iff_of_trimmed`: which spellings of a name go together.
* `ZoneName.canonicalIn?_spelled_iff`: white space around names, and names of names.
-/

namespace RecurringEvents.ZoneName

open Text

variable {regions : String → Option Region} {name other v : String}

/-! ## The tables -/

/-- A trimmed text that is in no table is looked up as it is. -/
theorem lookupName_of_plain (hwindows : ofWindows? name = none)
    (halias : aliases.lookup name = none) (htrim : trimmed name = name) :
    lookupName name = name := by
  rw [lookupName, hwindows, Option.getD_none, htrim, unalias, halias, Option.getD_none]

/-- A Windows name is trimmed and no alias, and it stands for a name that is looked up as it is. -/
theorem windows_entry (h : ofWindows? name = some v) :
    trimmed name = name ∧ aliases.lookup name = none ∧ ofWindows? v = none ∧ lookupName v = v := by
  have hall : ∀ e ∈ windowsNames, trimmed e.1 = e.1 ∧ aliases.lookup e.1 = none ∧
      ofWindows? e.2 = none ∧ aliases.lookup e.2 = none := by decide +kernel
  obtain ⟨htrim, halias, hv, hva⟩ := hall _ (mem_of_lookup h)
  -- what the tables refer to are known regions, whose names are trimmed
  have hvt := Region.isComplete_find?.trimmed v
    (Region.isComplete_find?.windows _ (mem_of_lookup h))
  exact ⟨htrim, halias, hv, lookupName_of_plain hv hva hvt⟩

/-- So does an alias. -/
theorem alias_entry (h : aliases.lookup name = some v) : lookupName v = v := by
  have hall : ∀ e ∈ aliases, ofWindows? e.2 = none ∧ aliases.lookup e.2 = none := by decide +kernel
  obtain ⟨hv, hva⟩ := hall _ (mem_of_lookup h)
  exact lookupName_of_plain hv hva
    (Region.isComplete_find?.trimmed v (Region.isComplete_find?.aliases _ (mem_of_lookup h)))

theorem trimmed_trimmed (name : String) : trimmed (trimmed name) = trimmed name := by
  rw [trimmed, trimmed, String.toList_ofList, trim_trim]

/-- White space around a text is trimmed away. -/
theorem trimmed_spelled {u w : String} (hu : ∀ c ∈ u.toList, isBlank c = true)
    (hw : ∀ c ∈ w.toList, isBlank c = true) (name : String) :
    trimmed (u ++ name ++ w) = trimmed name := by
  rw [trimmed, trimmed, String.toList_append, String.toList_append, trim_append_blank hw,
    trim, trimBy_append_left hu, trim]

/-! ## How a name is looked up -/

/-- Whether a text is a Windows name with white space around it. -/
def IsPaddedWindows (name : String) : Prop :=
  ofWindows? name = none ∧ (ofWindows? (trimmed name)).isSome

instance (name : String) : Decidable (IsPaddedWindows name) := inferInstanceAs (Decidable (_ ∧ _))

/-- A Windows name with white space around it is looked up without it. -/
theorem IsPaddedWindows.lookupName_eq (h : IsPaddedWindows name) :
    lookupName name = trimmed name := by
  obtain ⟨v, hv⟩ := Option.isSome_iff_exists.1 h.2
  rw [lookupName, h.1, Option.getD_none, unalias, (windows_entry hv).2.1, Option.getD_none]

/-- Any other text is looked up as it is without the white space around it. -/
theorem lookupName_trimmed (h : ¬IsPaddedWindows name) :
    lookupName (trimmed name) = lookupName name := by
  cases hname : ofWindows? name with
  | some v => rw [(windows_entry hname).1]
  | none =>
    have htrimmed : ofWindows? (trimmed name) = none :=
      Option.not_isSome_iff_eq_none.1 fun hsome => h ⟨hname, hsome⟩
    rw [lookupName, htrimmed, lookupName, hname, trimmed_trimmed]

/-- A trimmed text is looked up by a name that stays. -/
theorem lookupName_lookupName_of_trimmed (h : trimmed name = name) :
    lookupName (lookupName name) = lookupName name := by
  cases hname : ofWindows? name with
  | some v =>
    have hv : lookupName name = v := by rw [lookupName, hname, Option.getD_some]
    rw [hv, (windows_entry hname).2.2.2]
  | none =>
    cases halias : aliases.lookup name with
    | some v =>
      have hv : lookupName name = v := by
        rw [lookupName, hname, Option.getD_none, h, unalias, halias, Option.getD_some]
      rw [hv, alias_entry halias]
    | none => rw [lookupName_of_plain hname halias h, lookupName_of_plain hname halias h]

/-- **A name is looked up by a name that stays**, unless it is a Windows name with white space
around it: that is then looked up as a Windows name. -/
theorem lookupName_lookupName_iff :
    lookupName (lookupName name) = lookupName name ↔ ¬IsPaddedWindows name := by
  constructor
  · intro hstays hpadded
    obtain ⟨v, hv⟩ := Option.isSome_iff_exists.1 hpadded.2
    rw [hpadded.lookupName_eq, lookupName, hv, Option.getD_some] at hstays
    have hnone := (windows_entry hv).2.2.1
    rw [hstays, hv] at hnone
    cases hnone
  · intro hnot
    rw [← lookupName_trimmed hnot]
    exact lookupName_lookupName_of_trimmed (trimmed_trimmed name)

/-! ## Canonical names -/

/-- The empty text is looked up as itself. Since it names no region, it needs no exception. -/
theorem canonicalIn?_eq_some_iff_lookupName (hr : IsComplete regions) :
    canonicalIn? regions name = some v ↔ (regions v).isSome ∧ lookupName name = v := by
  rw [canonicalIn?_eq_some_iff, and_iff_right_iff_imp]
  rintro ⟨hknown, hlookup⟩ rfl
  rw [← hlookup, show lookupName "" = "" by decide +kernel, hr.nonempty] at hknown
  cases hknown

/-- Two texts that are looked up by one name have one canonical name. -/
theorem canonicalIn?_congr (hr : IsComplete regions) (h : lookupName name = lookupName other) :
    canonicalIn? regions name = canonicalIn? regions other := by
  ext v
  rw [canonicalIn?_eq_some_iff_lookupName hr, canonicalIn?_eq_some_iff_lookupName hr, h]

/-- A Windows name with white space around it has another canonical name than without, or none. -/
theorem canonicalIn?_ne_of_padded (hr : IsComplete regions) (htrim : trimmed name = trimmed other)
    (hname : IsPaddedWindows name) (hother : ¬IsPaddedWindows other) :
    canonicalIn? regions name ≠ canonicalIn? regions other := by
  obtain ⟨v, hv⟩ := Option.isSome_iff_exists.1 hname.2
  obtain ⟨-, -, hnone, -⟩ := windows_entry hv
  -- without the white space it stands for the region `v`
  have hregion : canonicalIn? regions other = some v := by
    rw [canonicalIn?_eq_some_iff_lookupName hr, ← lookupName_trimmed hother, ← htrim,
      lookupName, hv, Option.getD_some]
    exact ⟨hr.windows _ (mem_of_lookup hv), rfl⟩
  rw [hregion]
  intro h
  obtain ⟨-, hlookup⟩ := (canonicalIn?_eq_some_iff_lookupName hr).1 h
  rw [hname.lookupName_eq] at hlookup
  rw [← hlookup, hv] at hnone
  cases hnone

/-- **Two texts that differ in the white space around them have one canonical name**, unless one of
them is a Windows name as it stands and the other one is not. -/
theorem canonicalIn?_eq_iff_of_trimmed (hr : IsComplete regions)
    (htrim : trimmed name = trimmed other) :
    canonicalIn? regions name = canonicalIn? regions other ↔
      (IsPaddedWindows name ↔ IsPaddedWindows other) := by
  by_cases hname : IsPaddedWindows name <;> by_cases hother : IsPaddedWindows other
  · refine iff_of_true (canonicalIn?_congr hr ?_) (iff_of_true hname hother)
    rw [hname.lookupName_eq, hother.lookupName_eq, htrim]
  · exact iff_of_false (canonicalIn?_ne_of_padded hr htrim hname hother) fun h => hother (h.1 hname)
  · exact iff_of_false (canonicalIn?_ne_of_padded hr htrim.symm hother hname).symm
      fun h => hname (h.2 hother)
  · refine iff_of_true (canonicalIn?_congr hr ?_) (iff_of_false hname hother)
    rw [← lookupName_trimmed hname, ← lookupName_trimmed hother, htrim]

/-- A canonical name is its own canonical name if its text is looked up by a name that stays. -/
theorem canonicalIn?_canonical_iff (hr : IsComplete regions)
    (h : canonicalIn? regions name = some v) :
    canonicalIn? regions v = some v ↔ ¬IsPaddedWindows name := by
  obtain ⟨hknown, rfl⟩ := (canonicalIn?_eq_some_iff_lookupName hr).1 h
  rw [canonicalIn?_eq_some_iff_lookupName hr, and_iff_right hknown, lookupName_lookupName_iff]

/-- **White space around a name does not count, and a canonical name stays**, Windows names with
white space around them apart. If no region goes by a Windows name, then every canonical name
stays. -/
theorem canonicalIn?_spelled_iff (hr : IsComplete regions) {u w : String}
    (hu : ∀ c ∈ u.toList, isBlank c = true) (hw : ∀ c ∈ w.toList, isBlank c = true)
    (name : String) :
    (canonicalIn? regions (u ++ name ++ w) = canonicalIn? regions name ↔
      (IsPaddedWindows (u ++ name ++ w) ↔ IsPaddedWindows name)) ∧
    (∀ v, canonicalIn? regions name = some v →
      (canonicalIn? regions v = some v ↔ ¬IsPaddedWindows name)) ∧
    ((∀ e ∈ windowsNames, regions e.1 = none) →
      ∀ v, canonicalIn? regions name = some v → canonicalIn? regions v = some v) := by
  refine ⟨canonicalIn?_eq_iff_of_trimmed hr (trimmed_spelled hu hw name),
    fun v => canonicalIn?_canonical_iff hr, fun hnone v hv => ?_⟩
  rw [canonicalIn?_canonical_iff hr hv]
  intro hpadded
  -- otherwise a region would go by the Windows name
  obtain ⟨r, hwindows⟩ := Option.isSome_iff_exists.1 hpadded.2
  obtain ⟨hknown, hlookup⟩ := (canonicalIn?_eq_some_iff_lookupName hr).1 hv
  rw [← hlookup, hpadded.lookupName_eq, hnone _ (mem_of_lookup hwindows)] at hknown
  cases hknown

/-- A name with white space around it: U+3000 in front of it, and a blank behind it. -/
theorem calcutta_spelled :
    (IsComplete Region.find? ∧ (∀ c ∈ "\u3000".toList, isBlank c = true) ∧
      (∀ c ∈ " ".toList, isBlank c = true) ∧ ∀ e ∈ windowsNames, Region.find? e.1 = none) ∧
    canonical? ("\u3000" ++ "Asia/Calcutta" ++ " ") = some "Asia/Kolkata" ∧
    canonical? "Asia/Calcutta" = some "Asia/Kolkata" ∧
    canonical? "Asia/Kolkata" = some "Asia/Kolkata" := by
  have hu : ∀ c ∈ "\u3000".toList, isBlank c = true := forall_mem_of_all (by decide)
  have hw : ∀ c ∈ " ".toList, isBlank c = true := forall_mem_of_all (by decide)
  have hnone : ∀ e ∈ windowsNames, Region.find? e.1 = none := by decide +kernel
  have hname : canonical? "Asia/Calcutta" = some "Asia/Kolkata" := by decide +kernel
  obtain ⟨hspelled, -, hstays⟩ := canonicalIn?_spelled_iff Region.isComplete_find? hu hw
    "Asia/Calcutta"
  refine ⟨⟨Region.isComplete_find?, hu, hw, hnone⟩, ?_, hname, hstays hnone _ hname⟩
  exact (hspelled.2 (by decide +kernel)).trans hname

/-- A Windows name is not known with white space around it. -/
theorem easternTime_padded : canonical? "Eastern Standard Time" = some "America/New_York" ∧
    canonical? (" " ++ "Eastern Standard Time" ++ "") = none ∧
    IsPaddedWindows (" " ++ "Eastern Standard Time" ++ "") := by
  decide +kernel

end RecurringEvents.ZoneName
