import RecurringEvents.Zone.Host

/-!
# Names that resolve

Whatever the environment and the host say, the name of the host's region and that of the default
region name a region. This is so for every way to find regions by their names that is complete: a
name that is found is then found again when it is read as a text, if not always under the same name.

The default region is the one that the first of three sources names: the configured text, the
fallback or the host. There are two exceptions, in both of which it is the host's: a fallback is not
asked for if a text is configured, even one that names no region; and where the host links to an
alias, the alias is kept.

* `ZoneName.exists_resolveIn_of_known`: a name that is found resolves.
* `Host.exists_resolveIn`: the names of the host's and the default region resolve.
* `Host.defaultZoneNameIn_first_iff`: which one is the default.
-/

namespace RecurringEvents

/-- An entry that is looked up is in the list. -/
theorem mem_of_lookup {α β : Type} [BEq α] [LawfulBEq α] {entries : List (α × β)} {key : α}
    {value : β} (h : entries.lookup key = some value) : (key, value) ∈ entries := by
  obtain ⟨before, after, rfl, -⟩ := List.lookup_eq_some_iff.1 h
  exact List.mem_append_right before List.mem_cons_self

namespace ZoneName

variable {regions : String → Option Region} {name : String}

/-- A canonical name names a region, by whatever name it is looked up. -/
theorem canonicalIn?_eq_some_iff {c : String} : canonicalIn? regions name = some c ↔
    name ≠ "" ∧ (regions c).isSome ∧ lookupName name = c := by
  unfold canonicalIn?
  constructor
  · intro h
    split at h
    · next hknown =>
      cases h
      exact ⟨hknown.1, hknown.2, rfl⟩
    · cases h
  · rintro ⟨hne, hknown, rfl⟩
    exact if_pos ⟨hne, hknown⟩

/-- **A name that is found is looked up by a name that is found.** -/
theorem isSome_lookupName (hr : IsComplete regions) (h : (regions name).isSome) :
    (regions (lookupName name)).isSome := by
  unfold lookupName ofWindows?
  cases hwindows : windowsNames.lookup name with
  | some v => exact hr.windows _ (mem_of_lookup hwindows)
  | none =>
    rw [Option.getD_none, hr.trimmed name h, unalias]
    cases halias : ZoneName.aliases.lookup name with
    | some v => exact hr.aliases _ (mem_of_lookup halias)
    | none => exact h

/-- A name that is found has a canonical name. -/
theorem canonicalIn?_of_known (hr : IsComplete regions) (h : (regions name).isSome) :
    canonicalIn? regions name = some (lookupName name) := by
  refine canonicalIn?_eq_some_iff.2 ⟨?_, isSome_lookupName hr h, rfl⟩
  rintro rfl
  rw [hr.nonempty] at h
  cases h

/-- **A name that is found resolves.** -/
theorem exists_resolveIn_of_known (hr : IsComplete regions) (h : (regions name).isSome) :
    ∃ r, resolveIn? regions name = some r := by
  obtain ⟨r, hfound⟩ := Option.isSome_iff_exists.1 (isSome_lookupName hr h)
  refine ⟨r, ?_⟩
  rw [resolveIn?, canonicalIn?_of_known hr h, Option.bind_some, hfound]

end ZoneName

namespace Host

open ZoneName

variable {regions : String → Option Region}

/-! ## The names resolve -/

/-- The name of the host's region is found. -/
theorem isSome_zoneNameIn (hutc : (regions fallbackName).isSome) (h : Host) (env : Environment) :
    (regions (h.zoneNameIn regions env)).isSome := by
  unfold zoneNameIn
  cases hvariable : variableNameIn? regions env with
  | some name => exact isSome_of_canonicalIn? hvariable
  | none =>
    cases h.linkedName?.or h.abbreviatedName? with
    | none => exact hutc
    | some name =>
      show (regions (if (regions name).isSome then name else fallbackName)).isSome
      split
      · next hknown => exact hknown
      · exact hutc

/-- The name of the default region is found. -/
theorem isSome_defaultZoneNameIn (hutc : (regions fallbackName).isSome) (h : Host)
    (env : Environment) (fallback : Option String) :
    (regions (h.defaultZoneNameIn regions env fallback)).isSome := by
  unfold defaultZoneNameIn
  cases (given? (env.get? "RECURRENCE_DEFAULT_TIMEZONE")).or (given? fallback) with
  | none => exact isSome_zoneNameIn hutc h env
  | some name =>
    show (regions ((canonicalIn? regions name).getD (h.zoneNameIn regions env))).isSome
    cases hname : canonicalIn? regions name with
    | none =>
      rw [Option.getD_none]
      exact isSome_zoneNameIn hutc h env
    | some c =>
      rw [Option.getD_some]
      exact isSome_of_canonicalIn? hname

/-- **The names of the host's and of the default region resolve**, whatever the environment, the
host and the fallback say. -/
theorem exists_resolveIn (hr : IsComplete regions) (h : Host) (env : Environment)
    (fallback : Option String) :
    (∃ r, resolveIn? regions (h.zoneNameIn regions env) = some r) ∧
      ∃ r, resolveIn? regions (h.defaultZoneNameIn regions env fallback) = some r :=
  ⟨exists_resolveIn_of_known hr (isSome_zoneNameIn hr.utc h env),
    exists_resolveIn_of_known hr (isSome_defaultZoneNameIn hr.utc h env fallback)⟩

/-- A host that links to an alias; the variables name no region. -/
def linkedToAlias : Host where
  localtime := some "/usr/share/zoneinfo/US/Pacific"

/-- Variables that name no region. -/
def strayNames : Environment :=
  ⟨[("TZ", ":: Mars/Base "), ("RECURRENCE_DEFAULT_TIMEZONE", "Nowhere")]⟩

/-- The alias that the host links to is the name of the default region, and it resolves. -/
theorem linkedToAlias_resolves : IsComplete Region.find? ∧
    linkedToAlias.zoneNameIn Region.find? strayNames = "US/Pacific" ∧
    (∃ r, resolveIn? Region.find? (linkedToAlias.zoneNameIn Region.find? strayNames) = some r) ∧
    ∃ r, resolveIn? Region.find? (linkedToAlias.defaultZoneNameIn Region.find? strayNames none)
      = some r :=
  ⟨Region.isComplete_find?, by decide +kernel,
    exists_resolveIn Region.isComplete_find? linkedToAlias strayNames none⟩

/-! ## The order of the sources -/

/-- The name that is configured for the default region. -/
def configuredName? (env : Environment) : Option String := env.get? "RECURRENCE_DEFAULT_TIMEZONE"

section

variable (regions) (h : Host) (env : Environment) (fallback : Option String)

/-- The texts that name the default region, in the order in which they count. -/
def defaultSources : List String :=
  (configuredName? env).toList ++ fallback.toList ++ [h.zoneNameIn regions env]

/-- Whether the fallback is not asked for, although the configured name names no region and the
fallback names another one than the host's. -/
def PassesOverFallback : Prop :=
  ∃ name c, given? (configuredName? env) = some name ∧ canonicalIn? regions name = none ∧
    fallback.bind (canonicalIn? regions) = some c ∧ c ≠ h.zoneNameIn regions env

/-- Whether nothing but the host names a region, and by a name that is not canonical. -/
def KeepsAlias : Prop :=
  (configuredName? env).bind (canonicalIn? regions) = none ∧
    fallback.bind (canonicalIn? regions) = none ∧
    canonicalIn? regions (h.zoneNameIn regions env) ≠ some (h.zoneNameIn regions env)

/-- An empty text names no region, so it may count as absent. -/
theorem bind_given? (text : Option String) :
    (given? text).bind (canonicalIn? regions) = text.bind (canonicalIn? regions) := by
  cases text with
  | none => rfl
  | some name =>
    by_cases hempty : name = ""
    · subst hempty
      rfl
    · have hgiven : given? (some name) = some name :=
        Option.filter_eq_some_iff.2 ⟨rfl, decide_eq_true hempty⟩
      rw [hgiven]

/-- The first canonical name that one of the sources has. -/
theorem findSome?_defaultSources :
    (h.defaultSources regions env fallback).findSome? (canonicalIn? regions)
      = ((configuredName? env).bind (canonicalIn? regions)).or
          ((fallback.bind (canonicalIn? regions)).or
            (canonicalIn? regions (h.zoneNameIn regions env))) := by
  have hoption : ∀ text : Option String,
      text.toList.findSome? (canonicalIn? regions) = text.bind (canonicalIn? regions) := by
    intro text
    cases text with
    | none => rfl
    | some name => simp
  rw [defaultSources, List.append_assoc, List.findSome?_append, List.findSome?_append, hoption,
    hoption]
  simp

/-- The default is the canonical name of the first text that is given, or else the host's name. -/
theorem defaultZoneNameIn_eq : h.defaultZoneNameIn regions env fallback
    = (((given? (configuredName? env)).or (given? fallback)).bind (canonicalIn? regions)).getD
        (h.zoneNameIn regions env) := by
  unfold defaultZoneNameIn configuredName?
  cases (given? (env.get? "RECURRENCE_DEFAULT_TIMEZONE")).or (given? fallback) with
  | none => rw [Option.bind_none, Option.getD_none]
  | some name => rw [Option.bind_some]

/-- **The default region is the one that the first source names**, by its canonical name, unless the
fallback is passed over or the host's alias is kept. In both of these cases the name is the
host's. -/
theorem defaultZoneNameIn_first_iff :
    ((h.defaultSources regions env fallback).findSome? (canonicalIn? regions)
        = some (h.defaultZoneNameIn regions env fallback) ↔
      ¬h.PassesOverFallback regions env fallback ∧ ¬h.KeepsAlias regions env fallback) ∧
    (h.PassesOverFallback regions env fallback ∨ h.KeepsAlias regions env fallback →
      h.defaultZoneNameIn regions env fallback = h.zoneNameIn regions env) := by
  have hgiven := bind_given? regions (configuredName? env)
  rw [findSome?_defaultSources, defaultZoneNameIn_eq]
  unfold PassesOverFallback KeepsAlias
  cases hconfigured : given? (configuredName? env) with
  | none =>
    -- the fallback is the first text, if it is given
    rw [hconfigured, Option.bind_none] at hgiven
    rw [← hgiven, Option.none_or, Option.none_or, bind_given?]
    cases fallback.bind (canonicalIn? regions) with
    | none => simp
    | some f => simp
  | some name =>
    rw [hconfigured, Option.bind_some] at hgiven
    rw [← hgiven, Option.some_or, Option.bind_some]
    cases hname : canonicalIn? regions name with
    | some c => simp [hname]
    | none =>
      -- the configured name is given, so that the fallback is not asked for
      cases fallback.bind (canonicalIn? regions) with
      | none => simp
      | some f => simp [hname, eq_comm]

end

/-- A name is configured that names no region. -/
def configuredNowhere : Environment := ⟨[("RECURRENCE_DEFAULT_TIMEZONE", "Nowhere")]⟩

/-- The default is not always what the first source says: a fallback that names Paris is passed over
for the host's region, and the alias that the host links to is kept. -/
theorem defaultZoneName_not_first :
    ((({} : Host).defaultSources Region.find? configuredNowhere (some "Europe/Paris")).findSome?
        canonical? = some "Europe/Paris" ∧
      ({} : Host).defaultZoneName configuredNowhere (some "Europe/Paris") = "UTC") ∧
    ((linkedToAlias.defaultSources Region.find? {} none).findSome? canonical?
        = some "America/Los_Angeles" ∧
      linkedToAlias.defaultZoneName {} none = "US/Pacific") := by
  decide +kernel

end Host

end RecurringEvents
