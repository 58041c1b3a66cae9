import RecurringEvents.Proofs.Settings.EnvFile
import RecurringEvents.Proofs.Settings.Lines

/-!
# What loading an environment file comes to

Loading goes through the lines of the file. It leaves the variables that are set, and it gives each
other one the value of the first line that assigns it. The names that are returned are those of the
variables that were set, in the order of these lines.

* `EnvFile.Loads`: what loading some lines comes to.
* `EnvFile.Loads.skip`, `EnvFile.Loads.assign`: what one line does.
* `EnvFile.Ends`, `EnvFile.ends_assignAll`: how the run over all lines ends.
* `EnvFile.loads_text`: a file of text without NUL characters.
-/

namespace RecurringEvents.EnvFile

open Text

variable {env : Environment} {line : List Char} {lines : List (List Char)} {l : Loaded}
  {name value a b : String} {bytes : ByteArray} {text : String}

/-- The first line that assigns `a` precedes the first one that assigns `b`. -/
def Precedes (lines : List (List Char)) (a b : String) : Prop :=
  ∃ i j v w, IsFirst lines i a v ∧ IsFirst lines j b w ∧ i < j

theorem Precedes.cons (h : Precedes lines a b) (ha : ∀ v, ¬Assigns line a v)
    (hb : ∀ v, ¬Assigns line b v) : Precedes (line :: lines) a b := by
  obtain ⟨i, j, v, w, hi, hj, hij⟩ := h
  exact ⟨i + 1, j + 1, v, w, hi.cons ha, hj.cons hb, Nat.succ_lt_succ hij⟩

theorem not_precedes_self (lines : List (List Char)) (a : String) : ¬Precedes lines a a := by
  rintro ⟨i, j, v, w, hi, hj, hij⟩
  obtain ⟨line, hline, hassigns⟩ := hi.assigns
  exact hj.first i hij line hline v hassigns

/-- What loading some lines into an environment comes to. -/
structure Loads (env : Environment) (lines : List (List Char)) (l : Loaded) : Prop where
  /-- What was set keeps its value. -/
  kept : ∀ name, env.isSet name = true → l.env.get? name = env.get? name
  /-- What was not set has the value of the first line for it. -/
  assigned : ∀ name, env.isSet name = false →
    ∀ value, l.env.get? name = some value ↔ ∃ i, IsFirst lines i name value
  /-- The names are those that have been set. -/
  listed : ∀ name, name ∈ l.names ↔ env.isSet name = false ∧ l.env.isSet name = true
  ordered : l.names.Pairwise (Precedes lines)

/-! ## One line after the other -/

theorem loads_nil (env : Environment) (error : Option EnvFileError) :
    Loads env [] { env := env, error := error } where
  kept _ _ := rfl
  assigned name hfree value := by
    constructor
    · intro hvalue
      rw [Environment.isSet, hvalue] at hfree
      cases hfree
    · rintro ⟨i, ⟨line, hline, -⟩, -⟩
      cases hline
  listed name := by
    refine iff_of_false List.not_mem_nil ?_
    rintro ⟨hfree, hset⟩
    exact Environment.ne_of_isSet hset hfree rfl
  ordered := .nil

/-- A line that assigns no variable which is not set makes no difference. -/
theorem Loads.skip (h : Loads env lines l)
    (hline : ∀ name value, Assigns line name value → env.isSet name = true) :
    Loads env (line :: lines) l := by
  have hno : ∀ name, env.isSet name = false → ∀ v, ¬Assigns line name v :=
    fun name hfree v hassigns => Environment.ne_of_isSet (hline name v hassigns) hfree rfl
  refine ⟨h.kept, fun name hfree value => ?_, h.listed, ?_⟩
  · rw [h.assigned name hfree, exists_isFirst_cons_iff, or_iff_right (hno name hfree value),
      and_iff_right (hno name hfree)]
  · refine h.ordered.imp_of_mem fun ha hb hab => ?_
    exact hab.cons (hno _ ((h.listed _).1 ha).1) (hno _ ((h.listed _).1 hb).1)

/-- A line that assigns one sets it, and what follows is loaded into the environment with it. -/
theorem Loads.assign (h : Loads (env.set name value) lines l) (hline : Assigns line name value)
    (hfree : env.isSet name = false) :
    Loads env (line :: lines) { l with names := name :: l.names } := by
  have hself := env.isSet_set_self name value
  have hothers : ∀ {other : String}, other ≠ name → ∀ v, ¬Assigns line other v :=
    fun hne _ hassigns => hne (hassigns.unique hline).1
  have hlater : ∀ {other : String}, other ∈ l.names → other ≠ name :=
    fun hmem => (Environment.ne_of_isSet hself ((h.listed _).1 hmem).1).symm
  -- the variable keeps what the line gives it
  have hname : l.env.get? name = some value :=
    (h.kept name hself).trans (env.get?_set_self name value)
  refine ⟨fun other hset => ?_, fun other hother v => ?_, fun other => ?_, ?_⟩
  · have hne := Environment.ne_of_isSet hset hfree
    rw [h.kept other ((env.isSet_set_of_ne value hne).trans hset), env.get?_set_of_ne value hne]
  · rw [exists_isFirst_cons_iff]
    by_cases hne : other = name
    · subst hne
      rw [hname, Option.some_inj, or_iff_left fun hno => hno.1 value hline]
      exact ⟨fun hv => hv ▸ hline, fun hv => (hline.unique hv).2⟩
    · rw [h.assigned other ((env.isSet_set_of_ne value hne).trans hother),
        or_iff_right (hothers hne v), and_iff_right (hothers hne)]
  · rw [List.mem_cons, h.listed]
    by_cases hne : other = name
    · subst hne
      refine iff_of_true (Or.inl rfl) ⟨hfree, ?_⟩
      rw [Environment.isSet, hname]
      rfl
    · rw [or_iff_right hne, env.isSet_set_of_ne value hne]
  · refine List.pairwise_cons.2 ⟨fun other hmem => ?_, h.ordered.imp_of_mem fun ha hb hab => ?_⟩
    · obtain ⟨hother, hset⟩ := (h.listed other).1 hmem
      obtain ⟨w, hw⟩ := Option.isSome_iff_exists.1 hset
      obtain ⟨j, hj⟩ := (h.assigned other hother w).1 hw
      exact ⟨0, j + 1, value, w, isFirst_zero hline, hj.cons (hothers (hlater hmem)),
        Nat.succ_pos j⟩
    · exact hab.cons (hothers (hlater ha)) (hothers (hlater hb))

/-- How loading some lines ends: with all of them, or at the first one that would set a variable and
holds a NUL character. -/
inductive Ends (env : Environment) (lines : List (List Char)) (l : Loaded) : Prop where
  | complete (loads : Loads env lines l) (error : l.error = none) : Ends env lines l
  | stopped {before after : List (List Char)} {line : List Char} {name value : String}
      (parts : lines = before ++ line :: after) (loads : Loads env before l)
      (assigns : Assigns line name value) (free : l.env.isSet name = false)
      (nul : '\x00' ∈ name.toList ∨ '\x00' ∈ value.toList)
      (error : l.error = some .nulCharacter) : Ends env lines l

theorem Ends.skip (h : Ends env lines l)
    (hline : ∀ name value, Assigns line name value → env.isSet name = true) :
    Ends env (line :: lines) l := by
  rcases h with ⟨hloads, herror⟩ | ⟨rfl, hloads, hassigns, hfree, hnul, herror⟩
  · exact .complete (hloads.skip hline) herror
  · exact .stopped rfl (hloads.skip hline) hassigns hfree hnul herror

theorem Ends.assign (h : Ends (env.set name value) lines l) (hline : Assigns line name value)
    (hfree : env.isSet name = false) :
    Ends env (line :: lines) { l with names := name :: l.names } := by
  rcases h with ⟨hloads, herror⟩ | ⟨rfl, hloads, hassigns, hfree', hnul, herror⟩
  · exact .complete (hloads.assign hline hfree) herror
  · exact .stopped rfl (hloads.assign hline hfree) hassigns hfree' hnul herror

theorem hasNul_iff {a : String × String} :
    hasNul a = true ↔ '\x00' ∈ a.1.toList ∨ '\x00' ∈ a.2.toList := by
  rw [hasNul, Bool.or_eq_true, List.contains_iff_mem, List.contains_iff_mem]

/-- **Making the assignments of some lines ends in one of the two ways.** -/
theorem ends_assignAll (env : Environment) (lines : List (List Char)) :
    Ends env lines (assignAll env (lines.filterMap assignment?)) := by
  induction lines generalizing env with
  | nil => exact .complete (loads_nil env none) rfl
  | cons line lines ih =>
    cases hline : assignment? line with
    | none =>
      rw [List.filterMap_cons_none hline]
      refine (ih env).skip fun name value hassigns => ?_
      rw [assignment?_eq_some_iff.2 hassigns] at hline
      cases hline
    | some assignment =>
      obtain ⟨name, value⟩ := assignment
      have hassigns := assignment?_eq_some_iff.1 hline
      rw [List.filterMap_cons_some hline]
      unfold assignAll
      split
      · next hset =>
        refine (ih env).skip fun other v hother => ?_
        rw [(hother.unique hassigns).1]
        exact hset
      · next hset =>
        rw [Bool.not_eq_true] at hset
        split
        · next hnul => exact .stopped rfl (loads_nil env _) hassigns hset (hasNul_iff.1 hnul) rfl
        · exact (ih (env.set name value)).assign hassigns hset

/-! ## Files -/

/-- The names that are set are different ones. -/
theorem Loads.nodup (h : Loads env lines l) : l.names.Nodup := by
  refine h.ordered.imp ?_
  rintro a b hab rfl
  exact not_precedes_self lines a hab

/-- What was not set is set if some line assigns it. -/
theorem Loads.isSet_iff (h : Loads env lines l) (hfree : env.isSet name = false) :
    l.env.isSet name = true ↔ ∃ line ∈ lines, ∃ value, Assigns line name value := by
  rw [← exists_isFirst_iff, Environment.isSet, Option.isSome_iff_exists]
  exact exists_congr (h.assigned name hfree)

theorem Loaded.result_eq_ok_iff {names : List String} :
    l.result = .ok names ↔ l.error = none ∧ l.names = names := by
  unfold Loaded.result
  cases l.error with
  | none => simp
  | some e => simp

/-- The lines of a text. -/
def linesOf (text : String) : List (List Char) := splitAny isLineBreak text.toList

theorem fromUTF8?_toUTF8 (text : String) : String.fromUTF8? text.toUTF8 = some text :=
  dif_pos text.isValidUTF8

/-- How loading a text ends. -/
theorem ends_load (env : Environment) (h : String.fromUTF8? bytes = some text) :
    Ends env (linesOf text) ((content bytes).load env) := by
  rw [load_of_fromUTF8? h]
  exact ends_assignAll env _

/-- **A file of text without NUL characters gives each variable that is not set the value of the
first line that assigns it.** It leaves the others and returns the names that it has set, each one
once and in the order of these lines. Loaded again, it sets nothing. -/
theorem loads_text (h : String.fromUTF8? bytes = some text) (hnul : '\x00' ∉ text.toList)
    (env : Environment) :
    ∃ l, (content bytes).load env = l ∧ l.result = .ok l.names ∧ l.names.Nodup ∧
      Loads env (linesOf text) l ∧
      (∀ name, env.isSet name = false →
        (l.env.isSet name = true ↔ ∃ line ∈ linesOf text, ∃ value, Assigns line name value)) ∧
      (content bytes).load l.env = { env := l.env } := by
  obtain ⟨hloads, herror⟩ : Loads env (linesOf text) ((content bytes).load env) ∧
      ((content bytes).load env).error = none := by
    rcases ends_load env h with ⟨hloads, herror⟩ | ⟨hparts, -, hassigns, -, hchar, -⟩
    · exact ⟨hloads, herror⟩
    · -- the characters of an assignment are those of the text
      have hmem := hparts ▸ List.mem_append_right _ List.mem_cons_self
      exact absurd (mem_of_mem_splitAny hmem (hassigns.mem_line hchar)) hnul
  exact ⟨_, rfl, Loaded.result_eq_ok_iff.2 ⟨herror, rfl⟩, hloads.nodup, hloads,
    fun _ hfree => hloads.isSet_iff hfree, load_load herror⟩

/-- Some defaults: a limit that is given twice, a zone in quotes, and a title. -/
def defaultsText : String :=
  "# defaults\nexport LIMIT = \"7\"\nLIMIT=8\n\nZONE='UTC'\r\nTITLE=none\n"

/-- An environment with a title that is empty. -/
def untitled : Environment := ⟨[("TITLE", "")]⟩

theorem defaults_loaded :
    (String.fromUTF8? defaultsText.toUTF8 = some defaultsText ∧ '\x00' ∉ defaultsText.toList) ∧
    ∃ l, (content defaultsText.toUTF8).load untitled = l ∧ Loads untitled (linesOf defaultsText) l ∧
      l = { env := (untitled.set "LIMIT" "7").set "ZONE" "UTC", names := ["LIMIT", "ZONE"] } ∧
      (content defaultsText.toUTF8).load l.env = { env := l.env } := by
  have htext := fromUTF8?_toUTF8 defaultsText
  have hnul : '\x00' ∉ defaultsText.toList := by decide +kernel
  obtain ⟨l, hl, -, -, hloads, -, hagain⟩ := loads_text htext hnul untitled
  refine ⟨⟨htext, hnul⟩, l, hl, hloads, ?_, hagain⟩
  rw [← hl, load_of_fromUTF8? htext]
  decide +kernel

end RecurringEvents.EnvFile
