import RecurringEvents.Settings.EnvFile

/-!
# Loading an environment file

Of several assignments to one variable the first one counts, unless the variable is set already. A
file is refused if it is no UTF-8, or if an assignment that counts holds a NUL character. A file
that has been loaded sets nothing when it is loaded again.

* `EnvFile.Counts`: the assignments that count.
* `EnvFile.IsRefused`, `EnvFile.error_load_iff`: the files that are refused, and why.
* `EnvFile.load_load`: loading a file again.
-/

namespace RecurringEvents

namespace Environment

/-- An assignment sets its variable. -/
theorem isSet_set_self (e : Environment) (name value : String) : (e.set name value).isSet name := by
  rw [isSet, get?_set_self]
  rfl

/-- It leaves the other ones. -/
theorem isSet_set_of_ne (e : Environment) (value : String) {name other : String}
    (h : other ≠ name) : (e.set name value).isSet other = e.isSet other := by
  rw [isSet, isSet, get?_set_of_ne e value h]

/-- A variable that is set is another one than a variable that is not. -/
theorem ne_of_isSet {e : Environment} {name other : String} (h : e.isSet name = true)
    (h' : e.isSet other = false) : name ≠ other := by
  rintro rfl
  exact Bool.false_ne_true (h'.symm.trans h)

end Environment

namespace EnvFile

variable {env : Environment} {as : List (String × String)} {a b : String × String}

/-- Whether an assignment counts: it is the first one to its variable, which is not set. -/
structure Counts (env : Environment) (as : List (String × String)) (a : String × String) :
    Prop where
  free : env.isSet a.1 = false
  first : as.find? (fun b => b.1 = a.1) = some a

theorem not_counts_nil : ¬Counts env [] a := by
  rintro ⟨-, h⟩
  cases h

/-- An assignment to a variable that is set makes no difference. -/
theorem counts_cons_of_isSet (h : env.isSet b.1 = true) :
    Counts env (b :: as) a ↔ Counts env as a := by
  constructor
  all_goals
    rintro ⟨hfree, hfirst⟩
    have hne : b.1 ≠ a.1 := Environment.ne_of_isSet h hfree
    refine ⟨hfree, ?_⟩
  · rwa [List.find?_cons_of_neg (by simpa using hne)] at hfirst
  · rwa [List.find?_cons_of_neg (by simpa using hne)]

/-- Any other one counts, and after it what counts when its variable is set. -/
theorem counts_cons_of_free (value : String) (h : env.isSet b.1 = false) :
    Counts env (b :: as) a ↔ a = b ∨ Counts (env.set b.1 value) as a := by
  constructor
  · rintro ⟨hfree, hfirst⟩
    by_cases heq : b.1 = a.1
    · rw [List.find?_cons_of_pos (by simpa using heq)] at hfirst
      exact Or.inl (Option.some.inj hfirst).symm
    · rw [List.find?_cons_of_neg (by simpa using heq)] at hfirst
      exact Or.inr ⟨by rwa [env.isSet_set_of_ne value (Ne.symm heq)], hfirst⟩
  · rintro (rfl | ⟨hfree, hfirst⟩)
    · exact ⟨h, List.find?_cons_of_pos (by simp)⟩
    · have hne : b.1 ≠ a.1 := Environment.ne_of_isSet (env.isSet_set_self b.1 value) hfree
      rw [env.isSet_set_of_ne value hne.symm] at hfree
      exact ⟨hfree, by rwa [List.find?_cons_of_neg (by simpa using hne)]⟩

/-- **Assignments are refused if one that counts holds a NUL character.** -/
theorem error_assignAll_iff :
    (assignAll env as).error = some .nulCharacter ↔ ∃ a, Counts env as a ∧ hasNul a = true := by
  induction as generalizing env with
  | nil =>
    constructor
    · intro h
      cases h
    · rintro ⟨a, hcounts, -⟩
      exact absurd hcounts not_counts_nil
  | cons b bs ih =>
    unfold assignAll
    split
    · next hset => simp only [ih, counts_cons_of_isSet hset]
    · next hset =>
      rw [Bool.not_eq_true] at hset
      split
      · next hnul => exact iff_of_true rfl ⟨b, (counts_cons_of_free b.2 hset).2 (Or.inl rfl), hnul⟩
      · next hnul =>
        -- the assignment is made, and those after it are looked at with it
        have hrest : (∃ a, Counts env (b :: bs) a ∧ hasNul a = true) ↔
            ∃ a, Counts (env.set b.1 b.2) bs a ∧ hasNul a = true := by
          refine exists_congr fun a => ?_
          rw [counts_cons_of_free b.2 hset, or_and_right, or_iff_right]
          rintro ⟨rfl, h⟩
          exact hnul h
        rw [hrest]
        exact ih

/-- They are refused for nothing else. -/
theorem eq_nulCharacter_of_assignAll {e : EnvFileError} (h : (assignAll env as).error = some e) :
    e = .nulCharacter := by
  induction as generalizing env with
  | nil => cases h
  | cons b bs ih =>
    unfold assignAll at h
    split at h
    · exact ih h
    · split at h
      · exact (Option.some.inj h).symm
      · exact ih h

/-- Where all variables are set, nothing is assigned. -/
theorem assignAll_of_isSet (h : ∀ a ∈ as, env.isSet a.1 = true) :
    assignAll env as = { env := env } := by
  induction as with
  | nil => rfl
  | cons b bs ih =>
    obtain ⟨hb, hbs⟩ := List.forall_mem_cons.1 h
    unfold assignAll
    rw [if_pos hb]
    exact ih hbs

/-- **All variables are set after assignments that are not refused.** -/
theorem isSet_assignAll (h : (assignAll env as).error = none) :
    ∀ a ∈ as, (assignAll env as).env.isSet a.1 = true := by
  -- what is set when an assignment is looked at remains set
  have hkept : ∀ {env : Environment} {as : List (String × String)} {name : String},
      env.isSet name = true → (assignAll env as).env.isSet name = true := by
    intro env as name hname
    rw [Environment.isSet, get?_assignAll_of_isSet hname]
    exact hname
  induction as generalizing env with
  | nil => exact List.forall_mem_nil _
  | cons b bs ih =>
    unfold assignAll at h ⊢
    split
    · next hset =>
      rw [if_pos hset] at h
      exact List.forall_mem_cons.2 ⟨hkept hset, ih h⟩
    · next hset =>
      rw [if_neg hset] at h
      split
      · next hnul =>
        rw [if_pos hnul] at h
        cases h
      · next hnul =>
        rw [if_neg hnul] at h
        exact List.forall_mem_cons.2 ⟨hkept (env.isSet_set_self b.1 b.2), ih h⟩

/-! ## Files -/

/-- Why a file is refused: it is no UTF-8, or an assignment that counts holds a NUL character. -/
inductive IsRefused (env : Environment) : EnvFile → EnvFileError → Prop where
  | notUtf8 {bytes : ByteArray} (invalid : String.fromUTF8? bytes = none) :
      IsRefused env (.content bytes) .notUtf8
  | nulCharacter {bytes : ByteArray} {text : String} {a : String × String}
      (valid : String.fromUTF8? bytes = some text)
      (counts : Counts env (assignments text.toList) a) (nul : hasNul a = true) :
      IsRefused env (.content bytes) .nulCharacter

/-- A file of UTF-8 makes its assignments. -/
theorem load_of_fromUTF8? {bytes : ByteArray} {text : String}
    (h : String.fromUTF8? bytes = some text) :
    (content bytes).load env = assignAll env (assignments text.toList) := by
  simp only [load, h]

theorem load_of_invalid {bytes : ByteArray} (h : String.fromUTF8? bytes = none) :
    (content bytes).load env = { env := env, error := some .notUtf8 } := by
  simp only [load, h]

/-- **Loading a file fails exactly if it is refused**, and for that reason. -/
theorem error_load_iff {f : EnvFile} {e : EnvFileError} :
    (f.load env).error = some e ↔ IsRefused env f e := by
  constructor
  · intro h
    cases f with
    | absent => cases h
    | unreadable => cases h
    | content bytes =>
      cases htext : String.fromUTF8? bytes with
      | none =>
        rw [load_of_invalid htext] at h
        cases h
        exact .notUtf8 htext
      | some text =>
        rw [load_of_fromUTF8? htext] at h
        obtain rfl := eq_nulCharacter_of_assignAll h
        obtain ⟨a, hcounts, hnul⟩ := error_assignAll_iff.1 h
        exact .nulCharacter htext hcounts hnul
  · rintro (hinvalid | ⟨hvalid, hcounts, hnul⟩)
    · rw [load_of_invalid hinvalid]
    · rw [load_of_fromUTF8? hvalid]
      exact error_assignAll_iff.2 ⟨_, hcounts, hnul⟩

/-- **A file that has been loaded sets nothing when it is loaded again.** -/
theorem load_load {f : EnvFile} (h : (f.load env).error = none) :
    f.load (f.load env).env = { env := (f.load env).env } := by
  cases f with
  | absent => rfl
  | unreadable => rfl
  | content bytes =>
    cases htext : String.fromUTF8? bytes with
    | none =>
      rw [load_of_invalid htext] at h
      cases h
    | some text =>
      rw [load_of_fromUTF8? htext] at h
      rw [load_of_fromUTF8? htext, load_of_fromUTF8? htext]
      exact assignAll_of_isSet (isSet_assignAll h)

end EnvFile

end RecurringEvents
