import Mathlib.Data.List.Infix
import RecurringEvents.CommandLine.Arguments
import RecurringEvents.Proofs.Outcome

/-!
# Options that do not occur

An option is written by its name, or by a beginning of its name that no other option shares. So an
option does not occur in words of which none begins with the shortest beginning that is its own.

* `IsOwn`: a beginning of its own.
* `own_isPrefix_of_classify`: the words that stand for an option.
* `given_of_takeCommand`: an option that no word stands for is not given.
* `minutes_of_arguments`: the length of an event for which none is asked.
-/

namespace RecurringEvents.CommandLine

variable {specs : List OptionSpec} {o : OptionSpec} {n : String} {own s : List Char}

/-! ## One word -/

/-- Whether `own` is a beginning of the name `n` that no other option shares, while every shorter
one is shared. -/
structure IsOwn (specs : List OptionSpec) (n : String) (own : List Char) : Prop where
  begins : own <+: n.toList
  shared : ∀ p, p <+: n.toList → ¬own <+: p → ∃ o ∈ specs, o.name ≠ n ∧ p <+: o.name.toList

/-- What stands before the `=` is a beginning of the word. -/
theorem splitAssigned_isPrefix (s : List Char) : (splitAssigned s).1 <+: s := by
  unfold splitAssigned
  split
  · next name value hcut =>
    rw [(Text.eq_of_cut? hcut).1]
    exact List.prefix_append name _
  · exact List.prefix_refl s

/-- A word that names an option in full begins with its name. -/
theorem name_isPrefix_of_fullName? {value : Option (List Char)}
    (h : fullName? specs s = some (.long o value)) : o.name.toList <+: s := by
  simp only [fullName?] at h
  split at h
  · next hfound =>
    cases h
    have hname := List.find?_some hfound
    rw [of_decide_eq_true hname]
  · split at h
    · next hfound =>
      cases h
      have hname := List.find?_some hfound
      rw [of_decide_eq_true hname]
      exact splitAssigned_isPrefix s
    · split at h <;> cases h

/-- A word that is short for one option only begins with what is its own. -/
theorem own_isPrefix_of_shortened {value : Option (List Char)} (hown : IsOwn specs n own)
    (hn : o.name = n) (h : shortened specs s = [.long o value]) : own <+: s := by
  obtain ⟨o', hfilter, ho'⟩ := List.map_eq_singleton_iff.1 h
  cases ho'
  have hmem : ∀ o' ∈ specs, (splitAssigned s).1 <+: o'.name.toList → o' = o := by
    intro o' ho' hbegins
    have hin : o' ∈ specs.filter fun o => (splitAssigned s).1.isPrefixOf o.name.toList :=
      List.mem_filter.2 ⟨ho', List.isPrefixOf_iff_prefix.2 hbegins⟩
    exact List.mem_singleton.1 (hfilter ▸ hin)
  have hbegins : (splitAssigned s).1 <+: n.toList := by
    have hin : o ∈ specs.filter fun o => (splitAssigned s).1.isPrefixOf o.name.toList :=
      hfilter ▸ List.mem_singleton.2 rfl
    rw [← hn]
    exact List.isPrefixOf_iff_prefix.1 (List.mem_filter.1 hin).2
  refine Decidable.byContradiction fun hnot => ?_
  have hshort : ¬own <+: (splitAssigned s).1 :=
    fun hle => hnot (hle.trans (splitAssigned_isPrefix s))
  -- a shorter beginning stands for another option, too
  obtain ⟨o', ho', hne, hle⟩ := hown.shared _ hbegins hshort
  exact hne (hmem o' ho' hle ▸ hn)

/-- A word that begins with a dash and names no option stands for none. -/
theorem dashWord_ne_long (text : String) (value : Option (List Char)) :
    dashWord text ≠ .option (.long o value) := by
  intro h
  simp only [dashWord] at h
  split at h <;> cases h

/-- **A word that stands for an option begins with what is its own.** -/
theorem own_isPrefix_of_classify {text : String} {value : Option (List Char)}
    (hown : IsOwn specs n own) (hn : o.name = n)
    (h : classify specs text = .ok (.option (.long o value))) : own <+: text.toList := by
  unfold classify at h
  split at h
  · next c r htext =>
    rw [htext]
    split at h
    · next hfull =>
      cases h
      exact (hn ▸ hown.begins).trans (name_isPrefix_of_fullName? hfull)
    · split at h
      · split at h
        · exact absurd (Except.ok.inj h) (dashWord_ne_long text value)
        · next hshort =>
          cases h
          exact own_isPrefix_of_shortened hown hn hshort
        · cases h
      · split at h
        · cases h
        · exact absurd (Except.ok.inj h) (dashWord_ne_long text value)
  · cases h

/-! ## The words of a command -/

/-- The options among the words are those of some texts. -/
theorem exists_classify_of_mem_words {args : List String} {ws : List Word} {f : Found}
    (h : words specs args = .ok ws) (hf : .option f ∈ ws) :
    ∃ a ∈ args, classify specs a = .ok (.option f) := by
  induction args generalizing ws with
  | nil =>
    cases h
    cases hf
  | cons a as ih =>
    unfold words at h
    split at h
    · -- after a separator all words are values
      cases h
      simp at hf
    · obtain ⟨w, hw, h⟩ := bind_eq_ok_iff.1 h
      obtain ⟨vs, hvs, h⟩ := bind_eq_ok_iff.1 h
      cases h
      rcases List.mem_cons.1 hf with rfl | hf
      · exact ⟨a, List.mem_cons_self, hw⟩
      · obtain ⟨b, hb, hclass⟩ := ih hvs hf
        exact ⟨b, List.mem_cons_of_mem a hb, hclass⟩

/-- Putting one option does not change what is given for another one. -/
theorem given_of_put_of_ne {numbers : List String} {t u : Taken} {name : String}
    {value : Option String} (hne : n ≠ name) (h : t.put numbers name value = .ok u) :
    u.given n = t.given n := by
  unfold Taken.put at h
  split at h
  · cases h
  · cases h
    have hother : (n == name) = false := beq_eq_false_iff_ne.2 hne
    simp only [Taken.given, List.lookup_cons, hother]

/-- Whether an option does not occur among words. -/
def Lacks (ws : List Word) (n : String) : Prop :=
  ∀ o value, Word.option (.long o value) ∈ ws → o.name ≠ n

theorem Lacks.of_subset {vs ws : List Word} (h : Lacks ws n) (hsub : vs ⊆ ws) : Lacks vs n :=
  fun o value hmem => h o value (hsub hmem)

theorem Lacks.tail {w : Word} {ws : List Word} (h : Lacks (w :: ws) n) : Lacks ws n :=
  h.of_subset (List.subset_cons_self w ws)

theorem Lacks.head {o : OptionSpec} {value : Option (List Char)} {ws : List Word}
    (h : Lacks (.option (.long o value) :: ws) n) : n ≠ o.name :=
  (h o value List.mem_cons_self).symm

theorem afterOperand_subset (ws : List Word) : afterOperand ws ⊆ ws := by
  unfold afterOperand
  split
  · exact List.subset_cons_self _ _
  · exact List.Subset.refl _

/-- **An option that does not occur among the words is given as before.** -/
theorem given_of_takeWords {numbers : List String} {t u : Taken} {ws : List Word}
    (hno : Lacks ws n) (h : takeWords numbers t ws = .ok u) : u.given n = t.given n := by
  fun_induction takeWords numbers t ws with
  | case1 t =>
    cases h
    rfl
  | case2 t ws ih => exact ih hno.tail h
  | case4 t spec v ws hvalue ih =>
    obtain ⟨v, hput, h⟩ := bind_eq_ok_iff.1 h
    exact (ih v hno.tail h).trans (given_of_put_of_ne hno.head hput)
  | case5 t spec v ws hvalue ih =>
    obtain ⟨v, hput, h⟩ := bind_eq_ok_iff.1 h
    exact (ih v hno.tail.tail h).trans (given_of_put_of_ne hno.head hput)
  | case9 t spec ws hvalue hhelp ih =>
    obtain ⟨v, hput, h⟩ := bind_eq_ok_iff.1 h
    exact (ih v hno.tail h).trans (given_of_put_of_ne hno.head hput)
  | case10 t v ws hoperand ih => exact ih (hno.tail.of_subset (afterOperand_subset ws)) h
  | case11 t v ws hoperand ih => exact ih hno.tail h
  | case12 t v ws hoperand ih => exact ih hno.tail.tail h
  | case13 t ws hoperand ih => exact ih hno.tail h
  | _ => cases h

/-- **An option of a command is not given if no word begins with what is its own.** -/
theorem given_of_takeCommand {c : CommandSpec} {args : List String} {operand : String} {t : Taken}
    (hown : IsOwn (helpSpec :: c.options) n own) (h : takeCommand c args = .ok (operand, t))
    (hno : ∀ a ∈ args, ¬own <+: a.toList) : t.given n = .absent := by
  obtain ⟨ws, hws, h⟩ := bind_eq_ok_iff.1 h
  obtain ⟨u, hu, h⟩ := bind_eq_ok_iff.1 h
  have htaken : u = t := by
    split at h
    · split at h <;> cases h
      rfl
    · cases h
  subst htaken
  refine given_of_takeWords (fun o value hmem hn => ?_) hu
  obtain ⟨a, ha, hclass⟩ := exists_classify_of_mem_words hws hmem
  exact hno a ha (own_isPrefix_of_classify hown hn hclass)

/-! ## The command line -/

/-- The command is asked for at the end of the command line. -/
theorem exists_command_of_takeShared {t : Taken} {ws : List Word} {args : List String}
    {a : Arguments} (h : takeShared t ws args = .ok a) :
    ∃ name rest, rest <:+ args ∧ command name rest = .ok a.command := by
  fun_induction takeShared t ws args with
  | case1 t ws head args ih =>
    obtain ⟨name, rest, hrest, hcommand⟩ := ih h
    exact ⟨name, rest, hrest.trans (List.suffix_cons _ _), hcommand⟩
  | case3 t spec head v ws args hvalue ih =>
    obtain ⟨u, -, h⟩ := bind_eq_ok_iff.1 h
    obtain ⟨name, rest, hrest, hcommand⟩ := ih u h
    exact ⟨name, rest, hrest.trans (List.suffix_cons _ _), hcommand⟩
  | case4 t spec head v ws head' args hvalue ih =>
    obtain ⟨u, -, h⟩ := bind_eq_ok_iff.1 h
    obtain ⟨name, rest, hrest, hcommand⟩ := ih u h
    exact ⟨name, rest, hrest.trans ((List.suffix_cons _ _).trans (List.suffix_cons _ _)), hcommand⟩
  | case7 t name ws head args =>
    obtain ⟨c, hc, h⟩ := bind_eq_ok_iff.1 h
    split at h
    · cases h
    · cases h
      exact ⟨name, args, List.suffix_cons _ _, hc⟩
  | _ => cases h

/-- What `expand` is asked for is taken from its words; the length is that of `--duration`, or an
hour. -/
theorem exists_taken_of_command {name : String} {args : List String} {q : ExpandRequest}
    (h : command name args = .ok (.expand q)) :
    ∃ t, takeCommand expandSpec args = .ok (q.rule, t) ∧
      q.minutes = (t.number "--duration").valueOr? 60 := by
  unfold command at h
  split at h
  · obtain ⟨taken, -, h⟩ := bind_eq_ok_iff.1 h
    cases h
  · split at h
    · obtain ⟨taken, -, h⟩ := bind_eq_ok_iff.1 h
      cases h
    · split at h
      · obtain ⟨⟨operand, t⟩, htaken, h⟩ := bind_eq_ok_iff.1 h
        simp only at h
        split at h
        · cases h
        · cases h
          exact ⟨t, htaken, rfl⟩
      · cases h

/-- The option `--duration` may be cut short to `--d`, but not further. -/
theorem isOwn_duration : IsOwn (helpSpec :: expandSpec.options) "--duration" "--d".toList where
  begins := by decide +kernel
  shared := by
    have hall : ∀ p ∈ "--duration".toList.inits, ¬"--d".toList <+: p →
      p <+: helpSpec.name.toList := by
      decide +kernel
    intro p hp hnot
    exact ⟨helpSpec, List.mem_cons_self, by decide, hall p ((List.mem_inits _ _).2 hp) hnot⟩

/-- What `expand` is asked for is taken from the end of the command line. -/
theorem exists_taken_of_arguments {args : List String} {a : Arguments} {q : ExpandRequest}
    (h : arguments args = .ok a) (hcommand : a.command = .expand q) :
    ∃ rest t, rest <:+ args ∧ takeCommand expandSpec rest = .ok (q.rule, t) ∧
      q.minutes = (t.number "--duration").valueOr? 60 := by
  obtain ⟨ws, -, h⟩ := bind_eq_ok_iff.1 h
  obtain ⟨name, rest, hrest, hexpand⟩ := exists_command_of_takeShared h
  rw [hcommand] at hexpand
  obtain ⟨t, htaken, hminutes⟩ := exists_taken_of_command hexpand
  exact ⟨rest, t, hrest, htaken, hminutes⟩

/-- **An event for which no length is asked lasts for an hour.** -/
theorem minutes_of_arguments {args : List String} {a : Arguments} {q : ExpandRequest}
    (h : arguments args = .ok a) (hcommand : a.command = .expand q)
    (hno : ∀ w ∈ args, ¬"--d".toList <+: w.toList) : q.minutes = some 60 := by
  obtain ⟨rest, t, hrest, htaken, hminutes⟩ := exists_taken_of_arguments h hcommand
  have habsent := given_of_takeCommand isOwn_duration htaken fun w hw => hno w (hrest.subset hw)
  rw [hminutes, Taken.number, habsent]
  rfl

end RecurringEvents.CommandLine
