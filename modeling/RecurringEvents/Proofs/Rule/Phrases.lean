import RecurringEvents.Proofs.Text.Words
import RecurringEvents.Rule.Description

/-!
# Phrases

A description is made up of phrases, each of which opens with `in`, `on` or `for`; none of these
words comes further on in a phrase. Months, days of the month and sets of weekdays can be told from
what is said of them.

* `IsPlain`: the items that may be enumerated in a phrase.
* `monthName_inj`, `Rule.monthDayPhrase_inj`: months and days of the month.
* `Rule.plainDaysPhrase_eq_iff`, `Rule.oneDayPhrase_eq_iff`: weekdays are told as a set.
-/

namespace RecurringEvents

open Text

/-! ## Words that link -/

/-- The words that phrases open with. -/
def openers : List (List Char) := ["in".toList, "on".toList, "for".toList]

/-- Whether a phrase opens with a word. -/
def isOpener (w : List Char) : Bool := openers.contains w

/-- A word with a comma opens no phrase. -/
theorem isOpener_comma (v : List Char) : isOpener (v ++ [',']) = false := by
  have hcomma : ∀ x ∈ openers, ',' ∉ x := by decide
  rw [isOpener, List.contains_eq_mem, decide_eq_false_iff_not]
  exact fun hopener => hcomma _ hopener (by simp)

/-- Whether a text is an item of an enumeration that no phrase opens in. -/
structure IsPlain (u : List Char) : Prop where
  comma : ',' ∉ u
  links : ∀ w ∈ words u, w ∉ andWord :: openers

namespace IsPlain

variable {u v w : List Char}

theorem isItem (h : IsPlain u) : IsItem u :=
  ⟨h.comma, fun hand => h.links _ hand List.mem_cons_self⟩

theorem append (hu : IsPlain u) (hv : IsPlain v) : IsPlain (u ++ ' ' :: v) := by
  refine ⟨?_, fun w hw => ?_⟩
  · simp [hu.comma, hv.comma]
  · rw [words_append, List.mem_append] at hw
    rcases hw with hw | hw
    · exact hu.links w hw
    · exact hv.links w hw

/-- A single word is plain if it has no comma and does not link. -/
theorem of_word (hspace : ' ' ∉ u) (hcomma : ',' ∉ u) (hlink : u ∉ andWord :: openers) :
    IsPlain u := by
  refine ⟨hcomma, fun w hw => ?_⟩
  rw [words_of_not_mem hspace, List.mem_singleton] at hw
  exact hw ▸ hlink

theorem isOpener_word (h : IsPlain u) (hw : w ∈ words u) : isOpener w = false := by
  rw [isOpener, List.contains_eq_mem, decide_eq_false_iff_not]
  exact fun hopener => h.links w hw (List.mem_cons_of_mem _ hopener)

/-- No phrase opens within an enumeration. -/
theorem isOpener_enumeration {α : Type} {f : α → List Char} {as : List α} (hne : as ≠ [])
    (h : ∀ a ∈ as, IsPlain (f a)) (hw : w ∈ words (enumeration (as.map f))) :
    isOpener w = false := by
  rcases mem_words_enumeration (by simpa using hne) hw with rfl | ⟨u, hu, v, hv, hw⟩
  · decide
  · obtain ⟨a, ha, rfl⟩ := List.mem_map.1 hu
    rcases hw with rfl | rfl
    · exact (h a ha).isOpener_word hv
    · exact isOpener_comma v

end IsPlain

/-- A number is not a word that links. -/
theorem numeral_not_mem_links (n : Int) : numeral n ∉ andWord :: openers := by
  have hdigit : ∀ w ∈ andWord :: openers, w.any isDigit = false := by decide
  intro h
  exact ne_numeral (hdigit _ h) n rfl

theorem not_mem_ordinalWord {c : Char} (hc : c ∉ ordinalChars) (n : Int) : c ∉ ordinalWord n :=
  fun h => hc (mem_ordinalChars h)

theorem isPlain_ordinalWord (n : Int) : IsPlain (ordinalWord n) := by
  refine ⟨not_mem_ordinalWord (by decide) n, fun w hw => ?_⟩
  rw [words_ordinalWord] at hw
  split at hw
  · revert w
    decide
  · have hlast : ∀ w ∈ ["to".toList, "last".toList], w ∉ andWord :: openers := by decide
    split at hw
    · rcases List.mem_cons.1 hw with rfl | hw
      · exact numeral_not_mem_links (-n)
      · exact hlast w hw
    · rw [List.mem_singleton.1 hw]
      exact numeral_not_mem_links n

/-! ## Months and days of the month -/

/-- The numbers of the months. -/
def monthNumbers : List Int := [1, 2, 3, 4, 5, 6, 7, 8, 9, 10, 11, 12]

theorem IsMonth.mem_monthNumbers {n : Int} (h : IsMonth n) : n ∈ monthNumbers := by
  obtain ⟨h1, h2⟩ := h
  simp only [monthNumbers, List.mem_cons, List.not_mem_nil, or_false]
  omega

theorem monthName_inj {m n : Int} (hm : IsMonth m) (hn : IsMonth n)
    (h : (monthName m).toList = (monthName n).toList) : m = n := by
  have hall : ∀ a ∈ monthNumbers, ∀ b ∈ monthNumbers,
      (monthName a).toList = (monthName b).toList → a = b := by decide
  exact hall m hm.mem_monthNumbers n hn.mem_monthNumbers h

theorem isPlain_monthName {m : Int} (hm : IsMonth m) : IsPlain (monthName m).toList := by
  have hall : ∀ a ∈ monthNumbers, ' ' ∉ (monthName a).toList ∧ ',' ∉ (monthName a).toList ∧
      (monthName a).toList ∉ andWord :: openers := by decide
  obtain ⟨hspace, hcomma, hlink⟩ := hall m hm.mem_monthNumbers
  exact .of_word hspace hcomma hlink

namespace Rule

/-- A day of the month is an ordinal, followed by a word if it is counted from the back. -/
theorem monthDayPhrase_eq (n : Int) : monthDayPhrase n
    = if n < 0 then ordinalWord n ++ ' ' :: "day".toList else ordinalWord n := by
  unfold monthDayPhrase
  by_cases hlast : n = -1
  · subst hlast
    rfl
  · rw [if_neg hlast]
    rfl

theorem isPlain_monthDayPhrase (n : Int) : IsPlain (monthDayPhrase n) := by
  rw [monthDayPhrase_eq]
  split
  · exact (isPlain_ordinalWord n).append ⟨by decide, by decide⟩
  · exact isPlain_ordinalWord n

theorem monthDayPhrase_inj {m n : Int} (h : monthDayPhrase m = monthDayPhrase n) : m = n := by
  -- only what is counted from the front has no space in it
  have hfront : ∀ k : Int, ¬k < 0 → ' ' ∉ ordinalWord k := by
    intro k hk
    rw [ordinalWord_eq, if_neg (by omega), if_neg hk]
    exact space_not_mem_numeral k
  rw [monthDayPhrase_eq, monthDayPhrase_eq] at h
  split at h <;> split at h
  · exact ordinalWord_inj (List.append_cancel_right h)
  · next hn => exact absurd (h ▸ by simp) (hfront n hn)
  · next hm _ => exact absurd (h ▸ by simp) (hfront m hm)
  · exact ordinalWord_inj h

end Rule

/-! ## Weekdays as a set -/

namespace Weekday

theorem label_inj {a b : Weekday} (h : a.label.toList = b.label.toList) : a = b := by
  have hall : ∀ a ∈ all, ∀ b ∈ all, a.label.toList = b.label.toList → a = b := by decide
  exact hall a a.mem_all b b.mem_all h

theorem shortLabel_inj {a b : Weekday} (h : a.shortLabel.toList = b.shortLabel.toList) : a = b := by
  have hall : ∀ a ∈ all, ∀ b ∈ all, a.shortLabel.toList = b.shortLabel.toList → a = b := by decide
  exact hall a a.mem_all b b.mem_all h

/-- Names of weekdays are single words that begin with a capital. -/
theorem of_mem_labels {a : Weekday} {u : List Char}
    (h : u = a.label.toList ∨ u = a.shortLabel.toList) :
    ' ' ∉ u ∧ ',' ∉ u ∧ u ∉ andWord :: openers ∧ ∃ c s, u = c :: s ∧ c.isUpper = true := by
  have hall : ∀ u ∈ all.flatMap (fun a => [a.label.toList, a.shortLabel.toList]),
      ' ' ∉ u ∧ ',' ∉ u ∧ u ∉ andWord :: openers ∧ (u.head?.any Char.isUpper) = true := by decide
  obtain ⟨hspace, hcomma, hlink, hhead⟩ := hall u
    (List.mem_flatMap.2 ⟨a, a.mem_all, by rcases h with rfl | rfl <;> simp⟩)
  refine ⟨hspace, hcomma, hlink, ?_⟩
  cases u with
  | nil => cases hhead
  | cons c s => exact ⟨c, s, rfl, hhead⟩

end Weekday

namespace Rule

/-- Weekdays by their names: a single one in full, several ones in short with commas. -/
def namedDays : List Weekday → List Char
  | [d] => d.label.toList
  | ds => join ", ".toList (ds.map fun d => d.shortLabel.toList)

/-- The weekdays of a list, in their order. -/
def inOrder (ds : List Weekday) : List Weekday := Weekday.all.filter ds.contains

variable {a b : List Weekday}

theorem mem_inOrder {d : Weekday} : d ∈ inOrder a ↔ d ∈ a := by
  simp [inOrder, Weekday.mem_all]

theorem inOrder_ne_nil (h : a ≠ []) : inOrder a ≠ [] := by
  obtain ⟨d, s, rfl⟩ := List.exists_cons_of_ne_nil h
  exact List.ne_nil_of_mem (mem_inOrder.2 List.mem_cons_self)

theorem inOrder_eq_iff : inOrder a = inOrder b ↔ ∀ d, d ∈ a ↔ d ∈ b := by
  constructor
  · intro h d
    rw [← mem_inOrder, h, mem_inOrder]
  · intro h
    refine List.filter_congr fun d _ => ?_
    rw [List.contains_eq_mem, List.contains_eq_mem, decide_eq_decide]
    exact h d

theorem sameDays_iff : sameDays a b = true ↔ ∀ d, d ∈ a ↔ d ∈ b := by
  simp only [sameDays, List.all_eq_true, beq_iff_eq, List.contains_eq_mem, decide_eq_decide]
  exact ⟨fun h d => h d d.mem_all, fun h d _ => h d⟩

theorem sameDays_congr (h : ∀ d, d ∈ a ↔ d ∈ b) (ds : List Weekday) :
    sameDays a ds = sameDays b ds := by
  rw [Bool.eq_iff_iff, sameDays_iff, sameDays_iff]
  exact forall_congr' fun d => by rw [h d]

/-! ### Names -/

/-- Several names have commas between them. -/
theorem namedDays_cons (c d : Weekday) (ds : List Weekday) : namedDays (c :: d :: ds)
    = join ", ".toList ((c :: d :: ds).map fun d => d.shortLabel.toList) := by
  rw [namedDays]
  simp

theorem comma_mem_namedDays (c d : Weekday) (ds : List Weekday) :
    ',' ∈ namedDays (c :: d :: ds) := by
  simp [namedDays_cons, join]

theorem namedDays_inj (ha : a ≠ []) (hb : b ≠ []) (h : namedDays a = namedDays b) : a = b := by
  have hcomma : ∀ (d : Weekday) (u : List Char),
      u = d.label.toList ∨ u = d.shortLabel.toList → ',' ∉ u :=
    fun d u hu => (Weekday.of_mem_labels hu).2.1
  obtain ⟨c, cs, rfl⟩ := List.exists_cons_of_ne_nil ha
  obtain ⟨d, ds, rfl⟩ := List.exists_cons_of_ne_nil hb
  cases cs with
  | nil =>
    cases ds with
    | nil => rw [Weekday.label_inj h]
    | cons e ds =>
      have heq : c.label.toList = namedDays (d :: e :: ds) := h
      exact absurd (heq ▸ comma_mem_namedDays d e ds) (hcomma c _ (Or.inl rfl))
  | cons e cs =>
    cases ds with
    | nil =>
      have heq : namedDays (c :: e :: cs) = d.label.toList := h
      exact absurd (heq ▸ comma_mem_namedDays c e cs) (hcomma d _ (Or.inl rfl))
    | cons e' ds =>
      have hshort : ∀ es : List Weekday, ∀ u ∈ es.map fun e => e.shortLabel.toList, ',' ∉ u := by
        intro es u hu
        obtain ⟨e, -, rfl⟩ := List.mem_map.1 hu
        exact hcomma e _ (Or.inr rfl)
      rw [namedDays_cons, namedDays_cons] at h
      have hjoin := join_comma_inj (hshort _) (hshort _) (by simp) (by simp) h
      exact map_inj_of_mem (fun _ _ _ _ => Weekday.shortLabel_inj) hjoin

/-- Names begin with a capital. -/
theorem exists_namedDays_eq (h : a ≠ []) : ∃ c s, namedDays a = c :: s ∧ c.isUpper = true := by
  obtain ⟨d, ds, rfl⟩ := List.exists_cons_of_ne_nil h
  cases ds with
  | nil => exact (Weekday.of_mem_labels (Or.inl rfl)).2.2.2
  | cons e ds =>
    obtain ⟨-, -, -, c, s, hd, hc⟩ := Weekday.of_mem_labels (a := d) (Or.inr rfl)
    refine ⟨c, s ++ (", ".toList ++ join ", ".toList ((e :: ds).map fun d => d.shortLabel.toList)),
      ?_, hc⟩
    rw [namedDays_cons, List.map_cons, List.map_cons, join, hd]
    simp

theorem isOpener_of_mem_namedDays {w : List Char} (h : a ≠ []) (hw : w ∈ words (namedDays a)) :
    isOpener w = false := by
  have hname : ∀ (d : Weekday) (u : List Char), u = d.label.toList ∨ u = d.shortLabel.toList →
      IsPlain u := by
    intro d u hu
    obtain ⟨hspace, hcomma, hlink, -⟩ := Weekday.of_mem_labels hu
    exact .of_word hspace hcomma hlink
  obtain ⟨d, ds, rfl⟩ := List.exists_cons_of_ne_nil h
  cases ds with
  | nil => exact (hname d _ (Or.inl rfl)).isOpener_word hw
  | cons e ds =>
    rw [namedDays_cons] at hw
    obtain ⟨u, hu, v, hv, hw⟩ := mem_words_join_comma (by simp) hw
    obtain ⟨d', -, rfl⟩ := List.mem_map.1 hu
    rcases hw with rfl | rfl
    · exact (hname d' _ (Or.inr rfl)).isOpener_word hv
    · exact isOpener_comma v

/-! ### Words for sets -/

/-- A phrase for a set of weekdays, with words for the working days and for the weekend. -/
def setPhrase (workdays weekend : List Char) (other : List Weekday → List Char)
    (ds : List Weekday) : List Char :=
  if sameDays ds Weekday.workdays then workdays
  else if sameDays ds Weekday.weekend then weekend else other ds

theorem plainDaysPhrase_eq (ds : List Weekday) : plainDaysPhrase ds
    = setPhrase "weekdays".toList "weekends".toList (fun ds => namedDays (inOrder ds)) ds := by
  rfl

theorem oneDayPhrase_eq (ds : List Weekday) : oneDayPhrase ds
    = setPhrase "weekday".toList "weekend day".toList (fun ds => "of ".toList ++ plainDaysPhrase ds)
      ds := by
  rfl

/-- Sets are told apart if the words for them are no other phrases. -/
theorem setPhrase_eq_iff {x y : List Char} {f : List Weekday → List Char} (hxy : x ≠ y)
    (hx : ∀ ds, ds ≠ [] → f ds ≠ x) (hy : ∀ ds, ds ≠ [] → f ds ≠ y)
    (hf : f a = f b ↔ ∀ d, d ∈ a ↔ d ∈ b) (ha : a ≠ []) (hb : b ≠ []) :
    setPhrase x y f a = setPhrase x y f b ↔ ∀ d, d ∈ a ↔ d ∈ b := by
  have hsame : ∀ ds, sameDays a ds = true → sameDays b ds = true → ∀ d, d ∈ a ↔ d ∈ b :=
    fun ds h h' d => (sameDays_iff.1 h d).trans (sameDays_iff.1 h' d).symm
  constructor
  · intro h
    unfold setPhrase at h
    split at h
    · next hwork =>
      split at h
      · next hwork' => exact hsame _ hwork hwork'
      · split at h
        · exact absurd h hxy
        · exact absurd h.symm (hx b hb)
    · split at h
      · next hend =>
        split at h
        · exact absurd h.symm hxy
        · split at h
          · next hend' => exact hsame _ hend hend'
          · exact absurd h.symm (hy b hb)
      · split at h
        · exact absurd h (hx a ha)
        · split at h
          · exact absurd h (hy a ha)
          · exact hf.1 h
  · intro h
    rw [setPhrase, setPhrase, sameDays_congr h, sameDays_congr h, hf.2 h]

/-- **Weekdays without positions are told as a set.** -/
theorem plainDaysPhrase_eq_iff (ha : a ≠ []) (hb : b ≠ []) :
    plainDaysPhrase a = plainDaysPhrase b ↔ ∀ d, d ∈ a ↔ d ∈ b := by
  have hcapital : ∀ u : List Char, u.head? = some 'w' → ∀ ds, ds ≠ [] →
      namedDays (inOrder ds) ≠ u := by
    rintro u hu ds hds rfl
    obtain ⟨c, s, heq, hc⟩ := exists_namedDays_eq (inOrder_ne_nil hds)
    rw [heq] at hu
    cases hu
    cases hc
  rw [plainDaysPhrase_eq, plainDaysPhrase_eq]
  refine setPhrase_eq_iff (by decide) (hcapital "weekdays".toList rfl)
    (hcapital "weekends".toList rfl) ?_ ha hb
  rw [← inOrder_eq_iff]
  exact ⟨namedDays_inj (inOrder_ne_nil ha) (inOrder_ne_nil hb), congrArg namedDays⟩

theorem oneDayPhrase_eq_iff (ha : a ≠ []) (hb : b ≠ []) :
    oneDayPhrase a = oneDayPhrase b ↔ ∀ d, d ∈ a ↔ d ∈ b := by
  rw [oneDayPhrase_eq, oneDayPhrase_eq]
  have hof : ∀ u : List Char, u.head? = some 'w' → ∀ ds, ds ≠ [] →
      "of ".toList ++ plainDaysPhrase ds ≠ u := by
    rintro u hu ds - rfl
    cases hu
  refine setPhrase_eq_iff (by decide) (hof "weekday".toList rfl) (hof "weekend day".toList rfl) ?_
    ha hb
  · rw [← plainDaysPhrase_eq_iff ha hb]
    exact ⟨List.append_cancel_left, congrArg _⟩

theorem isOpener_of_mem_plainDaysPhrase {w : List Char} (h : a ≠ [])
    (hw : w ∈ words (plainDaysPhrase a)) : isOpener w = false := by
  rw [plainDaysPhrase_eq, setPhrase] at hw
  split at hw
  · revert w
    decide
  · split at hw
    · revert w
      decide
    · exact isOpener_of_mem_namedDays (inOrder_ne_nil h) hw

theorem isOpener_of_mem_oneDayPhrase {w : List Char} (h : a ≠ [])
    (hw : w ∈ words (oneDayPhrase a)) : isOpener w = false := by
  rw [oneDayPhrase_eq, setPhrase] at hw
  split at hw
  · revert w
    decide
  · split at hw
    · revert w
      decide
    · have hof : words ("of ".toList ++ plainDaysPhrase a)
          = "of".toList :: words (plainDaysPhrase a) := words_append "of".toList _
      rw [hof] at hw
      rcases List.mem_cons.1 hw with rfl | hw
      · decide
      · exact isOpener_of_mem_plainDaysPhrase h hw

end Rule

end RecurringEvents
