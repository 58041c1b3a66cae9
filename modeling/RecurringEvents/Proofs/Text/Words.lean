import RecurringEvents.Proofs.Text.Case
import RecurringEvents.Proofs.Text.Trimmed
import RecurringEvents.Text.Ordinal

/-!
# Words of English

Which parts of an English text can be told apart. The words of a text stand between its spaces.
Phrases that open with certain words, and have none of these words further on, are found again in
the text that they make up. The items of an enumeration are found again if they have no comma and
the word `and` is not one of theirs.

* `append_inj_of_first`: two lists that are joined at the first element of a kind.
* `join_inj_of_opens`: phrases in a text.
* `enumeration_inj`: items in an enumeration.
* `ordinalWord_inj`: ordinals.
-/

namespace RecurringEvents.Text

/-! ## Cutting -/

section

variable {α : Type} {p : α → Bool} {a a' b b' : List α}

theorem takeWhile_append_of_first (ha : ∀ x ∈ a, p x = false) (hb : ∀ x ∈ b.head?, p x = true) :
    (a ++ b).takeWhile (fun x => !p x) = a := by
  rw [List.takeWhile_append_of_pos fun x hx => by simp [ha x hx]]
  cases b with
  | nil => simp
  | cons x b => simp [hb x rfl]

/-- **Two lists that are joined at the first element of a kind are told apart.** -/
theorem append_inj_of_first (ha : ∀ x ∈ a, p x = false) (ha' : ∀ x ∈ a', p x = false)
    (hb : ∀ x ∈ b.head?, p x = true) (hb' : ∀ x ∈ b'.head?, p x = true)
    (h : a ++ b = a' ++ b') : a = a' ∧ b = b' := by
  have hfront : a = a' := by
    rw [← takeWhile_append_of_first ha hb, h, takeWhile_append_of_first ha' hb']
  subst hfront
  exact ⟨rfl, List.append_cancel_left h⟩

end

/-! ## Words -/

/-- The words of a text, which stand between its spaces. -/
def words (s : List Char) : List (List Char) := splitOn ' ' s

variable {s t u v w : List Char} {us vs : List (List Char)}

theorem words_inj (h : words s = words t) : s = t := by
  rw [← join_splitOn ' ' s, ← join_splitOn ' ' t]
  exact congrArg (join [' ']) h

/-- What no character of a text is, none of a word is. -/
theorem any_of_mem_words {p : Char → Bool} (h : s.any p = false) (hw : w ∈ words s) :
    w.any p = false := by
  rw [List.any_eq_false] at h ⊢
  exact fun c hc => h c (mem_of_mem_splitOn hw hc)

theorem words_ne_nil (s : List Char) : words s ≠ [] := splitOn_ne_nil ' ' s

/-- A text without a space is its only word. -/
theorem words_of_not_mem (h : ' ' ∉ s) : words s = [s] := splitOn_of_not_mem h

/-- The words before a space, and those after it. -/
theorem words_append (s t : List Char) : words (s ++ ' ' :: t) = words s ++ words t := by
  unfold words
  induction s with
  | nil => rfl
  | cons c s ih =>
    by_cases hc : c = ' '
    · subst hc
      rw [List.cons_append, splitOn, if_pos rfl, ih, splitOn, if_pos rfl, List.cons_append]
    · obtain ⟨w, ws, hs, hcs⟩ := splitOn_cons_ne hc s
      obtain ⟨w', ws', hst, hcst⟩ := splitOn_cons_ne hc (s ++ ' ' :: t)
      rw [ih, hs, List.cons_append] at hst
      cases hst
      rw [List.cons_append, hcst, hcs, List.cons_append]

/-- What is written behind a text becomes part of its last word. -/
theorem mem_words_append (hs : ' ' ∉ s) (h : w ∈ words (u ++ s)) :
    w ∈ words u ∨ ∃ v ∈ words u, w = v ++ s := by
  obtain ⟨before, last, hu, hus⟩ := splitOn_append_of_not_mem hs u
  rw [words, hus, List.mem_append, List.mem_singleton] at h
  rw [words, hu]
  rcases h with h | rfl
  · exact Or.inl (List.mem_append_left _ h)
  · exact Or.inr ⟨last, by simp, rfl⟩

/-- The words of several phrases. -/
theorem words_join (h : us ≠ []) : words (join [' '] us) = us.flatMap words := by
  induction us with
  | nil => exact absurd rfl h
  | cons u us ih =>
    cases us with
    | nil => simp [join]
    | cons v us =>
      rw [join, List.append_assoc, List.singleton_append, words_append, ih (List.cons_ne_nil v us)]
      exact List.flatMap_cons.symm

/-! ## Phrases -/

section

variable {mark : List Char → Bool}

/-- Whether no word after the first one is marked. -/
def IsPhrase (mark : List Char → Bool) (s : List Char) : Prop :=
  ∀ w ∈ (words s).tail, mark w = false

/-- Whether the first word is marked, and no other. -/
def Opens (mark : List Char → Bool) (s : List Char) : Prop :=
  (∀ w ∈ (words s).head?, mark w = true) ∧ IsPhrase mark s

/-- A marked word opens a phrase that has no other one. -/
theorem opens_append (hspace : ' ' ∉ w) (hmark : mark w = true)
    (hs : ∀ x ∈ words s, mark x = false) : Opens mark (w ++ ' ' :: s) := by
  rw [Opens, IsPhrase, words_append, words_of_not_mem hspace]
  refine ⟨fun x hx => ?_, hs⟩
  cases hx
  exact hmark

/-- The words of phrases begin with a marked one. -/
theorem mark_of_head? (h : ∀ u ∈ us, Opens mark u) :
    ∀ w ∈ (us.flatMap words).head?, mark w = true := by
  cases us with
  | nil => simp
  | cons u us =>
    intro w hw
    refine (h u List.mem_cons_self).1 w ?_
    obtain ⟨x, xs, hu⟩ := List.exists_cons_of_ne_nil (words_ne_nil u)
    rw [List.flatMap_cons, hu] at hw
    rw [hu]
    exact hw

/-- A phrase before others ends where the next one opens. -/
theorem flatMap_words_inj (hs : IsPhrase mark s) (ht : IsPhrase mark t)
    (hu : ∀ u ∈ us, Opens mark u) (hv : ∀ v ∈ vs, Opens mark v)
    (h : words s ++ us.flatMap words = words t ++ vs.flatMap words) :
    s = t ∧ us.flatMap words = vs.flatMap words := by
  obtain ⟨x, xs, hx⟩ := List.exists_cons_of_ne_nil (words_ne_nil s)
  obtain ⟨y, ys, hy⟩ := List.exists_cons_of_ne_nil (words_ne_nil t)
  rw [IsPhrase, hx] at hs
  rw [IsPhrase, hy] at ht
  rw [hx, hy, List.cons_append, List.cons_append, List.cons.injEq] at h
  obtain ⟨rfl, h⟩ := h
  obtain ⟨rfl, hrest⟩ := append_inj_of_first hs ht (mark_of_head? hu) (mark_of_head? hv) h
  exact ⟨words_inj (hx.trans hy.symm), hrest⟩

/-- Phrases that all open with a marked word are told by their words. -/
theorem eq_of_flatMap_words (hu : ∀ u ∈ us, Opens mark u) (hv : ∀ v ∈ vs, Opens mark v)
    (h : us.flatMap words = vs.flatMap words) : us = vs := by
  induction us generalizing vs with
  | nil =>
    cases vs with
    | nil => rfl
    | cons v vs => simp [words_ne_nil] at h
  | cons u us ih =>
    cases vs with
    | nil => simp [words_ne_nil] at h
    | cons v vs =>
      rw [List.flatMap_cons, List.flatMap_cons] at h
      obtain ⟨rfl, hrest⟩ := flatMap_words_inj (hu u List.mem_cons_self).2
        (hv v List.mem_cons_self).2 (fun x hx => hu x (List.mem_cons_of_mem u hx))
        (fun x hx => hv x (List.mem_cons_of_mem v hx)) h
      rw [ih (fun x hx => hu x (List.mem_cons_of_mem u hx))
        (fun x hx => hv x (List.mem_cons_of_mem _ hx)) hrest]

/-- **Phrases are found again in the text that they make up**, if all but the first one open with a
marked word and no other word is marked. -/
theorem join_inj_of_opens (hs : IsPhrase mark s) (ht : IsPhrase mark t)
    (hu : ∀ u ∈ us, Opens mark u) (hv : ∀ v ∈ vs, Opens mark v)
    (h : join [' '] (s :: us) = join [' '] (t :: vs)) : s = t ∧ us = vs := by
  have hwords := congrArg words h
  rw [words_join (List.cons_ne_nil s us), words_join (List.cons_ne_nil t vs), List.flatMap_cons,
    List.flatMap_cons] at hwords
  obtain ⟨hfirst, hrest⟩ := flatMap_words_inj hs ht hu hv hwords
  exact ⟨hfirst, eq_of_flatMap_words hu hv hrest⟩

end

/-! ## Enumerations -/

/-- The word before the last item. -/
def andWord : List Char := "and".toList

/-- Whether a text can be an item of an enumeration: it has no comma, and not the word `and`. -/
structure IsItem (u : List Char) : Prop where
  comma : ',' ∉ u
  words : andWord ∉ words u

theorem enumeration_pair (u v : List Char) :
    enumeration [u, v] = u ++ ' ' :: (andWord ++ ' ' :: v) := by
  simp [enumeration, andWord]

theorem enumeration_cons (u v w : List Char) (ws : List (List Char)) :
    enumeration (u :: v :: w :: ws) = u ++ ',' :: ' ' :: enumeration (v :: w :: ws) := by
  simp [enumeration]

/-- An enumeration begins with its first item. -/
theorem exists_enumeration_eq (u : List Char) (us : List (List Char)) :
    ∃ s, enumeration (u :: us) = u ++ s := by
  match us with
  | [] => exact ⟨[], (List.append_nil u).symm⟩
  | [v] => exact ⟨_, enumeration_pair u v⟩
  | v :: w :: ws => exact ⟨_, enumeration_cons u v w ws⟩

theorem words_pair (u v : List Char) :
    words (enumeration [u, v]) = words u ++ andWord :: words v := by
  rw [enumeration_pair, words_append, words_append, words_of_not_mem (s := andWord) (by decide)]
  rfl

/-- The characters of an enumeration. -/
theorem mem_of_mem_enumeration {c : Char} (h : c ∈ enumeration us) :
    c ∈ ", and".toList ∨ ∃ u ∈ us, c ∈ u := by
  fun_induction enumeration us with
  | case1 => cases h
  | case2 u => exact Or.inr ⟨u, List.mem_cons_self, h⟩
  | case3 u v =>
    have hand : " and ".toList ⊆ ", and".toList := by decide
    simp only [List.mem_append] at h
    rcases h with (h | h) | h
    · exact Or.inr ⟨u, by simp, h⟩
    · exact Or.inl (hand h)
    · exact Or.inr ⟨v, by simp, h⟩
  | case4 u v w ws ih =>
    have hcomma : ", ".toList ⊆ ", and".toList := by decide
    simp only [List.mem_append] at h
    rcases h with (h | h) | h
    · exact Or.inr ⟨u, by simp, h⟩
    · exact Or.inl (hcomma h)
    · rcases ih h with h | ⟨x, hx, h⟩
      · exact Or.inl h
      · exact Or.inr ⟨x, List.mem_cons_of_mem u hx, h⟩

theorem any_enumeration_map {α : Type} {f : α → List Char} {as : List α} {p : Char → Bool}
    (hlinks : ", and".toList.any p = false) (h : ∀ a ∈ as, (f a).any p = false) :
    (enumeration (as.map f)).any p = false := by
  rw [List.any_eq_false] at hlinks ⊢
  intro c hc
  rcases mem_of_mem_enumeration hc with hc | ⟨u, hu, hc⟩
  · exact hlinks c hc
  · obtain ⟨a, ha, rfl⟩ := List.mem_map.1 hu
    exact List.any_eq_false.1 (h a ha) c hc

/-- The words of an enumeration: those of its items, with or without a comma, and the word `and`. -/
theorem mem_words_enumeration (hne : us ≠ []) (h : w ∈ words (enumeration us)) :
    w = andWord ∨ ∃ u ∈ us, ∃ v ∈ words u, w = v ∨ w = v ++ [','] := by
  fun_induction enumeration us with
  | case1 => exact absurd rfl hne
  | case2 u => exact Or.inr ⟨u, List.mem_cons_self, w, h, Or.inl rfl⟩
  | case3 u v =>
    rw [← enumeration, words_pair, List.mem_append, List.mem_cons] at h
    rcases h with h | rfl | h
    · exact Or.inr ⟨u, by simp, w, h, Or.inl rfl⟩
    · exact Or.inl rfl
    · exact Or.inr ⟨v, by simp, w, h, Or.inl rfl⟩
  | case4 u v x ws ih =>
    rw [← enumeration, enumeration_cons, List.append_cons u, words_append, List.mem_append] at h
    rcases h with h | h
    · rcases mem_words_append (s := [',']) (by simp) h with h | ⟨y, hy, rfl⟩
      · exact Or.inr ⟨u, by simp, w, h, Or.inl rfl⟩
      · exact Or.inr ⟨u, by simp, y, hy, Or.inr rfl⟩
    · rcases ih (by simp) h with h | ⟨y, hy, hw⟩
      · exact Or.inl h
      · exact Or.inr ⟨y, List.mem_cons_of_mem u hy, hw⟩

/-- Three items or more have a comma between them. -/
theorem comma_mem_enumeration (u v w : List Char) (ws : List (List Char)) :
    ',' ∈ enumeration (u :: v :: w :: ws) := by
  simp [enumeration]

/-- Two items have none. -/
theorem comma_not_mem_pair (hu : IsItem u) (hv : IsItem v) : ',' ∉ enumeration [u, v] := by
  simp [enumeration, hu.comma, hv.comma]

/-- One item is not two. -/
theorem ne_pair (hs : IsItem s) (u v : List Char) : s ≠ enumeration [u, v] := by
  rintro rfl
  exact hs.words (by simp [words_pair])

/-- Two items are told by the word between them. -/
theorem pair_inj {u' v' : List Char} (hu : IsItem u) (hu' : IsItem u')
    (h : enumeration [u, v] = enumeration [u', v']) : u = u' ∧ v = v' := by
  have hwords := congrArg words h
  rw [words_pair, words_pair] at hwords
  have hno : ∀ x : List Char, IsItem x → ∀ y ∈ words x, (y == andWord) = false := by
    intro x hx y hy
    exact beq_eq_false_iff_ne.2 fun heq => hx.words (heq ▸ hy)
  obtain ⟨hfirst, hrest⟩ := append_inj_of_first (p := (· == andWord)) (hno u hu) (hno u' hu')
    (by simp) (by simp) hwords
  rw [List.cons.injEq] at hrest
  exact ⟨words_inj hfirst, words_inj hrest.2⟩

/-- The first of several items ends at the first comma. -/
theorem comma_inj (hu : ',' ∉ u) (hv : ',' ∉ v) (h : u ++ ',' :: s = v ++ ',' :: t) :
    u = v ∧ s = t := by
  have hno : ∀ x : List Char, ',' ∉ x → ∀ c ∈ x, (c == ',') = false := by
    intro x hx c hc
    exact beq_eq_false_iff_ne.2 fun heq => hx (heq ▸ hc)
  obtain ⟨hfirst, hrest⟩ := append_inj_of_first (p := (· == ',')) (hno u hu) (hno v hv) (by simp)
    (by simp) h
  rw [List.cons.injEq] at hrest
  exact ⟨hfirst, hrest.2⟩

/-- Items with commas between them are told by the text. -/
theorem join_comma_inj (hu : ∀ u ∈ us, ',' ∉ u) (hv : ∀ v ∈ vs, ',' ∉ v) (hune : us ≠ [])
    (hvne : vs ≠ []) (h : join ", ".toList us = join ", ".toList vs) : us = vs := by
  -- several items have a comma between them, a single one has none
  have hmem : ∀ u v : List Char, ∀ ws, ',' ∈ join ", ".toList (u :: v :: ws) := by simp [join]
  induction us generalizing vs with
  | nil => exact absurd rfl hune
  | cons u us ih =>
    have hufirst := hu u List.mem_cons_self
    obtain ⟨v, vs, rfl⟩ := List.exists_cons_of_ne_nil hvne
    have hvfirst := hv v List.mem_cons_self
    cases us with
    | nil =>
      cases vs with
      | nil => exact congrArg (· :: []) h
      | cons w vs =>
        have heq : u = join ", ".toList (v :: w :: vs) := h
        exact absurd (heq ▸ hmem v w vs) hufirst
    | cons u' us =>
      cases vs with
      | nil =>
        have heq : join ", ".toList (u :: u' :: us) = v := h
        exact absurd (heq ▸ hmem u u' us) hvfirst
      | cons w vs =>
        simp only [join, List.append_assoc] at h
        obtain ⟨rfl, hrest⟩ := comma_inj hufirst hvfirst h
        rw [ih (fun y hy => hu y (List.mem_cons_of_mem u hy))
          (fun y hy => hv y (List.mem_cons_of_mem _ hy)) (List.cons_ne_nil u' us)
          (List.cons_ne_nil w vs) (List.cons.inj hrest).2]

/-- The words of items with commas between them. -/
theorem mem_words_join_comma (hne : us ≠ []) (h : w ∈ words (join ", ".toList us)) :
    ∃ u ∈ us, ∃ v ∈ words u, w = v ∨ w = v ++ [','] := by
  induction us with
  | nil => exact absurd rfl hne
  | cons u us ih =>
    cases us with
    | nil => exact ⟨u, List.mem_cons_self, w, h, Or.inl rfl⟩
    | cons v us =>
      have hjoin : join ", ".toList (u :: v :: us)
          = (u ++ [',']) ++ ' ' :: join ", ".toList (v :: us) := by simp [join]
      rw [hjoin, words_append, List.mem_append] at h
      rcases h with h | h
      · rcases mem_words_append (s := [',']) (by simp) h with h | ⟨y, hy, rfl⟩
        · exact ⟨u, List.mem_cons_self, w, h, Or.inl rfl⟩
        · exact ⟨u, List.mem_cons_self, y, hy, Or.inr rfl⟩
      · obtain ⟨x, hx, y, hy, hw⟩ := ih (List.cons_ne_nil v us) h
        exact ⟨x, List.mem_cons_of_mem u hx, y, hy, hw⟩

/-- **The items of an enumeration are told by it.** -/
theorem enumeration_inj (hu : ∀ u ∈ us, IsItem u) (hv : ∀ v ∈ vs, IsItem v) (hune : us ≠ [])
    (hvne : vs ≠ []) (h : enumeration us = enumeration vs) : us = vs := by
  induction us generalizing vs with
  | nil => exact absurd rfl hune
  | cons u us ih =>
    have hufirst := hu u List.mem_cons_self
    match us, vs with
    | _, [] => exact absurd rfl hvne
    | [], [v] => exact congrArg (· :: []) h
    | [], [v, w] => exact absurd h (ne_pair hufirst v w)
    | [u'], [v] => exact absurd h.symm (ne_pair (hv v List.mem_cons_self) u u')
    | [u'], [v, w] =>
      obtain ⟨rfl, rfl⟩ := pair_inj hufirst (hv v List.mem_cons_self) h
      rfl
    | [], v :: w :: x :: vs =>
      have heq : u = enumeration (v :: w :: x :: vs) := h
      exact absurd (heq ▸ comma_mem_enumeration v w x vs) hufirst.comma
    | [u'], v :: w :: x :: vs =>
      exact absurd (h ▸ comma_mem_enumeration v w x vs)
        (comma_not_mem_pair hufirst (hu u' (by simp)))
    | u' :: u'' :: us, [v] =>
      have heq : enumeration (u :: u' :: u'' :: us) = v := h
      exact absurd (heq ▸ comma_mem_enumeration u u' u'' us) (hv v List.mem_cons_self).comma
    | u' :: u'' :: us, [v, w] =>
      exact absurd (h ▸ comma_mem_enumeration u u' u'' us)
        (comma_not_mem_pair (hv v List.mem_cons_self) (hv w (by simp)))
    | u' :: u'' :: us, v :: w :: x :: vs =>
      rw [enumeration_cons, enumeration_cons] at h
      obtain ⟨rfl, hrest⟩ := comma_inj hufirst.comma (hv v List.mem_cons_self).comma h
      rw [List.cons.injEq] at hrest
      rw [ih (fun y hy => hu y (List.mem_cons_of_mem u hy))
        (fun y hy => hv y (List.mem_cons_of_mem _ hy)) (by simp) (by simp) hrest.2]

/-- Injective functions on the members of lists. -/
theorem map_inj_of_mem {α β : Type} {f : α → β} {as bs : List α}
    (h : ∀ a ∈ as, ∀ b ∈ bs, f a = f b → a = b) (heq : as.map f = bs.map f) : as = bs := by
  induction as generalizing bs with
  | nil => simpa using heq.symm
  | cons a as ih =>
    cases bs with
    | nil => simp at heq
    | cons b bs =>
      rw [List.map_cons, List.map_cons, List.cons.injEq] at heq
      rw [h a List.mem_cons_self b List.mem_cons_self heq.1,
        ih (fun x hx y hy => h x (List.mem_cons_of_mem a hx) y (List.mem_cons_of_mem b hy)) heq.2]

/-- **What is told of the elements of a list tells the list**, if it tells each of them. -/
theorem enumeration_map_inj {α : Type} {f : α → List Char} {as bs : List α}
    (ha : ∀ a ∈ as, IsItem (f a)) (hb : ∀ b ∈ bs, IsItem (f b))
    (hinj : ∀ a ∈ as, ∀ b ∈ bs, f a = f b → a = b) (hane : as ≠ []) (hbne : bs ≠ [])
    (h : enumeration (as.map f) = enumeration (bs.map f)) : as = bs := by
  have hitems : ∀ xs : List α, (∀ x ∈ xs, IsItem (f x)) → ∀ u ∈ xs.map f, IsItem u := by
    intro xs hxs u hu
    obtain ⟨x, hx, rfl⟩ := List.mem_map.1 hu
    exact hxs x hx
  refine map_inj_of_mem hinj (enumeration_inj (hitems as ha) (hitems bs hb) ?_ ?_ h)
  · simpa using hane
  · simpa using hbne

/-! ## Ordinals -/

/-- A number with the ending of an ordinal. -/
def numeral (n : Int) : List Char := integer n ++ ordinalSuffix n

/-- The characters of ordinals. -/
def ordinalChars : List Char := numberChars ++ " adhlnorst".toList

theorem ordinalSuffix_cases (n : Int) :
    ordinalSuffix n = "th".toList ∨ ordinalSuffix n = "st".toList ∨
      ordinalSuffix n = "nd".toList ∨ ordinalSuffix n = "rd".toList := by
  unfold ordinalSuffix
  dsimp only
  repeat' split
  all_goals simp

theorem ordinalSuffix_subset (n : Int) : ordinalSuffix n ⊆ "dhnrst".toList := by
  rcases ordinalSuffix_cases n with hn | hn | hn | hn
  all_goals
    rw [hn]
    decide

theorem mem_ordinalChars_of_numeral {c : Char} {n : Int} (h : c ∈ numeral n) :
    c ∈ ordinalChars := by
  have hletters : "dhnrst".toList ⊆ ordinalChars := by decide
  rcases List.mem_append.1 h with h | h
  · exact List.mem_append_left _ (mem_of_mem_integer h)
  · exact hletters (ordinalSuffix_subset n h)

/-- An ordinal from the back says so behind its number, unless it is the last one. -/
theorem ordinalWord_eq (n : Int) : ordinalWord n = if n = -1 then "last".toList
    else if n < 0 then numeral (-n) ++ ' ' :: ("to".toList ++ ' ' :: "last".toList)
    else numeral n := by
  rw [ordinalWord, numeral, numeral, ordinalSuffix_neg]
  rfl

theorem mem_ordinalChars {c : Char} {n : Int} (h : c ∈ ordinalWord n) : c ∈ ordinalChars := by
  have hlast : "last".toList ⊆ ordinalChars := by decide
  have hto : ' ' :: ("to".toList ++ ' ' :: "last".toList) ⊆ ordinalChars := by decide
  rw [ordinalWord_eq] at h
  split at h
  · exact hlast h
  · split at h
    · rcases List.mem_append.1 h with h | h
      · exact mem_ordinalChars_of_numeral h
      · exact hto h
    · exact mem_ordinalChars_of_numeral h

theorem any_ordinalWord {p : Char → Bool} (h : ordinalChars.any p = false) (n : Int) :
    (ordinalWord n).any p = false := by
  rw [List.any_eq_false] at h ⊢
  exact fun c hc => h c (mem_ordinalChars hc)

theorem space_not_mem_integer (n : Int) : ' ' ∉ integer n := by
  have hnumber : ' ' ∉ numberChars := by decide
  exact fun h => hnumber (mem_of_mem_integer h)

theorem integer_inj {m n : Int} (h : integer m = integer n) : m = n := by
  rw [← integerValue_integer m, h, integerValue_integer]

theorem space_not_mem_numeral (n : Int) : ' ' ∉ numeral n := by
  intro h
  rcases List.mem_append.1 h with h | h
  · exact space_not_mem_integer n h
  · exact absurd (ordinalSuffix_subset n h) (by decide)

/-- A number has a digit. -/
theorem exists_isDigit_numeral (n : Int) : ∃ c ∈ numeral n, isDigit c = true := by
  obtain ⟨c, s, hs⟩ := List.exists_cons_of_ne_nil (decimal_ne_nil n.natAbs)
  have hc : c ∈ decimal n.natAbs := hs ▸ List.mem_cons_self
  refine ⟨c, List.mem_append_left _ ?_, isDigit_of_mem_decimal hc⟩
  unfold integer
  split
  · exact List.mem_cons_of_mem _ hc
  · exact hc

/-- A text without a digit is no number. -/
theorem ne_numeral (h : s.any isDigit = false) (n : Int) : s ≠ numeral n := by
  rintro rfl
  exact Bool.eq_false_iff.1 h (List.any_eq_true.2 (exists_isDigit_numeral n))

/-- The number of an ordinal ends where its letters begin. -/
theorem numeral_inj {m n : Int} (hm : 0 ≤ m) (hn : 0 ≤ n) (h : numeral m = numeral n) : m = n := by
  have hdigits : ∀ k : Int, 0 ≤ k → ∀ c ∈ integer k, (!isDigit c) = false := by
    intro k hk c hc
    rw [integer, if_neg (by omega)] at hc
    rw [isDigit_of_mem_decimal hc]
    rfl
  have hletters : ∀ k : Int, ∀ c ∈ (ordinalSuffix k).head?, (!isDigit c) = true := by
    intro k
    rcases ordinalSuffix_cases k with hk | hk | hk | hk
    all_goals
      rw [hk]
      intro c hc
      cases hc
      rfl
  exact integer_inj
    (append_inj_of_first (hdigits m hm) (hdigits n hn) (hletters m) (hletters n) h).1

/-- The words of an ordinal. -/
theorem words_ordinalWord (n : Int) : words (ordinalWord n) = if n = -1 then ["last".toList]
    else if n < 0 then [numeral (-n), "to".toList, "last".toList] else [numeral n] := by
  rw [ordinalWord_eq]
  split
  · rfl
  · split
    · rw [words_append, words_of_not_mem (space_not_mem_numeral (-n))]
      rfl
    · exact words_of_not_mem (space_not_mem_numeral n)

/-- **The place is told by its ordinal.** -/
theorem ordinalWord_inj {m n : Int} (h : ordinalWord m = ordinalWord n) : m = n := by
  have hlast : ∀ k, "last".toList ≠ numeral k := ne_numeral (by decide)
  have hwords := congrArg words h
  rw [words_ordinalWord, words_ordinalWord] at hwords
  by_cases hm : m = -1
  · by_cases hn : n = -1
    · rw [hm, hn]
    · rw [if_pos hm, if_neg hn] at hwords
      split at hwords
      · simp at hwords
      · exact absurd (List.cons.inj hwords).1 (hlast n)
  · by_cases hn : n = -1
    · rw [if_neg hm, if_pos hn] at hwords
      split at hwords
      · simp at hwords
      · exact absurd (List.cons.inj hwords).1.symm (hlast m)
    · rw [if_neg hm, if_neg hn] at hwords
      split at hwords <;> split at hwords
      · have := numeral_inj (by omega) (by omega) (List.cons.inj hwords).1
        omega
      · simp at hwords
      · simp at hwords
      · exact numeral_inj (by omega) (by omega) (List.cons.inj hwords).1

end RecurringEvents.Text
