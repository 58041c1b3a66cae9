import RecurringEvents.Moment.Conversion
import RecurringEvents.Proofs.Expansion.Success

/-!
# Layouts part by part

A layout is a field, or a character that is copied, followed by a layout. No field reaches across a
character that is no letter, and an `a` that touches such a character touches nothing. So what
stands before it and what stands behind it are found as they are found alone, and they are rendered
as they are rendered alone if an `a` stands for the half of the day in both or in neither. What has
no field and no such `a` is copied.

* `Layout.layout_induction`: the two ways in which a layout goes on.
* `Layout.pieces_append`: both sides of a character that is no letter.
* `Layout.halfDay_mem_pieces_iff`: when an `a` stands for the half of the day.
* `Host.layoutInZone_local`: layouts are rendered part by part.
-/

namespace RecurringEvents

namespace Layout

open Text

/-! ## Fields -/

/-- A field of a layout: a letter, and how often it comes. -/
structure Field where
  piece : Piece
  letter : Char
  times : Nat

namespace Field

/-- The word that stands for a field. -/
def word (f : Field) : List Char := List.replicate f.times f.letter

/-- The fields `yyyy`, `MM`, `dd`, `HH` and `mm`. -/
def all : List Field :=
  [⟨.year, 'y', 4⟩, ⟨.month, 'M', 2⟩, ⟨.day, 'd', 2⟩, ⟨.hour, 'H', 2⟩, ⟨.minute, 'm', 2⟩]

end Field

/-- Whether a layout begins with a field. -/
def StartsField (s : List Char) : Prop := ∃ f ∈ Field.all, f.word <+: s

/-- Whether there is a field in a layout. -/
def HasField (s : List Char) : Prop := ∃ f ∈ Field.all, f.word <:+: s

/-- Whether there is an `a` in a layout that touches no letter, `before` being the character before
the layout. -/
def HasHalfDay (before : Option Char) (s : List Char) : Prop :=
  ∃ x y, s = x ++ 'a' :: y ∧ isLetter? (x.getLast?.or before) = false ∧ isLetter? y.head? = false

variable {b b' : Option Char} {c : Char} {p q s : List Char} {f : Field}

/-- A field consists of letters other than `a`. -/
theorem Field.isLetter_letter (hf : f ∈ all) : isLetter f.letter = true ∧ f.letter ≠ 'a' := by
  have hall : all.all (fun f => isLetter f.letter && f.letter != 'a') = true := by decide
  simpa using List.all_eq_true.1 hall f hf

theorem Field.times_pos (hf : f ∈ all) : 0 < f.times := by
  have hall : all.all (fun f => decide (0 < f.times)) = true := by decide
  exact of_decide_eq_true (List.all_eq_true.1 hall f hf)

theorem Field.piece_ne_halfDay (hf : f ∈ all) : f.piece ≠ .halfDay := by
  have hall : all.all (fun f => decide (f.piece ≠ .halfDay)) = true := by decide
  exact of_decide_eq_true (List.all_eq_true.1 hall f hf)

/-! ## Pieces -/

theorem pieces_field (hf : f ∈ Field.all) (b : Option Char) (s : List Char) :
    pieces b (f.word ++ s) = f.piece :: pieces (some f.letter) s := by
  simp only [Field.all, List.mem_cons, List.not_mem_nil, or_false] at hf
  rcases hf with rfl | rfl | rfl | rfl | rfl <;> rfl

theorem pieces_literal (h : ¬StartsField (c :: s)) (b : Option Char) :
    pieces b (c :: s) = (if c = 'a' ∧ !isLetter? b ∧ !isLetter? s.head? then .halfDay
      else .literal c) :: pieces (some c) s := by
  have hno : ∀ f ∈ Field.all, ∀ r, c :: s ≠ f.word ++ r := fun f hf r hr =>
    h ⟨f, hf, ⟨r, hr.symm⟩⟩
  rw [pieces.eq_7]
  · rintro r rfl rfl
    exact hno ⟨.year, 'y', 4⟩ (by simp [Field.all]) r rfl
  · rintro r rfl rfl
    exact hno ⟨.month, 'M', 2⟩ (by simp [Field.all]) r rfl
  · rintro r rfl rfl
    exact hno ⟨.day, 'd', 2⟩ (by simp [Field.all]) r rfl
  · rintro r rfl rfl
    exact hno ⟨.hour, 'H', 2⟩ (by simp [Field.all]) r rfl
  · rintro r rfl rfl
    exact hno ⟨.minute, 'm', 2⟩ (by simp [Field.all]) r rfl

/-- **A layout is empty, or goes on after a field, or after a character that is copied.** -/
theorem layout_induction {P : Option Char → List Char → Prop} (nil : ∀ b, P b [])
    (field : ∀ b f s, f ∈ Field.all → P (some f.letter) s → P b (f.word ++ s))
    (literal : ∀ b c s, ¬StartsField (c :: s) → P (some c) s → P b (c :: s))
    (b : Option Char) (s : List Char) : P b s := by
  induction hn : s.length using Nat.strongRecOn generalizing b s with
  | ind n ih =>
    subst hn
    by_cases hs : StartsField s
    · obtain ⟨f, hf, r, rfl⟩ := hs
      have hpos := Field.times_pos hf
      refine field b f r hf (ih r.length ?_ _ r rfl)
      rw [List.length_append, Field.word, List.length_replicate]
      omega
    · cases s with
      | nil => exact nil b
      | cons c r => exact literal b c r hs (ih r.length (Nat.lt_succ_self _) _ r rfl)

/-- Of the character before a layout it only matters whether it is a letter. -/
theorem pieces_congr (h : isLetter? b = isLetter? b') (s : List Char) :
    pieces b s = pieces b' s := by
  cases s with
  | nil => rfl
  | cons c s =>
    by_cases hs : StartsField (c :: s)
    · obtain ⟨f, hf, r, hr⟩ := hs
      rw [← hr, pieces_field hf, pieces_field hf]
    · rw [pieces_literal hs, pieces_literal hs, h]

theorem not_startsField_nil : ¬StartsField [] := by
  rintro ⟨f, hf, hw⟩
  have hpos := Field.times_pos hf
  have hlen := hw.length_le
  rw [Field.word, List.length_replicate, List.length_nil] at hlen
  omega

/-- No field reaches across a character that is no letter. -/
theorem startsField_append_iff (hc : isLetter c = false) :
    StartsField (p ++ c :: q) ↔ StartsField p := by
  constructor
  · rintro ⟨f, hf, hw⟩
    refine ⟨f, hf, ?_⟩
    by_cases hlen : f.word.length ≤ p.length
    · exact List.prefix_of_prefix_length_le hw (List.prefix_append p (c :: q)) hlen
    · -- the word would have the character in it
      have hwhole : p ++ [c] <+: p ++ c :: q := ⟨q, (List.append_cons p c q).symm⟩
      have hpc : p ++ [c] <+: f.word := by
        refine List.prefix_of_prefix_length_le hwhole hw ?_
        rw [List.length_append, List.length_singleton]
        omega
      have hmem : c ∈ f.word := hpc.subset (List.mem_append_right p List.mem_cons_self)
      rw [List.eq_of_mem_replicate hmem, (Field.isLetter_letter hf).1] at hc
      cases hc
  · rintro ⟨f, hf, hw⟩
    exact ⟨f, hf, hw.trans (List.prefix_append p (c :: q))⟩

/-- **The two sides of a character that is no letter are found as they are found alone.** -/
theorem pieces_append (hc : isLetter c = false) (b : Option Char) (p q : List Char) :
    pieces b (p ++ c :: q) = pieces b p ++ .literal c :: pieces none q := by
  have hnone : pieces (some c) q = pieces none q :=
    pieces_congr (show isLetter? (some c) = isLetter? none from hc) q
  induction b, p using layout_induction with
  | nil b =>
    have hstart : ¬StartsField (c :: q) := fun h =>
      not_startsField_nil ((startsField_append_iff (p := []) hc).1 h)
    have hne : c ≠ 'a' := by
      rintro rfl
      cases hc
    rw [List.nil_append, pieces_literal hstart, if_neg fun h => hne h.1, hnone]
    rfl
  | field b f s hf ih =>
    rw [List.append_assoc, pieces_field hf, pieces_field hf, ih]
    rfl
  | literal b d s hs ih =>
    have hs' : ¬StartsField (d :: (s ++ c :: q)) := fun h => hs ((startsField_append_iff hc).1 h)
    have hhead : isLetter? (s ++ c :: q).head? = isLetter? s.head? := by
      cases s with
      | nil => exact hc
      | cons e s => rfl
    rw [List.cons_append, pieces_literal hs', pieces_literal hs, hhead, ih]
    rfl

/-! ## Halves of the day -/

theorem not_hasHalfDay_nil : ¬HasHalfDay b [] := by
  rintro ⟨x, y, h, -⟩
  cases x <;> cases h

/-- The first character of a layout is such an `a`, or there is one behind it. -/
theorem hasHalfDay_cons_iff : HasHalfDay b (c :: s) ↔
    (c = 'a' ∧ isLetter? b = false ∧ isLetter? s.head? = false) ∨ HasHalfDay (some c) s := by
  have hbefore : ∀ x : List Char, (c :: x).getLast?.or b = x.getLast?.or (some c) := by
    intro x
    cases x with
    | nil => rfl
    | cons d x => simp [List.getLast?_cons]
  constructor
  · rintro ⟨x, y, hs, hb, hy⟩
    cases x with
    | nil =>
      cases hs
      exact Or.inl ⟨rfl, hb, hy⟩
    | cons d x =>
      cases hs
      exact Or.inr ⟨x, y, rfl, hbefore x ▸ hb, hy⟩
  · rintro (⟨rfl, hb, hs⟩ | ⟨x, y, rfl, hb, hy⟩)
    · exact ⟨[], s, rfl, hb, hs⟩
    · exact ⟨c :: x, y, rfl, (hbefore x).symm ▸ hb, hy⟩

/-- There is none in a field. -/
theorem hasHalfDay_field_iff (hf : f ∈ Field.all) :
    HasHalfDay b (f.word ++ s) ↔ HasHalfDay (some f.letter) s := by
  have hne := (Field.isLetter_letter hf).2
  have hwords : ∀ n b, HasHalfDay b (List.replicate (n + 1) f.letter ++ s)
      ↔ HasHalfDay (some f.letter) s := by
    intro n
    induction n with
    | zero => simp [hasHalfDay_cons_iff, hne]
    | succ n ih =>
      intro b
      rw [List.replicate_succ, List.cons_append, hasHalfDay_cons_iff, ih]
      simp [hne]
  obtain ⟨n, hn⟩ : ∃ n, f.times = n + 1 := ⟨f.times - 1, by have := Field.times_pos hf; omega⟩
  rw [Field.word, hn, hwords]

/-- **An `a` that touches no letter stands for the half of the day, and no other does.** -/
theorem halfDay_mem_pieces_iff : .halfDay ∈ pieces b s ↔ HasHalfDay b s := by
  induction b, s using layout_induction with
  | nil b => exact iff_of_false List.not_mem_nil not_hasHalfDay_nil
  | field b f s hf ih =>
    rw [pieces_field hf, List.mem_cons, hasHalfDay_field_iff hf, ih]
    exact or_iff_right (Field.piece_ne_halfDay hf).symm
  | literal b c s hs ih =>
    rw [pieces_literal hs, List.mem_cons, hasHalfDay_cons_iff, ih]
    refine or_congr ?_ Iff.rfl
    rw [← Bool.not_eq_true' (isLetter? b), ← Bool.not_eq_true' (isLetter? s.head?)]
    split
    · next h => exact iff_of_true rfl h
    · next h => exact iff_of_false (fun heq => by cases heq) h

/-- A layout without fields, and without such an `a`, is copied. -/
theorem pieces_of_no_field (hfield : ¬HasField s) (hhalf : .halfDay ∉ pieces b s) :
    pieces b s = s.map .literal := by
  induction b, s using layout_induction with
  | nil b => rfl
  | field b f s hf ih => exact absurd ⟨f, hf, [], s, rfl⟩ hfield
  | literal b c s hs ih =>
    rw [pieces_literal hs, List.mem_cons, not_or] at hhalf
    have hrest : ¬HasField s := by
      rintro ⟨f, hf, hw⟩
      exact hfield ⟨f, hf, hw.trans (List.suffix_cons c s).isInfix⟩
    rw [pieces_literal hs, ih hrest hhalf.2, List.map_cons]
    split
    · next h =>
      rw [if_pos h] at hhalf
      exact absurd rfl hhalf.1
    · rfl

/-! ## Rendering -/

/-- The two sides of a character that is no letter are rendered as they are rendered alone, if both
have hours of one kind. -/
theorem render_append (hc : isLetter c = false) (hboth : HasHalfDay none p ↔ HasHalfDay none q)
    (w : Wall) : render (p ++ c :: q) w = render p w ++ c :: render q w := by
  have hmem : ∀ s, (pieces none s).contains .halfDay = true ↔ HasHalfDay none s := fun s => by
    rw [List.contains_iff_mem, halfDay_mem_pieces_iff]
  have hsame : (pieces none p).contains .halfDay = (pieces none q).contains .halfDay := by
    rw [Bool.eq_iff_iff, hmem, hmem, hboth]
  have hwhole : (pieces none (p ++ c :: q)).contains .halfDay
    = (pieces none q).contains .halfDay := by
    rw [pieces_append hc, List.contains_append, List.contains_cons, hsame]
    simp
  rw [render, hwhole, pieces_append hc, List.flatMap_append, List.flatMap_cons, render, hsame,
    render]
  rfl

/-- A layout without fields is rendered as it is. -/
theorem render_of_no_field (hfield : ¬HasField s) (hhalf : ¬HasHalfDay none s) (w : Wall) :
    render s w = s :=
  render_literals w (pieces_of_no_field hfield fun h => hhalf (halfDay_mem_pieces_iff.1 h))

end Layout

namespace Host

open Layout

variable {h : Host} {env : Environment} {m u : Moment} {name : Option String}

/-- A layout is rendered for what the zone shows. -/
theorem layoutInZone_eq [ZoneDatabase] (hu : m.inZone (h.zoneOr env name) = .ok u) (s : List Char) :
    h.layoutInZone env m (String.ofList s) name = .ok (render s u.wall) := by
  rw [layoutInZone, hu, String.toList_ofList]
  rfl

/-- **Layouts are rendered part by part.** Whenever a zone has a moment in the calendar, the two
sides of a character that is no letter are rendered as they are rendered alone, if an `a` stands for
the half of the day in both or in neither; and a layout that has no field and no such `a` is
rendered as it is. -/
theorem layoutInZone_local [ZoneDatabase] (hu : m.inZone (h.zoneOr env name) = .ok u) :
    (∀ (p q : List Char) (c : Char), isLetter c = false →
      (HasHalfDay none p ↔ HasHalfDay none q) →
      ∃ s t, h.layoutInZone env m (String.ofList p) name = .ok s ∧
        h.layoutInZone env m (String.ofList q) name = .ok t ∧
        h.layoutInZone env m (String.ofList (p ++ c :: q)) name = .ok (s ++ c :: t)) ∧
    (∀ p : List Char, ¬HasField p → ¬HasHalfDay none p →
      h.layoutInZone env m (String.ofList p) name = .ok p) := by
  refine ⟨fun p q c hc hboth => ?_, fun p hfield hhalf => ?_⟩
  · refine ⟨render p u.wall, render q u.wall, layoutInZone_eq hu p, layoutInZone_eq hu q, ?_⟩
    rw [layoutInZone_eq hu, render_append hc hboth]
  · rw [layoutInZone_eq hu, render_of_no_field hfield hhalf]

/-- Five past one of a summer afternoon in UTC, which is five past two in London. -/
def earlyAfternoon : Moment := .ofUtc ⟨.near 2024 7 4, .ofMinutes 785, .first⟩

/-- It is rendered in two parts with a half of the day each. In a word the `a` touches other
letters. -/
theorem earlyAfternoon_parts : ∃ s t,
    layoutInZone {} {} earlyAfternoon (String.ofList "a HH".toList) (some "Europe/London") = .ok s ∧
      layoutInZone {} {} earlyAfternoon (String.ofList "mm a".toList) (some "Europe/London")
        = .ok t ∧
      layoutInZone {} {} earlyAfternoon (String.ofList ("a HH".toList ++ '|' :: "mm a".toList))
        (some "Europe/London") = .ok (s ++ '|' :: t) ∧
      s = "PM 02".toList ∧
      layoutInZone {} {} earlyAfternoon (String.ofList "May Day".toList) (some "Europe/London")
        = .ok "May Day".toList := by
  have hu : earlyAfternoon.inZone (zoneOr {} {} (some "Europe/London"))
      = .ok (.london (.near 2024 7 4) 845) := rfl
  obtain ⟨happend, hcopied⟩ := layoutInZone_local hu
  have hboth : HasHalfDay none "a HH".toList ↔ HasHalfDay none "mm a".toList := by
    rw [← halfDay_mem_pieces_iff, ← halfDay_mem_pieces_iff]
    decide
  obtain ⟨s, t, hs, ht, hst⟩ := happend "a HH".toList "mm a".toList '|' rfl hboth
  have hshown : s = render "a HH".toList (Moment.london (.near 2024 7 4) 845).wall :=
    Except.ok.inj (hs.symm.trans (layoutInZone_eq hu "a HH".toList))
  refine ⟨s, t, hs, ht, hst, hshown.trans (by decide), hcopied "May Day".toList ?_ ?_⟩
  · have hno : ∀ f ∈ Field.all, ¬f.word <:+: "May Day".toList := by decide +kernel
    rintro ⟨f, hf, hw⟩
    exact hno f hf hw
  · rw [← halfDay_mem_pieces_iff]
    decide

end Host

end RecurringEvents
