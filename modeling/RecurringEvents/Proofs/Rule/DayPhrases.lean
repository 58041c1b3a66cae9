import RecurringEvents.Proofs.Expansion.Filter
import RecurringEvents.Proofs.Rule.Phrases

/-!
# Weekdays in a description

If some entry of a rule has a position, all of its entries are enumerated in their order. Otherwise
its weekdays are told as a set, and with them the places within a period that are picked. All of
this is found again in the phrase.

* `dayEntryPhrase_inj`, `placesPhrase_inj`: single entries, places and weekdays.
* `toldDays_ne`: with and without positions.
* `TellsDaysAlike`, `daysPhrase_eq_iff`: what is told of the weekdays.
-/

namespace RecurringEvents

open Text

namespace Rule

variable {a b : List Weekday} {r r' : Rule}

/-! ## Weekdays with positions -/

theorem isPlain_label (d : Weekday) : IsPlain d.label.toList := by
  obtain ⟨hspace, hcomma, hlink, -⟩ := Weekday.of_mem_labels (a := d) (Or.inl rfl)
  exact .of_word hspace hcomma hlink

theorem isPlain_dayEntryPhrase (e : DayEntry) : IsPlain (dayEntryPhrase e) := by
  have hthe : IsPlain "the".toList := ⟨by decide, by decide⟩
  have hevery : IsPlain "every".toList := ⟨by decide, by decide⟩
  obtain ⟨d, p, hp⟩ := e
  cases p with
  | some n =>
    have heq : dayEntryPhrase ⟨d, some n, hp⟩
        = ("the".toList ++ ' ' :: ordinalWord n) ++ ' ' :: d.label.toList := by
      simp [dayEntryPhrase]
    exact heq ▸ (hthe.append (isPlain_ordinalWord n)).append (isPlain_label d)
  | none => exact hevery.append (isPlain_label d)

/-- An ordinal ends where the name of the day begins. -/
theorem ordinalWord_append_inj {m n : Int} {c d : Weekday}
    (h : ordinalWord m ++ ' ' :: c.label.toList = ordinalWord n ++ ' ' :: d.label.toList) :
    m = n ∧ c = d := by
  have hlow : ∀ k : Int, ∀ x ∈ ordinalWord k ++ [' '], x.isUpper = false := by
    intro k x hx
    rcases List.mem_append.1 hx with hx | hx
    · exact Bool.eq_false_iff.2 (List.any_eq_false.1 (any_ordinalWord (by decide) k) x hx)
    · rw [List.mem_singleton.1 hx]
      rfl
  have hcapital : ∀ e : Weekday, ∀ x ∈ e.label.toList.head?, x.isUpper = true := by
    intro e x hx
    obtain ⟨-, -, -, y, s, hlabel, hy⟩ := Weekday.of_mem_labels (a := e) (Or.inl rfl)
    rw [hlabel] at hx
    cases hx
    exact hy
  rw [List.append_cons, List.append_cons (ordinalWord n)] at h
  obtain ⟨hordinal, hlabel⟩ :=
    append_inj_of_first (hlow m) (hlow n) (hcapital c) (hcapital d) h
  exact ⟨ordinalWord_inj (List.append_cancel_right hordinal), Weekday.label_inj hlabel⟩

theorem dayEntryPhrase_inj {e e' : DayEntry} (h : dayEntryPhrase e = dayEntryPhrase e') :
    e = e' := by
  obtain ⟨d, p, hp⟩ := e
  obtain ⟨d', p', hp'⟩ := e'
  cases p with
  | some n =>
    cases p' with
    | some n' =>
      have htail : ordinalWord n ++ ' ' :: d.label.toList
          = ordinalWord n' ++ ' ' :: d'.label.toList := by
        simpa [dayEntryPhrase] using h
      obtain ⟨rfl, rfl⟩ := ordinalWord_append_inj htail
      rfl
    | none => exact absurd (List.cons.inj h).1 (by decide)
  | none =>
    cases p' with
    | some n' => exact absurd (List.cons.inj h).1 (by decide)
    | none =>
      obtain rfl : d = d' := Weekday.label_inj (List.append_cancel_left h)
      rfl

/-! ## Places within a period -/

/-- The characters by which `weekday`, `weekend` and `of` are told from ordinals. -/
def isDayMark (c : Char) : Bool := c == 'w' || c == 'f'

/-- The places within a period, and the weekdays that they are counted among. -/
def placesPhrase (ps : List Int) (ds : List Weekday) : List Char :=
  enumeration (ps.map ordinalWord) ++ ' ' :: oneDayPhrase ds

theorem exists_words_oneDayPhrase (ds : List Weekday) :
    ∃ w ws, words (oneDayPhrase ds) = w :: ws ∧ w.any isDayMark = true := by
  rw [oneDayPhrase]
  split
  · exact ⟨_, [], rfl, rfl⟩
  · split
    · exact ⟨_, ["day".toList], rfl, rfl⟩
    · exact ⟨"of".toList, words (plainDaysPhrase ds), words_append "of".toList _, rfl⟩

theorem placesPhrase_inj {ps qs : List Int} (hps : ps ≠ []) (hqs : qs ≠ [])
    (h : placesPhrase ps a = placesPhrase qs b) : ps = qs ∧ oneDayPhrase a = oneDayPhrase b := by
  have hplace : ∀ ns : List Int, ∀ w ∈ words (enumeration (ns.map ordinalWord)),
      w.any isDayMark = false := by
    intro ns w hw
    exact any_of_mem_words
      (any_enumeration_map (by decide) fun n _ => any_ordinalWord (by decide) n) hw
  have hday : ∀ ds, ∀ w ∈ (words (oneDayPhrase ds)).head?, w.any isDayMark = true := by
    intro ds w hw
    obtain ⟨x, xs, heq, hx⟩ := exists_words_oneDayPhrase ds
    rw [heq] at hw
    cases hw
    exact hx
  -- the places end before the first word with a mark
  have hwords := congrArg words h
  rw [placesPhrase, placesPhrase, words_append, words_append] at hwords
  obtain ⟨hplaces, hdays⟩ :=
    append_inj_of_first (hplace ps) (hplace qs) (hday a) (hday b) hwords
  have hitem : ∀ ns : List Int, ∀ n ∈ ns, IsItem (ordinalWord n) :=
    fun _ n _ => (isPlain_ordinalWord n).isItem
  exact ⟨enumeration_map_inj (hitem ps) (hitem qs) (fun _ _ _ _ => ordinalWord_inj) hps hqs
    (words_inj hplaces), words_inj hdays⟩

/-! ## What is told of the weekdays -/

/-- The phrase on the weekdays behind the word that opens it. -/
def toldDays (r : Rule) : List Char :=
  if r.hasPositions then enumeration (r.days.map dayEntryPhrase)
  else if r.setPositions = [] then plainDaysPhrase (weekdaysOf r.days)
  else "the ".toList ++ placesPhrase r.setPositions (weekdaysOf r.days)

theorem daysPhrase_eq (r : Rule) : r.daysPhrase = "on ".toList ++ r.toldDays := by
  unfold daysPhrase toldDays placesPhrase
  split
  · rfl
  · split
    · rfl
    · simp

/-- The characters by which the words for weekdays are told from numbers and what links them. -/
def isNameMark (c : Char) : Bool := isDayMark c || c.isUpper

theorem head_plainDaysPhrase (h : a ≠ []) :
    (plainDaysPhrase a).head?.any isNameMark = true := by
  rw [plainDaysPhrase_eq, setPhrase]
  split
  · rfl
  · split
    · rfl
    · obtain ⟨c, s, heq, hc⟩ := exists_namedDays_eq (inOrder_ne_nil h)
      simp [heq, isNameMark, hc]

theorem head_entries {es : List DayEntry} (h : es ≠ []) :
    (enumeration (es.map dayEntryPhrase)).head?.any isNameMark = false := by
  obtain ⟨e, es, rfl⟩ := List.exists_cons_of_ne_nil h
  obtain ⟨s, heq⟩ := exists_enumeration_eq (dayEntryPhrase e) (es.map dayEntryPhrase)
  rw [List.map_cons, heq, dayEntryPhrase]
  split
  · rfl
  · rfl

theorem isDayMark_entries (es : List DayEntry) :
    (enumeration (es.map dayEntryPhrase)).any isDayMark = false := by
  refine any_enumeration_map (by decide) fun e _ => ?_
  have hlabel : e.day.label.toList.any isDayMark = false := by
    have hall : ∀ d ∈ Weekday.all, d.label.toList.any isDayMark = false := by decide
    exact hall e.day e.day.mem_all
  rw [dayEntryPhrase]
  split
  · simp [hlabel, any_ordinalWord, isDayMark, ordinalChars, numberChars]
  · simp [hlabel, isDayMark]

theorem isDayMark_placesPhrase (ps : List Int) (ds : List Weekday) :
    (placesPhrase ps ds).any isDayMark = true := by
  have hday : (oneDayPhrase ds).any isDayMark = true := by
    rw [oneDayPhrase]
    split
    · rfl
    · split
      · rfl
      · rfl
  simp [placesPhrase, hday]

/-- Weekdays with positions are not told like those without. -/
theorem toldDays_ne (hdays : r.days ≠ []) (hdays' : r'.days ≠ []) (h : r.hasPositions = true)
    (h' : r'.hasPositions = false) : r.toldDays ≠ r'.toldDays := by
  -- entries open with `the` or `every`, a set with a name; places open with `the`, but are followed
  -- by a mark
  have hopens := head_entries hdays
  have hmark := isDayMark_entries r.days
  simp only [toldDays, h, h', if_true, Bool.false_eq_true, if_false]
  intro heq
  rw [heq] at hopens hmark
  split at hopens
  · rw [head_plainDaysPhrase (by simpa [weekdaysOf] using hdays')] at hopens
    cases hopens
  · next hplaces =>
    rw [if_neg hplaces, List.any_append, isDayMark_placesPhrase, Bool.or_true] at hmark
    cases hmark

/-- Whether the phrases on the weekdays tell the same: the entries, in their order if some of them
has a position, and otherwise the places within a period. -/
structure TellsDaysAlike (r r' : Rule) : Prop where
  entries : ∀ e, e ∈ r.days ↔ e ∈ r'.days
  order : r.hasPositions = true → r.days = r'.days
  places : r.days ≠ [] → r.hasPositions = false → r.setPositions = r'.setPositions

theorem hasPositions_congr (h : ∀ e, e ∈ r.days ↔ e ∈ r'.days) :
    r.hasPositions = r'.hasPositions := by
  rw [Bool.eq_iff_iff, hasPositions, hasPositions, List.any_eq_true, List.any_eq_true]
  exact exists_congr fun e => and_congr_left' (h e)

theorem mem_weekdaysOf (h : r.hasPositions = false) {d : Weekday} :
    d ∈ weekdaysOf r.days ↔ { day := d } ∈ r.days := by
  constructor
  · intro hd
    obtain ⟨⟨d, p, hp⟩, he, rfl⟩ := List.mem_map.1 hd
    obtain rfl : p = none := hasPositions_eq_false_iff.1 h _ he
    exact he
  · intro hd
    exact List.mem_map_of_mem hd

/-- Entries without positions are told by their weekdays. -/
theorem mem_days_iff (h : r.hasPositions = false) (h' : r'.hasPositions = false) :
    (∀ e, e ∈ r.days ↔ e ∈ r'.days)
      ↔ ∀ d, d ∈ weekdaysOf r.days ↔ d ∈ weekdaysOf r'.days := by
  constructor
  · intro hmem d
    rw [mem_weekdaysOf h, mem_weekdaysOf h', hmem]
  · rintro hmem ⟨d, p, hp⟩
    cases p with
    | none => rw [← mem_weekdaysOf h, hmem, mem_weekdaysOf h']
    | some n =>
      have habsent : ∀ {s : Rule}, s.hasPositions = false → (⟨d, some n, hp⟩ : DayEntry) ∉ s.days :=
        fun hs he => absurd (hasPositions_eq_false_iff.1 hs _ he) (Option.some_ne_none n)
      exact iff_of_false (habsent h) (habsent h')

/-- Weekdays without positions are told with the places that they are counted at. -/
theorem toldDays_eq_iff_of_plain (hdays : r.days ≠ []) (hdays' : r'.days ≠ [])
    (h : r.hasPositions = false) (h' : r'.hasPositions = false) : r.toldDays = r'.toldDays
      ↔ r.setPositions = r'.setPositions ∧ ∀ d, d ∈ weekdaysOf r.days ↔ d ∈ weekdaysOf r'.days := by
  have ha : weekdaysOf r.days ≠ [] := by simpa [weekdaysOf] using hdays
  have hb : weekdaysOf r'.days ≠ [] := by simpa [weekdaysOf] using hdays'
  have hplaces : ∀ ds s, ds ≠ [] → plainDaysPhrase ds ≠ "the ".toList ++ s := by
    intro ds s hne heq
    have hopens := head_plainDaysPhrase hne
    rw [heq] at hopens
    cases hopens
  simp only [toldDays, h, h', Bool.false_eq_true, if_false]
  by_cases hs : r.setPositions = []
  · by_cases hs' : r'.setPositions = []
    · rw [if_pos hs, if_pos hs', plainDaysPhrase_eq_iff ha hb, hs, hs']
      simp
    · rw [if_pos hs, if_neg hs']
      exact iff_of_false (hplaces _ _ ha) fun heq => hs' (heq.1 ▸ hs)
  · by_cases hs' : r'.setPositions = []
    · rw [if_neg hs, if_pos hs']
      exact iff_of_false (hplaces _ _ hb).symm fun heq => hs (heq.1.trans hs')
    · rw [if_neg hs, if_neg hs', List.append_cancel_left_eq, ← oneDayPhrase_eq_iff ha hb]
      refine ⟨placesPhrase_inj hs hs', fun heq => ?_⟩
      rw [placesPhrase, placesPhrase, heq.1, heq.2]

/-- **What the phrase on the weekdays tells.** -/
theorem daysPhrase_eq_iff (hdays : r.days ≠ []) (hdays' : r'.days ≠ []) :
    r.daysPhrase = r'.daysPhrase ↔ r.TellsDaysAlike r' := by
  rw [daysPhrase_eq, daysPhrase_eq, List.append_cancel_left_eq]
  cases h : r.hasPositions with
  | true =>
    cases h' : r'.hasPositions with
    | true =>
      have hitem : ∀ es : List DayEntry, ∀ e ∈ es, IsItem (dayEntryPhrase e) :=
        fun _ e _ => (isPlain_dayEntryPhrase e).isItem
      rw [toldDays, toldDays, if_pos h, if_pos h']
      constructor
      · intro heq
        have hsame : r.days = r'.days := enumeration_map_inj (hitem r.days) (hitem r'.days)
          (fun _ _ _ _ => dayEntryPhrase_inj) hdays hdays' heq
        exact ⟨fun e => by rw [hsame], fun _ => hsame,
          fun _ hf => absurd (hf.symm.trans h) Bool.false_ne_true⟩
      · intro heq
        rw [heq.order h]
    | false =>
      refine iff_of_false (toldDays_ne hdays hdays' h h') fun heq => ?_
      exact Bool.false_ne_true (h'.symm.trans ((hasPositions_congr heq.entries).symm.trans h))
  | false =>
    cases h' : r'.hasPositions with
    | true =>
      refine iff_of_false (toldDays_ne hdays' hdays h' h).symm fun heq => ?_
      exact Bool.false_ne_true (h.symm.trans ((hasPositions_congr heq.entries).trans h'))
    | false =>
      rw [toldDays_eq_iff_of_plain hdays hdays' h h', ← mem_days_iff h h']
      constructor
      · rintro ⟨hplaces, hentries⟩
        exact ⟨hentries, fun hf => absurd (h.symm.trans hf) Bool.false_ne_true, fun _ _ => hplaces⟩
      · intro heq
        exact ⟨heq.places hdays h, heq.entries⟩

/-- The phrase on the weekdays names some. -/
theorem isNameMark_toldDays (h : r.days ≠ []) : r.toldDays.any isNameMark = true := by
  unfold toldDays
  split
  · obtain ⟨e, es, hdays⟩ := List.exists_cons_of_ne_nil h
    obtain ⟨s, heq⟩ := exists_enumeration_eq (dayEntryPhrase e) (es.map dayEntryPhrase)
    obtain ⟨-, -, -, c, t, hlabel, hc⟩ := Weekday.of_mem_labels (a := e.day) (Or.inl rfl)
    have hentry : (dayEntryPhrase e).any isNameMark = true := by
      rw [dayEntryPhrase]
      split
      · simp [hlabel, isNameMark, hc]
      · simp [hlabel, isNameMark, hc]
    rw [hdays, List.map_cons, heq, List.any_append, hentry, Bool.true_or]
  · split
    · have hhead := head_plainDaysPhrase (a := weekdaysOf r.days) (by simpa [weekdaysOf] using h)
      obtain ⟨c, hc, hmark⟩ := (Option.any_eq_true _ _).1 hhead
      exact List.any_eq_true.2 ⟨c, List.mem_of_mem_head? hc, hmark⟩
    · obtain ⟨c, hc, hmark⟩ :=
        List.any_eq_true.1 (isDayMark_placesPhrase r.setPositions (weekdaysOf r.days))
      refine List.any_eq_true.2 ⟨c, List.mem_append_right _ hc, ?_⟩
      rw [isNameMark, hmark, Bool.true_or]

/-- No phrase opens within the one on the weekdays. -/
theorem opens_daysPhrase (h : r.days ≠ []) : Opens isOpener r.daysPhrase := by
  have ha : weekdaysOf r.days ≠ [] := by simpa [weekdaysOf] using h
  rw [daysPhrase_eq]
  show Opens isOpener ("on".toList ++ ' ' :: r.toldDays)
  refine opens_append (by decide) (by decide) fun w hw => ?_
  unfold toldDays at hw
  split at hw
  · exact IsPlain.isOpener_enumeration h (fun e _ => isPlain_dayEntryPhrase e) hw
  · split at hw
    · exact isOpener_of_mem_plainDaysPhrase ha hw
    · next hplaces =>
      have hwords : words ("the ".toList ++ placesPhrase r.setPositions (weekdaysOf r.days))
          = "the".toList :: (words (enumeration (r.setPositions.map ordinalWord))
            ++ words (oneDayPhrase (weekdaysOf r.days))) := by
        rw [← words_append]
        exact words_append "the".toList _
      rw [hwords, List.mem_cons, List.mem_append] at hw
      rcases hw with rfl | hw | hw
      · decide
      · exact IsPlain.isOpener_enumeration hplaces (fun n _ => isPlain_ordinalWord n) hw
      · exact isOpener_of_mem_oneDayPhrase ha hw

end Rule

end RecurringEvents
