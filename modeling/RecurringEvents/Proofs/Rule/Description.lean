import RecurringEvents.Proofs.Expansion.Universal
import RecurringEvents.Proofs.Rule.DayPhrases
import RecurringEvents.Proofs.Rule.LastDay
import RecurringEvents.Session

/-!
# Descriptions

A rule has a description in a zone if it has a count, if it never ends, or if the zone has a date
for its last moment. It has none only where the calendar ends: a last moment within the first or the
last day of the calendar may have no date in the zone.

Two rules that never end, or end with a count, have the same description exactly if they say the
same, except for the places within a period: these are told only of weekdays without positions.

* `Session.exists_describe_iff`: which rules have a description.
* `Rule.ToldAlike`, `Session.describe_eq_iff`: which rules have the same one.
-/

namespace RecurringEvents

open Text

/-! ## Rules that have a description -/

/-- Whether a zone has a date for a moment: the moment is in this zone, or its instant and what the
zone shows at it lie in the calendar. -/
def Moment.HasDateIn (m : Moment) (z : Zone) : Prop :=
  m.zone = z ∨ InCalendar m.instant ∧ InCalendar (z.shown m.instant)

instance (m : Moment) (z : Zone) : Decidable (m.HasDateIn z) := inferInstanceAs (Decidable (_ ∨ _))

theorem Moment.exists_inZone_region_iff {m : Moment} {r : Region} :
    (∃ n, m.inZone (.region r) = .ok n) ↔ m.HasDateIn (.region r) := by
  by_cases hzone : m.zone = .region r
  · have hself : m.inZone (.region r) = .ok m := if_pos ⟨hzone, rfl⟩
    exact iff_of_true ⟨m, hself⟩ (Or.inl hzone)
  · have hmoved : m.inZone (.region r) = (Zone.region r).atInstant m.instant :=
      if_neg fun h => hzone h.1
    rw [hmoved]
    constructor
    · rintro ⟨n, hn⟩
      obtain ⟨hrange, -, hcount, -⟩ := Zone.atInstant_eq_ok_iff.1 hn
      exact Or.inr ⟨hrange, hcount ▸ n.wall.inCalendar⟩
    · rintro (h | ⟨hinstant, hshown⟩)
      · exact absurd h hzone
      · exact Zone.exists_atInstant _ hinstant.1 hinstant.2 hshown.1 hshown.2

/-- The zone that a name stands for, or else the host's, is orderly. -/
theorem Host.isOrderly_zoneOr [ZoneDatabase] (h : Host) (env : Environment) (name : Option String) :
    (h.zoneOr env name).IsOrderly := by
  show (h.regionOr env name).IsOrderly
  rw [regionOr]
  cases hname : (name.bind ZoneName.resolve?).or (ZoneName.resolve? (h.zoneName env)) with
  | none =>
    show Region.utc.IsOrderly
    decide +kernel
  | some r =>
    rcases Option.or_eq_some_iff.1 hname with hname | ⟨-, hname⟩
    · obtain ⟨text, -, hname⟩ := Option.bind_eq_some_iff.1 hname
      exact ZoneName.isOrderly_of_resolve? hname
    · exact ZoneName.isOrderly_of_resolve? hname

namespace Rule

variable {r r' : Rule} {zone : Zone}

/-- A description fails only if the last moment has no date. -/
theorem failsOnly_describe (r : Rule) (zone : Zone) : FailsOnly .outOfRange (r.describe zone) := by
  have hending : FailsOnly .outOfRange (r.endPhrase zone) := by
    unfold endPhrase
    split
    · exact failsOnly_ok _
    · next m _ _ => exact (m.failsOnly_inZone zone).bind fun n _ => failsOnly_ok _
    · exact failsOnly_ok _
  exact hending.bind fun ending _ => failsOnly_ok _

theorem exists_describe_iff_inZone : (∃ text, r.describe zone = .ok text) ↔
    (r.count = none → ∀ m ∈ r.lastMoment, ∃ n, m.inZone zone = .ok n) := by
  have hending : (∃ text, r.describe zone = .ok text) ↔
      ∃ ending, r.endPhrase zone = .ok ending := by
    constructor
    · rintro ⟨text, htext⟩
      obtain ⟨ending, h, -⟩ := bind_eq_ok_iff.1 htext
      exact ⟨ending, h⟩
    · rintro ⟨ending, h⟩
      exact ⟨_, bind_eq_ok_iff.2 ⟨ending, h, rfl⟩⟩
  rw [hending]
  unfold endPhrase
  cases r.count with
  | some n => simp
  | none =>
    cases r.lastMoment with
    | none => simp
    | some m =>
      constructor
      · rintro ⟨ending, h⟩ - x hx
        cases hx
        obtain ⟨n, hn, -⟩ := bind_eq_ok_iff.1 h
        exact ⟨n, hn⟩
      · intro h
        obtain ⟨n, hn⟩ := h rfl m rfl
        exact ⟨_, bind_eq_ok_iff.2 ⟨n, hn, rfl⟩⟩

end Rule

/-! ## The phrases of a description -/

namespace Rule

variable {r r' : Rule}

/-- A phrase that enumerates the elements of a list, if there are some. -/
def listPhrases {α : Type} (start : List Char) (item : α → List Char) (as : List α) :
    List (List Char) :=
  phraseUnless as.isEmpty (start ++ enumeration (as.map item))

/-- The phrase on the months. -/
def monthsPhrases (r : Rule) : List (List Char) :=
  listPhrases "in ".toList (fun m => (monthName m).toList) r.months

/-- The phrase on the days of the month. -/
def monthDaysPhrases (r : Rule) : List (List Char) :=
  listPhrases "on the ".toList monthDayPhrase r.monthDays

/-- The phrase on the weekdays. -/
def daysPhrases (r : Rule) : List (List Char) := phraseUnless r.days.isEmpty r.daysPhrase

/-- The phrase on the number of occurrences. -/
def countPhrases (r : Rule) : List (List Char) := (r.count.map countPhrase).toList

/-- The phrases that come after the one on how often. -/
def laterPhrases (r : Rule) : List (List Char) :=
  r.monthsPhrases ++ (r.monthDaysPhrases ++ (r.daysPhrases ++ r.countPhrases))

/-- The description of a rule without a last moment. -/
theorem describe_eq (h : r.lastMoment = none) (zone : Zone) :
    r.describe zone = .ok (join [' '] (r.periodPhrase :: r.laterPhrases)) := by
  have hending : r.endPhrase zone = .ok r.countPhrases := by
    unfold endPhrase countPhrases
    rw [h]
    cases r.count with
    | none => rfl
    | some n => rfl
  rw [describe, hending]
  simp [laterPhrases, monthsPhrases, monthDaysPhrases, listPhrases, daysPhrases, pure, Except.pure,
    bind, Except.bind]

theorem mem_phraseUnless {absent : Bool} {u v : List Char} :
    u ∈ phraseUnless absent v ↔ absent = false ∧ u = v := by
  cases absent with
  | true => simp [phraseUnless]
  | false => simp [phraseUnless]

/-! ### Lists -/

section

variable {α : Type} {start : List Char} {item : α → List Char} {as bs : List α}

theorem mem_listPhrases {u : List Char} : u ∈ listPhrases start item as ↔
    as ≠ [] ∧ u = start ++ enumeration (as.map item) := by
  rw [listPhrases, mem_phraseUnless, List.isEmpty_eq_false_iff]

/-- A list is told by its phrase. -/
theorem listPhrases_inj (ha : ∀ a ∈ as, IsItem (item a)) (hb : ∀ b ∈ bs, IsItem (item b))
    (hinj : ∀ a ∈ as, ∀ b ∈ bs, item a = item b → a = b)
    (h : listPhrases start item as = listPhrases start item bs) : as = bs := by
  cases as with
  | nil =>
    cases bs with
    | nil => rfl
    | cons b bs => cases h
  | cons a as =>
    cases bs with
    | nil => cases h
    | cons b bs =>
      have htext := List.append_cancel_left (List.cons.inj h).1
      exact enumeration_map_inj ha hb hinj (List.cons_ne_nil a as) (List.cons_ne_nil b bs) htext

end

/-! ### Single phrases -/

theorem isMonth_of_mem {m : Int} (h : m ∈ r.months) : IsMonth m := by
  unfold months at h
  cases hmonths : r.byMonth with
  | none => simp [hmonths] at h
  | some ms =>
    rw [hmonths, Option.getD_some] at h
    exact r.byMonth_valid ms hmonths m h

theorem monthsPhrases_inj (h : r.monthsPhrases = r'.monthsPhrases) : r.months = r'.months :=
  listPhrases_inj (fun _ hm => (isPlain_monthName (isMonth_of_mem hm)).isItem)
    (fun _ hm => (isPlain_monthName (isMonth_of_mem hm)).isItem)
    (fun _ hm _ hn => monthName_inj (isMonth_of_mem hm) (isMonth_of_mem hn)) h

theorem monthDaysPhrases_inj (h : r.monthDaysPhrases = r'.monthDaysPhrases) :
    r.monthDays = r'.monthDays :=
  listPhrases_inj (fun n _ => (isPlain_monthDayPhrase n).isItem)
    (fun n _ => (isPlain_monthDayPhrase n).isItem) (fun _ _ _ _ => monthDayPhrase_inj) h

/-- What the phrase on the weekdays tells, if there is one. -/
theorem daysPhrases_eq_iff : r.daysPhrases = r'.daysPhrases ↔ r.TellsDaysAlike r' := by
  unfold daysPhrases
  by_cases h : r.days = []
  · by_cases h' : r'.days = []
    · rw [h, h']
      refine iff_of_true rfl ⟨fun e => by rw [h, h'], fun _ => by rw [h, h'], fun hne => ?_⟩
      exact absurd h hne
    · rw [h, List.isEmpty_nil, List.isEmpty_eq_false_iff.2 h']
      refine iff_of_false (by simp [phraseUnless]) fun heq => h' ?_
      exact List.eq_nil_iff_forall_not_mem.2 fun e he => by simpa [h] using (heq.entries e).2 he
  · by_cases h' : r'.days = []
    · rw [h', List.isEmpty_nil, List.isEmpty_eq_false_iff.2 h]
      refine iff_of_false (by simp [phraseUnless]) fun heq => h ?_
      exact List.eq_nil_iff_forall_not_mem.2 fun e he => by simpa [h'] using (heq.entries e).1 he
    · rw [List.isEmpty_eq_false_iff.2 h, List.isEmpty_eq_false_iff.2 h', ← daysPhrase_eq_iff h h']
      simp [phraseUnless]

/-- The words for a number of occurrences. -/
theorem words_countPhrase (n : Int) : words (countPhrase n)
    = ["for".toList, integer n, (if n = 1 then "occurrence" else "occurrences").toList] := by
  have heq : countPhrase n = "for".toList ++ ' ' :: (integer n ++ ' ' ::
      (if n = 1 then "occurrence" else "occurrences").toList) := by
    unfold countPhrase
    split
    · simp
    · simp
  rw [heq, words_append, words_append, words_of_not_mem (space_not_mem_integer n)]
  split
  · rfl
  · rfl

theorem countPhrases_inj (h : r.countPhrases = r'.countPhrases) : r.count = r'.count := by
  unfold countPhrases at h
  cases hm : r.count with
  | none =>
    cases hn : r'.count with
    | none => rfl
    | some n => simp [hm, hn] at h
  | some m =>
    cases hn : r'.count with
    | none => simp [hm, hn] at h
    | some n =>
      rw [hm, hn] at h
      have hwords := congrArg words (List.cons.inj h).1
      rw [words_countPhrase, words_countPhrase] at hwords
      rw [integer_inj (List.cons.inj (List.cons.inj hwords).2).1]

/-- The words for the length of an interval. -/
theorem words_periodPhrase (h : r.interval ≠ 1) : words r.periodPhrase
    = ["Every".toList, integer r.interval, r.frequency.unit.toList ++ ['s']] := by
  have heq : r.periodPhrase = "Every".toList ++ ' ' :: (integer r.interval ++ ' ' ::
      (r.frequency.unit.toList ++ ['s'])) := by
    simp [periodPhrase, h]
  rw [heq, words_append, words_append, words_of_not_mem (space_not_mem_integer r.interval)]
  cases r.frequency with
  | _ => rfl

theorem words_periodPhrase_one (h : r.interval = 1) :
    words r.periodPhrase = [r.frequency.label.toList] := by
  rw [periodPhrase, if_pos h]
  cases r.frequency with
  | _ => rfl

theorem periodPhrase_inj (h : r.periodPhrase = r'.periodPhrase) :
    r.frequency = r'.frequency ∧ r.interval = r'.interval := by
  have hlabel : ∀ f ∈ Frequency.all, ∀ g ∈ Frequency.all,
      f.label.toList = g.label.toList → f = g := by decide
  have hunit : ∀ f ∈ Frequency.all, ∀ g ∈ Frequency.all,
      f.unit.toList = g.unit.toList → f = g := by decide
  have hall : ∀ f, f ∈ Frequency.all := by
    intro f
    cases f with
    | _ => decide
  have hwords := congrArg words h
  by_cases hr : r.interval = 1
  · by_cases hr' : r'.interval = 1
    · rw [words_periodPhrase_one hr, words_periodPhrase_one hr'] at hwords
      exact ⟨hlabel _ (hall _) _ (hall _) (List.cons.inj hwords).1, hr.trans hr'.symm⟩
    · rw [words_periodPhrase_one hr, words_periodPhrase hr'] at hwords
      simp at hwords
  · by_cases hr' : r'.interval = 1
    · rw [words_periodPhrase hr, words_periodPhrase_one hr'] at hwords
      simp at hwords
    · rw [words_periodPhrase hr, words_periodPhrase hr'] at hwords
      simp only [List.cons.injEq, true_and, and_true] at hwords
      exact ⟨hunit _ (hall _) _ (hall _) (List.append_cancel_right hwords.2),
        integer_inj hwords.1⟩

/-! ### Opening words -/

/-- A number is not a word that opens a phrase. -/
theorem isOpener_integer (n : Int) : isOpener (integer n) = false := by
  have hno : ∀ w ∈ openers, ¬w ⊆ numberChars := by decide
  rw [isOpener, List.contains_eq_mem, decide_eq_false_iff_not]
  exact fun h => hno _ h fun c hc => mem_of_mem_integer hc

theorem isPhrase_periodPhrase (r : Rule) : IsPhrase isOpener r.periodPhrase := by
  by_cases h : r.interval = 1
  · rw [IsPhrase, words_periodPhrase_one h]
    simp
  · have hunit : ∀ f ∈ Frequency.all, isOpener (f.unit.toList ++ ['s']) = false := by decide
    have hall : r.frequency ∈ Frequency.all := by
      cases r.frequency with
      | _ => decide
    rw [IsPhrase, words_periodPhrase h]
    simpa [isOpener_integer] using hunit _ hall

theorem opens_monthsPhrases : ∀ u ∈ r.monthsPhrases, Opens isOpener u := by
  intro u hu
  obtain ⟨hne, rfl⟩ := mem_listPhrases.1 hu
  show Opens isOpener ("in".toList ++ ' ' :: enumeration _)
  refine opens_append (by decide) (by decide) fun w hw => ?_
  exact IsPlain.isOpener_enumeration hne (fun m hm => isPlain_monthName (isMonth_of_mem hm)) hw

theorem opens_monthDaysPhrases : ∀ u ∈ r.monthDaysPhrases, Opens isOpener u := by
  intro u hu
  obtain ⟨hne, rfl⟩ := mem_listPhrases.1 hu
  show Opens isOpener ("on".toList ++ ' ' :: ("the".toList ++ ' ' :: enumeration _))
  refine opens_append (by decide) (by decide) fun w hw => ?_
  rw [words_append, words_of_not_mem (by decide), List.singleton_append, List.mem_cons] at hw
  rcases hw with rfl | hw
  · decide
  · exact IsPlain.isOpener_enumeration hne (fun n _ => isPlain_monthDayPhrase n) hw

theorem opens_daysPhrases : ∀ u ∈ r.daysPhrases, Opens isOpener u := by
  intro u hu
  obtain ⟨hne, rfl⟩ := mem_phraseUnless.1 hu
  exact opens_daysPhrase (List.isEmpty_eq_false_iff.1 hne)

theorem opens_countPhrases : ∀ u ∈ r.countPhrases, Opens isOpener u := by
  intro u hu
  obtain ⟨n, -, rfl⟩ := Option.map_eq_some_iff.1 (Option.mem_toList.1 hu)
  rw [Opens, IsPhrase, words_countPhrase]
  refine ⟨fun w hw => ?_, ?_⟩
  · cases hw
    rfl
  · have hnoun : isOpener (if n = 1 then "occurrence" else "occurrences").toList = false := by
      split
      · rfl
      · rfl
    simp [isOpener_integer, hnoun]

theorem opens_laterPhrases : ∀ u ∈ r.laterPhrases, Opens isOpener u := by
  intro u hu
  rw [laterPhrases, List.mem_append, List.mem_append, List.mem_append] at hu
  rcases hu with hu | hu | hu | hu
  · exact opens_monthsPhrases u hu
  · exact opens_monthDaysPhrases u hu
  · exact opens_daysPhrases u hu
  · exact opens_countPhrases u hu

/-! ### Telling the phrases apart -/

theorem isNameMark_monthDays : ∀ u ∈ r.monthDaysPhrases, u.any isNameMark = false := by
  intro u hu
  obtain ⟨-, rfl⟩ := mem_listPhrases.1 hu
  have hitem : (enumeration (r.monthDays.map monthDayPhrase)).any isNameMark = false := by
    refine any_enumeration_map (by decide) fun n _ => ?_
    rw [monthDayPhrase_eq]
    split
    · have hday : (' ' :: "day".toList).any isNameMark = false := by decide
      rw [List.any_append, any_ordinalWord (by decide), hday, Bool.or_false]
    · exact any_ordinalWord (by decide) n
  have hstart : "on the ".toList.any isNameMark = false := by decide
  rw [List.any_append, hstart, hitem, Bool.or_false]

theorem isNameMark_days : ∀ u ∈ r.daysPhrases, u.any isNameMark = true := by
  intro u hu
  obtain ⟨hne, rfl⟩ := mem_phraseUnless.1 hu
  have htold := isNameMark_toldDays (List.isEmpty_eq_false_iff.1 hne)
  rw [daysPhrase_eq, List.any_append, htold, Bool.or_true]

theorem head_listPhrases {α : Type} {start : List Char} {item : α → List Char} {as : List α}
    {c : Char} (hc : start.head? = some c) : ∀ u ∈ listPhrases start item as, u.head? = some c := by
  intro u hu
  obtain ⟨-, rfl⟩ := mem_listPhrases.1 hu
  rw [List.head?_append, hc, Option.some_or]

theorem head_daysPhrases : ∀ u ∈ r.daysPhrases, u.head? = some 'o' := by
  intro u hu
  obtain ⟨-, rfl⟩ := mem_phraseUnless.1 hu
  rw [daysPhrase_eq]
  rfl

theorem head_countPhrases : ∀ u ∈ r.countPhrases, u.head? = some 'f' := by
  intro u hu
  obtain ⟨n, -, rfl⟩ := Option.map_eq_some_iff.1 (Option.mem_toList.1 hu)
  rfl

/-- **The phrases are told apart**: that on the months opens with another letter than the others, so
does that on the number of occurrences, and of the other two only the one on the weekdays names
some. -/
theorem laterPhrases_inj (h : r.laterPhrases = r'.laterPhrases) :
    r.monthsPhrases = r'.monthsPhrases ∧ r.monthDaysPhrases = r'.monthDaysPhrases ∧
      r.daysPhrases = r'.daysPhrases ∧ r.countPhrases = r'.countPhrases := by
  have hmonths : ∀ s : Rule, ∀ u ∈ s.monthsPhrases, (u.head? != some 'i') = false := by
    intro s u hu
    rw [head_listPhrases (c := 'i') rfl u hu]
    rfl
  have hlater : ∀ s : Rule, ∀ u ∈ (s.monthDaysPhrases ++ (s.daysPhrases ++ s.countPhrases)).head?,
      (u.head? != some 'i') = true := by
    intro s u hu
    have hmem := List.mem_of_mem_head? hu
    rw [List.mem_append, List.mem_append] at hmem
    rcases hmem with hu | hu | hu
    · rw [head_listPhrases (c := 'o') rfl u hu]
      rfl
    · rw [head_daysPhrases u hu]
      rfl
    · rw [head_countPhrases u hu]
      rfl
  have hnames : ∀ s : Rule, ∀ u ∈ (s.daysPhrases ++ s.countPhrases).head?,
      u.any isNameMark = true := by
    intro s u hu
    rcases List.mem_append.1 (List.mem_of_mem_head? hu) with hu | hu
    · exact isNameMark_days u hu
    · exact List.any_eq_true.2 ⟨'f', List.mem_of_mem_head? (head_countPhrases u hu), rfl⟩
  have hdays : ∀ s : Rule, ∀ u ∈ s.daysPhrases, (u.head? == some 'f') = false := by
    intro s u hu
    rw [head_daysPhrases u hu]
    rfl
  have hcount : ∀ s : Rule, ∀ u ∈ s.countPhrases.head?, (u.head? == some 'f') = true := by
    intro s u hu
    rw [head_countPhrases u (List.mem_of_mem_head? hu)]
    rfl
  -- the lists are cut three times, each time before the first phrase of another kind
  obtain ⟨h1, h⟩ := append_inj_of_first (hmonths r) (hmonths r') (hlater r) (hlater r') h
  obtain ⟨h2, h⟩ := append_inj_of_first isNameMark_monthDays isNameMark_monthDays (hnames r)
    (hnames r') h
  obtain ⟨h3, h4⟩ := append_inj_of_first (hdays r) (hdays r') (hcount r) (hcount r') h
  exact ⟨h1, h2, h3, h4⟩

/-! ### Rules that are told alike -/

/-- Whether the descriptions of two rules without a last moment say the same. -/
structure ToldAlike (r r' : Rule) : Prop extends TellsDaysAlike r r' where
  frequency : r.frequency = r'.frequency
  interval : r.interval = r'.interval
  count : r.count = r'.count
  months : r.months = r'.months
  monthDays : r.monthDays = r'.monthDays

/-- What the phrases of two rules make up is the same only if they say the same. -/
theorem toldAlike_of_join_eq (h : join [' '] (r.periodPhrase :: r.laterPhrases)
      = join [' '] (r'.periodPhrase :: r'.laterPhrases)) : r.ToldAlike r' := by
  obtain ⟨hperiod, hlater⟩ := join_inj_of_opens (isPhrase_periodPhrase r) (isPhrase_periodPhrase r')
    opens_laterPhrases opens_laterPhrases h
  obtain ⟨hmonths, hmonthDays, hdays, hcount⟩ := laterPhrases_inj hlater
  obtain ⟨hfrequency, hinterval⟩ := periodPhrase_inj hperiod
  exact {
    toTellsDaysAlike := daysPhrases_eq_iff.1 hdays
    frequency := hfrequency
    interval := hinterval
    count := countPhrases_inj hcount
    months := monthsPhrases_inj hmonths
    monthDays := monthDaysPhrases_inj hmonthDays }

theorem ToldAlike.laterPhrases_eq (h : r.ToldAlike r') : r.laterPhrases = r'.laterPhrases := by
  rw [laterPhrases, monthsPhrases, monthDaysPhrases, countPhrases, h.months, h.monthDays, h.count,
    daysPhrases_eq_iff.2 h.toTellsDaysAlike]
  rfl

theorem ToldAlike.periodPhrase_eq (h : r.ToldAlike r') : r.periodPhrase = r'.periodPhrase := by
  rw [periodPhrase, periodPhrase, h.frequency, h.interval]

end Rule

namespace Session

variable (s s' : Session) (name name' : Option String)

/-! ## From the session to the description -/

/-- The zone whose dates a description shows. -/
def shownZone [ZoneDatabase] : Zone := s.host.zoneOr s.env (some (s.nameOrDefault name))

/-- **A rule has a description unless its last moment has no date**: it has one exactly if it has a
count, or the zone has a date for its last moment, if there is one. Nothing else can fail, and where
the last moment lies within the calendar by at least a day there is a description. -/
theorem exists_describe_iff [ZoneDatabase] (r : Rule) :
    ((∃ text, s.describe r name = .ok text) ↔
      (r.count = none → ∀ m ∈ r.lastMoment, m.HasDateIn (s.shownZone name))) ∧
    FailsOnly .outOfRange (s.describe r name) ∧
    ((∀ m ∈ r.lastMoment, IsWithin 1 m.instant) → ∃ text, s.describe r name = .ok text) := by
  have hknown : (s.shownZone name).IsOrderly := s.host.isOrderly_zoneOr s.env _
  refine ⟨?_, r.failsOnly_describe _, fun hwithin => ?_⟩
  · rw [describe, Rule.exists_describe_iff_inZone]
    exact forall_congr' fun _ => forall₂_congr fun m _ => Moment.exists_inZone_region_iff
  · rw [describe, Rule.exists_describe_iff_inZone]
    exact fun _ m hm => Moment.exists_inZone hknown (hwithin m hm)

/-- The last second of the calendar in UTC. -/
def lastSecond : Moment := .ofUtc ⟨.near 9999 12 31, newYearsEve.time, .first⟩

/-- A daily rule that ends with the calendar. -/
def toTheEnd : Rule := (Rule.every .daily).endingAt lastSecond rfl

/-- At Tokyo the calendar is over before its last second in UTC, so that the rule has no description
there. -/
theorem toTheEnd_undescribed : describe {} toTheEnd (some "UTC")
      = .ok "Daily until Dec 31, 9999".toList ∧
    describe {} toTheEnd (some "Asia/Tokyo") = .error .outOfRange := by
  decide +kernel

/-- **What a description tells**: two rules without a last moment have the same description, in
whatever zones, exactly if they are told alike. -/
theorem describe_eq_iff [ZoneDatabase] {r r' : Rule} (h : r.lastMoment = none)
    (h' : r'.lastMoment = none) :
    ∃ text text', s.describe r name = .ok text ∧ s'.describe r' name' = .ok text' ∧
      (text = text' ↔ r.ToldAlike r') := by
  refine ⟨_, _, Rule.describe_eq h (s.shownZone name), Rule.describe_eq h' (s'.shownZone name'), ?_⟩
  constructor
  · exact Rule.toldAlike_of_join_eq
  · intro hsame
    rw [hsame.periodPhrase_eq, hsame.laterPhrases_eq]

/-- The last but one of some weekdays in every month. -/
def nearLast (ds : List Weekday) : Rule :=
  { Rule.every .monthly with
    byDay := some (ds.map fun d => { day := d, valid := noPosition_valid })
    bySetPos := some [-2]
    bySetPos_valid := by decide }

/-- The order of the working days is not told. -/
theorem nearLast_workdays_described :
    (nearLast Weekday.workdays).lastMoment = none ∧
    (nearLast Weekday.workdays.reverse).lastMoment = none ∧
    describe {} (nearLast Weekday.workdays) none = .ok "Monthly on the 2nd to last weekday".toList ∧
    ∃ text text', describe {} (nearLast Weekday.workdays) none = .ok text ∧
      describe {} (nearLast Weekday.workdays.reverse) (some "Asia/Tokyo") = .ok text' ∧
      (text = text' ↔ (nearLast Weekday.workdays).ToldAlike (nearLast Weekday.workdays.reverse)) :=
  ⟨rfl, rfl, by decide +kernel, describe_eq_iff {} {} none (some "Asia/Tokyo") rfl rfl⟩

/-- The first and the fifteenth of every month. -/
def twiceAMonth : Rule :=
  { Rule.every .monthly with byMonthDay := some [1, 15], byMonthDay_valid := by decide }

/-- The first one of these days. -/
def onceAMonth : Rule := { twiceAMonth with bySetPos := some [1], bySetPos_valid := by decide }

/-- Without weekdays the places within a period are not told, although they are picked. -/
theorem onceAMonth_confused : onceAMonth.setPositions ≠ twiceAMonth.setPositions ∧
    describe {} onceAMonth none = .ok "Monthly on the 1st and 15th".toList ∧
    describe {} twiceAMonth none = .ok "Monthly on the 1st and 15th".toList := by
  decide +kernel

end Session

end RecurringEvents
