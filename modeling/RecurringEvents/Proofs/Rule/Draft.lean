import RecurringEvents.Rule.Draft

/-!
# Drafts of rules that exist

Every rule comes out of a check: the draft that has its fields passes, and the outcome is the rule
itself. Nothing is lost in the check of a draft but the part of a second of the last moment, and a
rule has none.

* `check_ofEntry`: the draft of an entry passes.
* `check_ofRule`: the draft of a rule passes.
-/

namespace RecurringEvents

/-! ## Entries -/

namespace DayDraft

/-- The draft that has the fields of an entry. -/
def ofEntry (e : DayEntry) : DayDraft := { day := e.day.code, position := e.position }

/-- The draft of an entry passes, wherever it stands. -/
theorem check_ofEntry (place : List PlaceStep) (e : DayEntry) :
    (ofEntry e).check place = .ok e := by
  obtain ⟨day, position, valid⟩ := e
  cases position with
  | none => simp only [check, ofEntry, Weekday.ofCode?_code]
  | some n =>
    simp only [check, ofEntry, Weekday.ofCode?_code]
    exact dif_pos (valid n rfl)

theorem checkAll_ofEntry (place : List PlaceStep) (i : Nat) (es : List DayEntry) :
    checkAll place i (es.map ofEntry) = .ok es := by
  induction es generalizing i with
  | nil => rfl
  | cons e es ih => simp only [List.map_cons, checkAll, check_ofEntry, ih]

end DayDraft

namespace RuleDraft

/-! ## Single fields -/

theorem checkFrequency_word (f : Frequency) : checkFrequency (some f.word) = .ok f := by
  simp only [checkFrequency, Frequency.ofWord?_word]

theorem checkCount_of_pos {count : Option Int} (h : ∀ n ∈ count, 1 ≤ n) :
    checkCount count = .ok ⟨count, h⟩ := by
  cases count with
  | none => rfl
  | some n =>
    simp only [checkCount, checkPositive, dif_pos (h n rfl)]
    rfl

theorem checkDays_ofEntry (days : Option (List DayEntry)) :
    checkDays (days.map (·.map DayDraft.ofEntry)) = .ok days := by
  cases days with
  | none => rfl
  | some es =>
    simp only [checkDays, Option.map_some, DayDraft.checkAll_ofEntry]
    rfl

theorem checkMonths_of_valid {ms : Option (List Int)} (h : ∀ ns ∈ ms, ∀ n ∈ ns, IsMonth n) :
    checkMonths ms = .ok ⟨ms, h⟩ := by
  cases ms with
  | none => rfl
  | some ns => exact dif_pos (h ns rfl)

theorem checkWeekStart_code (day : Option Weekday) :
    checkWeekStart (day.map Weekday.code) = .ok day := by
  cases day with
  | none => rfl
  | some d => simp only [checkWeekStart, Option.map_some, Weekday.ofCode?_code]

theorem checkPlaces_of_valid (name : String) {limit : Int} {ps : Option (List Int)}
    (h : ∀ ns ∈ ps, ∀ n ∈ ns, InSignedRange limit n) :
    checkPlaces name limit ps = .ok ⟨ps, h⟩ := by
  cases ps with
  | none => rfl
  | some ns =>
    simp only [checkPlaces]
    split
    · rfl
    · next n hn =>
      -- a place that is found to be bad is one of the list
      have hbad := List.find?_some hn
      exact absurd (h ns rfl n (List.mem_of_find?_eq_some hn)) (of_decide_eq_true hbad)

/-- A last moment without a part of a second is left as it is. -/
theorem lastMomentOf_map {last : Option Moment} (h : ∀ m ∈ last, m.wall.time.micro = 0) :
    lastMomentOf (last.map fun m => ⟨m.wall, some m.zone⟩) = ⟨last, h⟩ := by
  cases last with
  | none => rfl
  | some m =>
    have hm := h m rfl
    simp only [TimeOfDay.micro, secondMicros] at hm
    simp only [lastMomentOf, Option.map_some, Reading.moment, Option.getD_some, Moment.wholeSecond,
      TimeOfDay.wholeSecond, hm, Int.sub_zero]

/-! ## Rules -/

/-- The draft that has the fields of a rule. -/
def ofRule (r : Rule) : RuleDraft where
  frequency := some r.frequency.word
  interval := some r.interval
  count := r.count
  lastMoment := r.lastMoment.map fun m => ⟨m.wall, some m.zone⟩
  byDay := r.byDay.map (·.map DayDraft.ofEntry)
  byMonthDay := r.byMonthDay
  byMonth := r.byMonth
  bySetPos := r.bySetPos
  weekStart := r.weekStart.map Weekday.code
  exdates := r.exdates
  rdates := r.rdates

/-- **The draft of a rule passes**, and an interval of 1 may be left out of it. -/
theorem check_ofRule (r : Rule) (interval : Option Int) (h : interval.getD 1 = r.interval) :
    { ofRule r with interval := interval }.check = .ok r := by
  have hinterval : checkPositive "interval" (interval.getD 1)
      = .ok ⟨r.interval, r.interval_pos⟩ := by
    rw [h]
    exact dif_pos r.interval_pos
  -- every check gives back what the rule has
  unfold check
  simp only [ofRule, hinterval, checkFrequency_word, checkCount_of_pos r.count_pos,
    checkDays_ofEntry, checkMonths_of_valid r.byMonth_valid, checkWeekStart_code,
    checkPlaces_of_valid _ r.byMonthDay_valid, checkPlaces_of_valid _ r.bySetPos_valid,
    lastMomentOf_map r.lastMoment_whole]
  rfl

end RuleDraft

end RecurringEvents
