import RecurringEvents.Proofs.Outcome
import RecurringEvents.Proofs.Rule.Draft

/-!
# Drafts that pass

A draft passes its check exactly if it has the fields of a rule, and the outcome is this rule. An
absent interval stands for 1, and the last moment loses its part of a second; nothing else is
changed, so the values of a rule are those of the draft it was made of.

* `DayDraft.checkAll_eq_ok_iff`: the entries of a list.
* `check_eq_ok_iff`: all fields.
-/

namespace RecurringEvents

/-! ## Words and codes -/

theorem Frequency.toList_of_ofWord? {s : List Char} {f : Frequency} (h : ofWord? s = some f) :
    s = f.word.toList := by
  have hf := List.find?_some h
  rw [decide_eq_true_eq] at hf
  exact hf.symm

theorem Weekday.toList_of_ofCode? {s : List Char} {d : Weekday} (h : ofCode? s = some d) :
    s = d.code.toList := by
  have hd := List.find?_some h
  rw [decide_eq_true_eq] at hd
  exact hd.symm

/-! ## Entries -/

namespace DayDraft

variable {place : List PlaceStep} {d : DayDraft} {e : DayEntry}

theorem eq_ofEntry_of_check (h : d.check place = .ok e) : d = ofEntry e := by
  obtain ⟨code, position⟩ := d
  unfold check at h
  cases hday : Weekday.ofCode? code.toList with
  | none =>
    simp only [hday] at h
    cases position <;> cases h
  | some day =>
    have hcode : code = day.code := String.toList_inj.1 (Weekday.toList_of_ofCode? hday)
    simp only [hday] at h
    cases position with
    | none =>
      cases h
      rw [ofEntry, hcode]
    | some n =>
      simp only at h
      split at h
      · cases h
        rw [ofEntry, hcode]
      · cases h

/-- An entry passes if it has the fields of one. -/
theorem check_eq_ok_iff : d.check place = .ok e ↔ d = ofEntry e := by
  constructor
  · exact eq_ofEntry_of_check
  · rintro rfl
    exact check_ofEntry place e

/-- A list passes if its entries do. -/
theorem checkAll_eq_ok_iff {i : Nat} {ds : List DayDraft} {es : List DayEntry} :
    checkAll place i ds = .ok es ↔ ds = es.map ofEntry := by
  constructor
  · intro h
    induction ds generalizing i es with
    | nil =>
      cases h
      rfl
    | cons d ds ih =>
      rw [checkAll] at h
      cases hd : d.check (place ++ [.item i]) with
      | error issues =>
        rw [hd] at h
        cases h
      | ok e =>
        cases hds : checkAll place (i + 1) ds with
        | error issues =>
          rw [hd, hds] at h
          cases h
        | ok es' =>
          rw [hd, hds] at h
          cases h
          rw [List.map_cons, ← eq_ofEntry_of_check hd, ← ih hds]
  · rintro rfl
    exact checkAll_ofEntry place i es

end DayDraft

namespace RuleDraft

/-! ## Single fields -/

theorem checkFrequency_eq_ok_iff {o : Option String} {f : Frequency} :
    checkFrequency o = .ok f ↔ o = some f.word := by
  constructor
  · intro h
    cases o with
    | none => cases h
    | some s =>
      unfold checkFrequency at h
      cases hs : Frequency.ofWord? s.toList with
      | none =>
        simp only [hs] at h
        cases h
      | some f' =>
        simp only [hs] at h
        cases h
        rw [String.toList_inj.1 (Frequency.toList_of_ofWord? hs)]
  · rintro rfl
    exact checkFrequency_word f

theorem checkPositive_eq_ok_iff {name : String} {n : Int} {a : { n : Int // 1 ≤ n }} :
    checkPositive name n = .ok a ↔ n = a.1 := by
  obtain ⟨m, hm⟩ := a
  unfold checkPositive
  constructor
  · intro h
    split at h
    · cases h
      rfl
    · cases h
  · rintro rfl
    exact dif_pos hm

theorem checkCount_eq_ok_iff {o : Option Int} {a : { c : Option Int // ∀ n ∈ c, 1 ≤ n }} :
    checkCount o = .ok a ↔ o = a.1 := by
  constructor
  · intro h
    cases o with
    | none =>
      cases h
      rfl
    | some n =>
      obtain ⟨c, hn, rfl⟩ := map_eq_ok_iff.1 h
      rw [checkPositive_eq_ok_iff.1 hn]
  · rintro rfl
    exact checkCount_of_pos a.2

theorem checkDays_eq_ok_iff {o : Option (List DayDraft)} {es : Option (List DayEntry)} :
    checkDays o = .ok es ↔ o = es.map (·.map DayDraft.ofEntry) := by
  constructor
  · intro h
    cases o with
    | none =>
      cases h
      rfl
    | some ds =>
      obtain ⟨es', hds, rfl⟩ := map_eq_ok_iff.1 h
      rw [Option.map_some, DayDraft.checkAll_eq_ok_iff.1 hds]
  · rintro rfl
    exact checkDays_ofEntry es

theorem checkMonths_eq_ok_iff {o : Option (List Int)}
    {a : { ms : Option (List Int) // ∀ ns ∈ ms, ∀ n ∈ ns, IsMonth n }} :
    checkMonths o = .ok a ↔ o = a.1 := by
  constructor
  · intro h
    cases o with
    | none =>
      cases h
      rfl
    | some ns =>
      simp only [checkMonths] at h
      split at h
      · cases h
        rfl
      · cases h
  · rintro rfl
    exact checkMonths_of_valid a.2

theorem checkWeekStart_eq_ok_iff {o : Option String} {day : Option Weekday} :
    checkWeekStart o = .ok day ↔ o = day.map Weekday.code := by
  constructor
  · intro h
    cases o with
    | none =>
      cases h
      rfl
    | some s =>
      unfold checkWeekStart at h
      cases hs : Weekday.ofCode? s.toList with
      | none =>
        simp only [hs] at h
        cases h
      | some d =>
        simp only [hs] at h
        cases h
        rw [String.toList_inj.1 (Weekday.toList_of_ofCode? hs)]
        rfl
  · rintro rfl
    exact checkWeekStart_code day

theorem checkPlaces_eq_ok_iff {name : String} {limit : Int} {o : Option (List Int)}
    {a : { ps : Option (List Int) // ∀ ns ∈ ps, ∀ n ∈ ns, InSignedRange limit n }} :
    checkPlaces name limit o = .ok a ↔ o = a.1 := by
  constructor
  · intro h
    cases o with
    | none =>
      cases h
      rfl
    | some ns =>
      simp only [checkPlaces] at h
      split at h
      · cases h
        rfl
      · cases h
  · rintro rfl
    exact checkPlaces_of_valid name a.2

/-! ## All fields -/

/-- Whether a draft has the fields of a rule. -/
structure IsOf (d : RuleDraft) (r : Rule) : Prop where
  frequency : d.frequency = some r.frequency.word
  interval : d.interval.getD 1 = r.interval
  count : d.count = r.count
  lastMoment : (lastMomentOf d.lastMoment).1 = r.lastMoment
  byDay : d.byDay = r.byDay.map (·.map DayDraft.ofEntry)
  byMonthDay : d.byMonthDay = r.byMonthDay
  byMonth : d.byMonth = r.byMonth
  bySetPos : d.bySetPos = r.bySetPos
  weekStart : d.weekStart = r.weekStart.map Weekday.code
  exdates : d.exdates = r.exdates
  rdates : d.rdates = r.rdates

variable {d : RuleDraft} {r : Rule}

theorem isOf_of_check (h : d.check = .ok r) : d.IsOf r := by
  unfold check at h
  split at h
  · next frequency interval count byDay byMonth weekStart hf hi hc hd hm hw =>
    obtain ⟨byMonthDay, hmd, h⟩ := bind_eq_ok_iff.1 h
    obtain ⟨bySetPos, hsp, h⟩ := bind_eq_ok_iff.1 h
    cases h
    exact {
      frequency := checkFrequency_eq_ok_iff.1 hf
      interval := checkPositive_eq_ok_iff.1 hi
      count := checkCount_eq_ok_iff.1 hc
      lastMoment := rfl
      byDay := checkDays_eq_ok_iff.1 hd
      byMonthDay := checkPlaces_eq_ok_iff.1 hmd
      byMonth := checkMonths_eq_ok_iff.1 hm
      bySetPos := checkPlaces_eq_ok_iff.1 hsp
      weekStart := checkWeekStart_eq_ok_iff.1 hw
      exdates := rfl
      rdates := rfl }
  · cases h

/-- **A draft passes exactly if it has the fields of a rule**, and then this is the rule. -/
theorem check_eq_ok_iff : d.check = .ok r ↔ d.IsOf r := by
  refine ⟨isOf_of_check, fun h => ?_⟩
  -- the check sees of the last moment only what the rule has of it
  have hlast : lastMomentOf d.lastMoment = ⟨r.lastMoment, r.lastMoment_whole⟩ :=
    Subtype.ext h.lastMoment
  have hsame : lastMomentOf d.lastMoment = lastMomentOf (ofRule r).lastMoment :=
    hlast.trans (lastMomentOf_map r.lastMoment_whole).symm
  have hfields : { ofRule r with interval := d.interval, lastMoment := d.lastMoment } = d := by
    obtain ⟨hf, -, hc, -, hd, hmd, hm, hsp, hw, hex, hr⟩ := h
    cases d
    simp only [ofRule] at *
    subst_vars
    rfl
  have hcheck := check_ofRule r d.interval h.interval
  rw [← hfields, ← hcheck]
  unfold check
  simp only [hsame]

end RuleDraft

end RecurringEvents
