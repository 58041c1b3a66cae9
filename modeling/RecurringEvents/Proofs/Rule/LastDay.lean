import RecurringEvents.Proofs.Moment.Floating
import RecurringEvents.Proofs.Moment.WallClock
import RecurringEvents.Proofs.Rule.Checked
import RecurringEvents.Proofs.Rule.Segments

/-!
# The day of a last moment

A token without a zone shows a day. It is read in a zone as an instant, and when the rule is
described in the same zone, the date is the one that the zone shows at this instant. This is the day
of the token again: a wall time that the zone shows is read as an instant at which it is shown, and
in the hour at Nuuk that is read early, the hour before is on the same day.

* `Region.exists_wall_of_shows`: the day that is shown is the one that was read.
* `Rule.ofFields_of_without`: the other fields give the rest of the rule.
* `Rule.exists_describe_eq`: a description ends with the date of the last moment.
* `Session.describe_of_floating`: from the token to the description.
-/

namespace RecurringEvents

open Text

/-! ## Days -/

/-- **The day of a wall time that a zone shows is shown at the instant that it is read as.** -/
theorem Region.exists_wall_of_shows {r : Region} (hr : r.IsOrderly) (pass : Pass) {w : Wall}
    (hn : (Zone.region r).Shows w.count) : ∃ v : Wall, v.date = w.date ∧
      v.count = (Zone.region r).shown ((Zone.region r).readAt pass w.count) := by
  by_cases hreset : r.IsResetHour pass (w.count / secondMicros)
  · have hearly := (shown_readAt_of_nuuk hreset).2
    obtain ⟨-, -, h1, h2⟩ := hreset
    have hnonneg := w.time.nonneg
    have hlt := w.time.lt
    -- the hour that is read early is the last of its day
    have hhour : 3600 * secondMicros ≤ w.time.micros := by
      simp only [Wall.count, nuukReset, epochDayNumber, dayMicros, secondMicros] at *
      omega
    refine ⟨⟨w.date, ⟨w.time.micros - 3600 * secondMicros, ?_, ?_⟩, .first⟩, rfl, ?_⟩
    · omega
    · simp only [secondMicros] at *
      omega
    · rw [hearly]
      show (w.date.dayNumber - epochDayNumber) * dayMicros
        + (w.time.micros - 3600 * secondMicros) = _
      rw [Wall.count]
      omega
  · exact ⟨w, rfl, (shown_readAt_of_shows hr hn hreset).symm⟩

/-- A wall time that a zone shows is localized to a moment of its day. -/
theorem Moment.exists_localize_of_shows {r : Region} (hr : r.IsOrderly) {w : Wall}
    (hn : (Zone.region r).Shows w.count)
    (hrange : Wall.firstCount ≤ (Zone.region r).readAt w.pass w.count ∧
      (Zone.region r).readAt w.pass w.count < Wall.endCount) :
    ∃ m, localize w (.region r) = .ok m ∧ m.zone = .region r ∧ m.wall.date = w.date := by
  obtain ⟨v, hdate, hcount⟩ := Region.exists_wall_of_shows hr w.pass hn
  obtain ⟨m, hm⟩ := (Zone.region r).exists_atInstant hrange.1 hrange.2
    (hcount ▸ v.firstCount_le) (hcount ▸ v.count_lt)
  obtain ⟨-, hzone, hshown, -⟩ := Zone.atInstant_eq_ok_iff.1 hm
  refine ⟨m, (localize_region w r).trans hm, hzone, ?_⟩
  rw [← hdate]
  exact (Wall.eq_of_count_eq (hshown.trans hcount.symm)).1

/-! ## The other fields -/

namespace Fields

/-- The fields that do not have a key. -/
def without (key : String) (fs : Fields) : Fields := fs.filter fun f => f.1 ≠ key.toList

variable {key : String} {fs : Fields}

theorem nodup_without (h : (fs.map Prod.fst).Nodup) :
    ((fs.without key).map Prod.fst).Nodup :=
  (List.filter_sublist.map Prod.fst).nodup h

theorem lookup_without_of_ne {other : List Char} (h : other ≠ key.toList) :
    (fs.without key).lookup other = fs.lookup other := lookup_filter_of_ne h

end Fields

/-- Only the last moment is read in a zone. -/
theorem FieldKey.readValue_eq_of_ne {k : FieldKey} (h : k ≠ .lastMoment) (zone zone' : Zone)
    (value : List Char) : k.readValue zone value = k.readValue zone' value := by
  cases k with
  | lastMoment => exact absurd rfl h
  | _ => rfl

/-- The rule with a last moment. -/
def Rule.endingAt (r : Rule) (m : Moment) (h : m.wall.time.micro = 0) : Rule :=
  { r with lastMoment := some m, lastMoment_whole := forall_mem_some h }

/-- A last moment is kept as it is when the draft is checked. -/
theorem RuleDraft.IsOf.endingAt {d : RuleDraft} {r : Rule} (h : d.IsOf r) {m : Moment}
    (hm : m.wall.time.micro = 0) :
    (d.set .lastMoment ⟨m.wall, some m.zone⟩).IsOf (r.endingAt m hm) := by
  have hwhole : ∀ x ∈ some m, x.wall.time.micro = 0 := forall_mem_some hm
  exact {
    frequency := h.frequency
    interval := h.interval
    count := h.count
    lastMoment := congrArg Subtype.val (lastMomentOf_map hwhole)
    byDay := h.byDay
    byMonthDay := h.byMonthDay
    byMonth := h.byMonth
    bySetPos := h.bySetPos
    weekStart := h.weekStart
    exdates := h.exdates
    rdates := h.rdates }

namespace Rule

variable {zone zone' : Zone} {fs : Fields} {r : Rule} {token : List Char} {m : Moment}

/-- What is told of another key does not depend on the last moment, nor on the zone. -/
theorem Tells.of_without {k : FieldKey} {old new : Option k.Value} (hk : k ≠ .lastMoment)
    (h : Tells zone' (fs.without "UNTIL") k old new) : Tells zone fs k old new := by
  have hlookup : (fs.without "UNTIL").lookup k.text.toList = fs.lookup k.text.toList :=
    Fields.lookup_without_of_ne fun heq =>
      hk (FieldKey.text_inj (show _ = (FieldKey.text .lastMoment).toList from heq))
  refine ⟨fun hnone => h.absent (hlookup.trans hnone), fun value hvalue => ?_⟩
  obtain ⟨a, ha, hnew⟩ := h.present value (hlookup.trans hvalue)
  exact ⟨a, (FieldKey.readValue_eq_of_ne hk zone zone' value).trans ha, hnew⟩

/-- A token adds a last moment to the draft that the other fields give. -/
theorem Gives.of_without {d d' : RuleDraft} (h : Gives zone' (fs.without "UNTIL") d d')
    (htoken : fs.value? "UNTIL" = some token) (hm : Token.read token zone = .ok m) :
    Gives zone fs d (d'.set .lastMoment ⟨m.wall, some m.zone⟩) := by
  refine ⟨⟨h.rest.frequency, h.rest.exdates, h.rest.rdates⟩, fun k => ?_⟩
  by_cases hk : k = .lastMoment
  · subst hk
    have hlookup : fs.lookup (FieldKey.text .lastMoment).toList = some token := htoken
    refine (tells_of_lookup hlookup).2
      ⟨⟨m.wall, some m.zone⟩, ?_, RuleDraft.get_set_self d' .lastMoment _⟩
    rw [FieldKey.readValue, readLastMoment, hm]
  · rw [RuleDraft.get_set_of_ne d' _ hk]
    exact (h.tells k).of_without hk

/-- **A token adds a last moment to the rule that the other fields give.** -/
theorem ofFields_of_without (hnodup : (fs.map Prod.fst).Nodup)
    (htoken : fs.value? "UNTIL" = some token) (hm : Token.read token zone = .ok m)
    (hr : ofFields zone' (fs.without "UNTIL") = .ok r) :
    ofFields zone fs = .ok (r.endingAt m (Token.micro_of_read hm)) := by
  obtain ⟨f, d, hf, hgives, hcheck⟩ :=
    (ofFields_eq_ok_iff (Fields.nodup_without hnodup)).1 hr
  have hfrequency : (fs.without "UNTIL").value? "FREQ" = fs.value? "FREQ" :=
    Fields.lookup_without_of_ne (by decide)
  rw [readFrequency, hfrequency] at hf
  have hof := (RuleDraft.check_eq_ok_iff.1 hcheck).endingAt (Token.micro_of_read hm)
  exact (ofFields_eq_ok_iff hnodup).2
    ⟨f, _, hf, hgives.of_without htoken hm, RuleDraft.check_eq_ok_iff.2 hof⟩

/-- A rule has no count if no field gives one. -/
theorem count_of_ofFields (hnodup : (fs.map Prod.fst).Nodup) (hcount : fs.value? "COUNT" = none)
    (hr : ofFields zone fs = .ok r) : r.count = none := by
  obtain ⟨f, d, -, hgives, hcheck⟩ := (ofFields_eq_ok_iff hnodup).1 hr
  have hdraft : d.count = none := (hgives.tells .count).absent hcount
  exact (RuleDraft.check_eq_ok_iff.1 hcheck).count.symm.trans hdraft

/-! ## Descriptions -/

/-- The last of several words stands behind the last separator. -/
theorem join_append_singleton (sep w : List Char) {ws : List (List Char)} (h : ws ≠ []) :
    join sep (ws ++ [w]) = join sep ws ++ (sep ++ w) := by
  induction ws with
  | nil => exact absurd rfl h
  | cons v ws ih =>
    cases ws with
    | nil => exact List.append_assoc v sep w
    | cons u us =>
      show v ++ sep ++ join sep (u :: us ++ [w]) = v ++ sep ++ join sep (u :: us) ++ (sep ++ w)
      rw [ih (List.cons_ne_nil u us)]
      simp only [List.append_assoc]

/-- **A description ends with the date of the last moment**, if there is no count. -/
theorem exists_describe_eq {u : Moment} (hcount : r.count = none) (hlast : r.lastMoment = some m)
    (hu : m.inZone zone = .ok u) :
    ∃ s, r.describe zone = .ok (s ++ ' ' :: lastDatePhrase u.wall.date) := by
  have hend : r.endPhrase zone = .ok [lastDatePhrase u.wall.date] := by
    rw [endPhrase, hcount, hlast]
    exact bind_eq_ok_iff.2 ⟨u, hu, rfl⟩
  have hne : [r.periodPhrase]
      ++ phraseUnless r.months.isEmpty
        ("in ".toList ++ enumeration (r.months.map fun m => (monthName m).toList))
      ++ phraseUnless r.monthDays.isEmpty
        ("on the ".toList ++ enumeration (r.monthDays.map monthDayPhrase))
      ++ phraseUnless r.days.isEmpty r.daysPhrase ≠ [] := by simp
  have hjoin := join_append_singleton [' '] (lastDatePhrase u.wall.date) hne
  exact ⟨_, bind_eq_ok_iff.2 ⟨_, hend, congrArg Except.ok hjoin⟩⟩

end Rule

/-- The short English name of a month. -/
def shortMonthName (month : Int) : String :=
  ["Jan", "Feb", "Mar", "Apr", "May", "Jun", "Jul", "Aug", "Sep", "Oct", "Nov", "Dec"].getD
    (month - 1).toNat ""

/-- A date as `Mon D, YYYY`; day and year have no leading zeros. -/
def Date.shortText (d : Date) : List Char :=
  (shortMonthName d.month).toList ++ ' ' :: decimal d.day.toNat ++ ", ".toList
    ++ decimal d.year.toNat

theorem take_monthName {month : Int} (h1 : 1 ≤ month) (h2 : month ≤ 12) :
    (monthName month).toList.take 3 = (shortMonthName month).toList := by
  have hmonth : month = 1 ∨ month = 2 ∨ month = 3 ∨ month = 4 ∨ month = 5 ∨ month = 6 ∨
      month = 7 ∨ month = 8 ∨ month = 9 ∨ month = 10 ∨ month = 11 ∨ month = 12 := by omega
  rcases hmonth with rfl | rfl | rfl | rfl | rfl | rfl | rfl | rfl | rfl | rfl | rfl | rfl <;> rfl

/-- The phrase for a last moment is the short text of its date. -/
theorem Rule.lastDatePhrase_eq (d : Date) :
    lastDatePhrase d = "until ".toList ++ d.shortText := by
  obtain ⟨hy, -, hm, hm', hd, -⟩ := d.valid
  have hinteger : ∀ n : Int, 1 ≤ n → integer n = decimal n.toNat := by
    intro n hn
    rw [integer, if_neg (by omega), show n.natAbs = n.toNat by omega]
  unfold lastDatePhrase Date.shortText
  rw [take_monthName hm hm', hinteger _ hy, hinteger _ hd]
  simp only [List.append_assoc]

/-! ## From the token to the description -/

theorem ZoneName.ne_empty_of_resolve? [ZoneDatabase] {name : String} {r : Region}
    (h : resolve? name = some r) : name ≠ "" := by
  rintro rfl
  have hnone : canonicalIn? ZoneDatabase.find? "" = none := if_neg fun hne => hne.1 rfl
  rw [resolve?, resolveIn?, hnone] at h
  cases h

namespace Session

variable (s : Session) {name : String} {r : Region}

/-- A name that is resolved is not replaced by the default. -/
theorem nameOrDefault_of_resolve? [ZoneDatabase] (hr : ZoneName.resolve? name = some r) :
    s.nameOrDefault (some name) = name := by
  have hgiven : Host.given? (some name) = some name :=
    Option.filter_eq_some_iff.2 ⟨rfl, decide_eq_true (ZoneName.ne_empty_of_resolve? hr)⟩
  rw [nameOrDefault, hgiven]
  rfl

theorem floatingZone_of_resolve? [ZoneDatabase] (hr : ZoneName.resolve? name = some r) :
    s.floatingZone (some name) = .region r := by
  rw [floatingZone, s.nameOrDefault_of_resolve? hr, hr]

end Session

/-- Whether a text carries a token as its last moment and is a rule otherwise: it has no count, and
without its last moment it denotes a rule. -/
structure Rule.Carries (text token : List Char) : Prop where
  lastMoment : (Fields.ofText text).value? "UNTIL" = some token
  count : (Fields.ofText text).value? "COUNT" = none
  rest : ∃ zone r, ofFields zone ((Fields.ofText text).without "UNTIL") = .ok r

/-- **A token without a zone keeps its day.** If a zone shows the wall time of the token and it is
read as an instant of the years 1 to 9999, a rule that carries the token and has no count is read in
this zone, and its description in this zone ends with the day of the token. -/
theorem Session.describe_of_floating [ZoneDatabase] (s s' : Session) {name text : String}
    {r : Region}
    {token : List Char} {w : Wall} (hr : ZoneName.resolve? name = some r)
    (htoken : Token.Shows token w) (hn : (Zone.region r).Shows w.count)
    (hrange : Wall.firstCount ≤ (Zone.region r).readAt .first w.count ∧
      (Zone.region r).readAt .first w.count < Wall.endCount)
    (htext : Rule.Carries text.toList token) :
    ∃ rule start, s.readRule (some name) (some text) = .ok rule ∧
      s'.describe rule (some name) = .ok (start ++ " until ".toList ++ w.date.shortText) := by
  have hpass : w.pass = .first := by cases htoken <;> rfl
  have hnodup : ((Fields.ofText text.toList).map Prod.fst).Nodup := Fields.nodup_ofSegments _
  obtain ⟨m, hm, hzone, hdate⟩ := Moment.exists_localize_of_shows
    (ZoneName.isOrderly_of_resolve? hr) hn (hpass ▸ hrange)
  obtain ⟨zone, rest, hrest⟩ := htext.rest
  obtain ⟨rule, hread, hlast⟩ : ∃ rule,
      Rule.ofFields (.region r) (Fields.ofText text.toList) = .ok rule ∧ rule.lastMoment = some m :=
    ⟨_, Rule.ofFields_of_without hnodup htext.lastMoment (Token.read_of_shows htoken hm) hrest, rfl⟩
  -- the last moment is a moment of the zone in which it is shown
  have hshown : m.inZone (.region r) = .ok m := hzone ▸ Moment.inZone_self (hzone ▸ rfl)
  obtain ⟨start, hstart⟩ := Rule.exists_describe_eq
    (Rule.count_of_ofFields hnodup htext.count hread) hlast hshown
  refine ⟨rule, start, ?_, ?_⟩
  · rw [readRule, s.floatingZone_of_resolve? hr]
    exact Rule.read_eq_ok_iff_ofFields.2 hread
  · rw [describe, s'.nameOrDefault_of_resolve? hr, Host.zoneOr_of_resolve? _ _ hr, hstart, hdate,
      Rule.lastDatePhrase_eq, List.append_assoc]
    rfl

/-! ### An example -/

/-- The last second of a year. -/
def newYearsEve : Wall := ⟨.near 2024 12 31, ⟨86399000000, by decide, by decide⟩, .first⟩

/-- At Auckland the year ends before noon of the same day in UTC. -/
theorem Session.newYearsEve_described : ZoneName.resolve? "Pacific/Auckland" = some .auckland ∧
    Token.Shows "20241231T235959".toList newYearsEve ∧
    (Zone.region .auckland).Shows newYearsEve.count ∧
    Rule.Carries "FREQ=WEEKLY;UNTIL=20241231T235959".toList "20241231T235959".toList ∧
    ∃ rule start, readRule {} (some "Pacific/Auckland") (some "FREQ=WEEKLY;UNTIL=20241231T235959")
        = .ok rule ∧
      describe {} rule (some "Pacific/Auckland")
        = .ok (start ++ " until ".toList ++ "Dec 31, 2024".toList) := by
  have hr : ZoneName.resolve? "Pacific/Auckland" = some .auckland := by decide +kernel
  have htoken : Token.Shows "20241231T235959".toList newYearsEve := by
    rw [show "20241231T235959".toList
      = Token.ofDate newYearsEve.date ++ 'T' :: Token.ofTime newYearsEve.time by decide +kernel]
    exact .time _ (by decide)
  have hn : (Zone.region .auckland).Shows newYearsEve.count :=
    ⟨1735642799000000, by decide +kernel⟩
  have htext : Rule.Carries "FREQ=WEEKLY;UNTIL=20241231T235959".toList "20241231T235959".toList :=
    ⟨by decide +kernel, by decide +kernel, .utc, .every .weekly, by decide +kernel⟩
  have htext' : newYearsEve.date.shortText = "Dec 31, 2024".toList := by decide +kernel
  refine ⟨hr, htoken, hn, htext, ?_⟩
  rw [← htext']
  exact describe_of_floating {} {} hr htoken hn (by decide +kernel) htext

end RecurringEvents
