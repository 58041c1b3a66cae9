import RecurringEvents.CommandLine.Run
import RecurringEvents.Proofs.Expansion.Universal
import RecurringEvents.Proofs.Settings.EnvFile

/-!
# How a command line ends

A command line without a misuse is carried out, or what is wrong with it is reported, with the exit
codes 0 and 1. Three things end the program instead: an environment file that is refused, a time
that leaves the years 1 to 9999, and an option for a number that occurs without one.

* `Moment.localize_eq_outOfRange_iff`, `Moment.add_eq_outOfRange_iff`: times that leave the
  calendar.
* `ExpandRequest.AsksOutside`, `ExpandRequest.event_eq_crash_iff`: what `expand` asks for.
* `Command.EndsIn`, `runCommand_eq_crash_iff`: the commands.
* `Crashes`, `run_ends`: the command line.
-/

namespace RecurringEvents

/-! ## Times that leave the calendar -/

namespace Moment

variable {m : Moment} {z : Zone} {w : Wall} {k : Int}

/-- A moment is moved by moving its wall time. -/
theorem exists_add_iff : (∃ n, m.add k = .ok n) ↔ InCalendar (m.wall.count + k) := by
  constructor
  · rintro ⟨n, hn⟩
    unfold add at hn
    split at hn
    · next v hv =>
      rw [← (Wall.count_of_ofCount? hv).1]
      exact v.inCalendar
    · cases hn
  · rintro ⟨h1, h2⟩
    exact exists_add h1 h2

theorem add_eq_outOfRange_iff : m.add k = .error .outOfRange ↔ ¬InCalendar (m.wall.count + k) := by
  rw [(m.failsOnly_add k).eq_error_iff, exists_add_iff]

theorem localize_eq_outOfRange_iff : localize w z = .error .outOfRange ↔
    ¬(InCalendar (z.readAt w.pass w.count) ∧ InCalendar (z.shown (z.readAt w.pass w.count))) := by
  rw [(failsOnly_localize w z).eq_error_iff, exists_localize_iff]

end Moment

namespace CommandLine

variable {ε α : Type} {zone : Zone} {text : String} {x : Except CalendarError α} {c : Crash}

/-- Whether a time stamp leaves the calendar: its date is after the last one, or it has no offset
and the zone does not have its time in the calendar. -/
inductive LeavesCalendar (text : String) (zone : Zone) : Prop where
  | date (late : Iso.stamp text.toList = .error .outOfRange)
  | time {r : Reading} (stamp : Iso.stamp text.toList = .ok r) (floating : r.zone = none)
      (left : ¬(InCalendar (zone.readAt r.wall.pass r.wall.count) ∧
        InCalendar (zone.shown (zone.readAt r.wall.pass r.wall.count))))

/-- **The time of a stamp is out of range exactly if the stamp leaves the calendar.** -/
theorem instantOf_eq_outOfRange_iff :
    instantOf text zone = .error .outOfRange ↔ LeavesCalendar text zone := by
  unfold instantOf
  rw [bind_eq_error_iff]
  constructor
  · rintro (hlate | ⟨r, hr, h⟩)
    · exact .date hlate
    · cases hzone : r.zone with
      | some z =>
        rw [hzone] at h
        cases h
      | none =>
        rw [hzone] at h
        exact .time hr hzone (Moment.localize_eq_outOfRange_iff.1 h)
  · rintro (hlate | ⟨hr, hzone, hleft⟩)
    · exact Or.inl hlate
    · refine Or.inr ⟨_, hr, ?_⟩
      rw [hzone]
      exact Moment.localize_eq_outOfRange_iff.2 hleft

/-- That of a stamp which may be left out, too. -/
theorem stampOr_eq_outOfRange_iff {given : Option String} {other : Except CalendarError Moment} :
    stampOr given zone other = .error .outOfRange ↔
      (∃ text, Host.given? given = some text ∧ LeavesCalendar text zone) ∨
        Host.given? given = none ∧ other = .error .outOfRange := by
  unfold stampOr
  cases Host.given? given with
  | none => simp
  | some text => simp [instantOf_eq_outOfRange_iff]

/-! ## Failures -/

/-- A value has the failure that its error stands for. -/
theorem orFail_eq_error_iff {y : Except ε α} {f : ε → Failure} {g : Failure} :
    orFail f y = .error g ↔ ∃ e, y = .error e ∧ f e = g := by
  cases y with
  | ok a => simp [orFail]
  | error e => simp [orFail]

theorem orFail_eq_ok_iff {y : Except ε α} {f : ε → Failure} {a : α} :
    orFail f y = .ok a ↔ y = .ok a := by
  cases y with
  | ok b => simp [orFail]
  | error e => simp [orFail]

/-- A failure of the calendar ends the program if the calendar is left. -/
theorem orFail_ofCalendar_eq_crash_iff :
    orFail .ofCalendar x = .error (.crash c) ↔ x = .error .outOfRange ∧ c = .outOfRange := by
  rw [orFail_eq_error_iff]
  constructor
  · rintro ⟨e, he, hc⟩
    cases e with
    | outOfRange =>
      cases hc
      exact ⟨he, rfl⟩
    | invalidDate => cases hc
    | invalidMonth => cases hc
  · rintro ⟨hx, rfl⟩
    exact ⟨_, hx, rfl⟩

/-- So does one of an expansion. -/
theorem orFail_ofExpansion_eq_crash_iff {y : Except ExpansionError α} :
    orFail .ofExpansion y = .error (.crash c) ↔
      y = .error (.calendar .outOfRange) ∧ c = .outOfRange := by
  rw [orFail_eq_error_iff]
  constructor
  · rintro ⟨e, he, hc⟩
    cases e with
    | calendar e' =>
      cases e' with
      | outOfRange =>
        cases hc
        exact ⟨he, rfl⟩
      | invalidDate => cases hc
      | invalidMonth => cases hc
    | capBelowOne cap => cases hc
    | reversedRange start finish => cases hc
    | refused issues => cases hc
  · rintro ⟨hy, rfl⟩
    exact ⟨_, hy, rfl⟩

/-- What is reported does not end the program. -/
theorem orFail_reported_ne {y : Except ε α} {words : ε → Option (List Char)} :
    ¬orFail (fun e => .reported (words e)) y = .error (.crash c) := by
  rw [orFail_eq_error_iff]
  rintro ⟨e, -, h⟩
  cases h

/-- What is lacking has the failure that is asked for. -/
theorem need_eq_error_iff {o : Option α} {f g : Failure} :
    need f o = .error g ↔ o = none ∧ f = g := by
  cases o with
  | none => simp [need]
  | some a => simp [need]

theorem need_eq_ok_iff {o : Option α} {f : Failure} {a : α} : need f o = .ok a ↔ o = some a := by
  cases o with
  | none => simp [need]
  | some b => simp [need]

/-! ## What is asked for -/

namespace ExpandRequest

variable {r : ExpandRequest} {rule : Rule} {name : String}

/-- The moments that a request names. -/
structure Times (r : ExpandRequest) (zone : Zone) (start rangeStart rangeEnd : Moment) : Prop where
  first : instantOf (r.start.getD "") zone = .ok start
  second : stampOr r.rangeStart zone (.ok start) = .ok rangeStart
  third : stampOr r.finish zone (rangeStart.add defaultRange) = .ok rangeEnd

/-- How a request ends the program before there is anything to expand: a time leaves the calendar,
or the length is lacking. The times are read in their order. -/
inductive AsksOutside (r : ExpandRequest) (zone : Zone) : Crash → Prop where
  | start (left : LeavesCalendar (r.start.getD "") zone) : AsksOutside r zone .outOfRange
  | rangeStart {start : Moment} {text : String}
      (first : instantOf (r.start.getD "") zone = .ok start)
      (given : Host.given? r.rangeStart = some text) (left : LeavesCalendar text zone) :
      AsksOutside r zone .outOfRange
  | rangeEnd {start rangeStart : Moment} {text : String}
      (first : instantOf (r.start.getD "") zone = .ok start)
      (second : stampOr r.rangeStart zone (.ok start) = .ok rangeStart)
      (given : Host.given? r.finish = some text) (left : LeavesCalendar text zone) :
      AsksOutside r zone .outOfRange
  | defaultEnd {start rangeStart : Moment} (first : instantOf (r.start.getD "") zone = .ok start)
      (second : stampOr r.rangeStart zone (.ok start) = .ok rangeStart)
      (absent : Host.given? r.finish = none)
      (left : ¬InCalendar (rangeStart.wall.count + defaultRange)) : AsksOutside r zone .outOfRange
  | minutes {start rangeStart rangeEnd : Moment} (times : r.Times zone start rangeStart rangeEnd)
      (lacking : r.minutes = none) : AsksOutside r zone .lackingNumber
  | length {start rangeStart rangeEnd : Moment} {minutes : Int}
      (times : r.Times zone start rangeStart rangeEnd) (given : r.minutes = some minutes)
      (left : ¬InCalendar (start.wall.count + minutes * 60 * secondMicros)) :
      AsksOutside r zone .outOfRange

/-- **A request ends the program in these ways only.** -/
theorem event_eq_crash_iff :
    r.event rule name zone = .error (.crash c) ↔ r.AsksOutside zone c := by
  simp only [event, bind_eq_error_iff, orFail_ofCalendar_eq_crash_iff, orFail_eq_ok_iff,
    need_eq_error_iff, need_eq_ok_iff, instantOf_eq_outOfRange_iff, stampOr_eq_outOfRange_iff,
    Moment.add_eq_outOfRange_iff, orFail_reported_ne, pure, Except.pure, reduceCtorEq, and_false,
    exists_false, or_false, Failure.crash.injEq]
  constructor
  · rintro (⟨left, rfl⟩ | ⟨start, h1, ⟨⟨text, given, left⟩, rfl⟩ |
      ⟨rangeStart, h2, ⟨⟨text, given, left⟩ | ⟨absent, left⟩, rfl⟩ |
        ⟨rangeEnd, h3, ⟨lacking, rfl⟩ | ⟨minutes, given, left, rfl⟩⟩⟩⟩)
    · exact .start left
    · exact .rangeStart h1 given left
    · exact .rangeEnd h1 h2 given left
    · exact .defaultEnd h1 h2 absent left
    · exact .minutes ⟨h1, h2, h3⟩ lacking
    · exact .length ⟨h1, h2, h3⟩ given left
  · intro h
    cases h with
    | start left => exact Or.inl ⟨left, rfl⟩
    | rangeStart h1 given left => exact Or.inr ⟨_, h1, Or.inl ⟨⟨_, given, left⟩, rfl⟩⟩
    | rangeEnd h1 h2 given left =>
      exact Or.inr ⟨_, h1, Or.inr ⟨_, h2, Or.inl ⟨Or.inl ⟨_, given, left⟩, rfl⟩⟩⟩
    | defaultEnd h1 h2 absent left =>
      exact Or.inr ⟨_, h1, Or.inr ⟨_, h2, Or.inl ⟨Or.inr ⟨absent, left⟩, rfl⟩⟩⟩
    | minutes times lacking =>
      exact Or.inr ⟨_, times.first, Or.inr ⟨_, times.second, Or.inr ⟨_, times.third,
        Or.inl ⟨lacking, rfl⟩⟩⟩⟩
    | length times given left =>
      exact Or.inr ⟨_, times.first, Or.inr ⟨_, times.second, Or.inr ⟨_, times.third,
        Or.inr ⟨_, given, left, rfl⟩⟩⟩⟩

end ExpandRequest

/-! ## The commands -/

variable {s : Session} {a : Arguments} {args : List String} {name : String} {command : Command}
  {f : Failure} {r : Report}

/-- Whether loading the environment file changes nothing any more. -/
def IsLoaded (s : Session) : Prop := s.envFile.load s.env = { env := s.env }

/-- Then the limits are those of the environment as it is. -/
theorem IsLoaded.loadLimits (hs : IsLoaded s) : s.loadLimits = (s, .ok s.config.limits) := by
  unfold Session.loadLimits Session.loadConfig Session.loadEnvFile
  rw [show s.envFile.load s.env = { env := s.env } from hs]
  rfl

/-- What is printed by a command that is carried out. -/
structure Report.IsSuccess (r : Report) : Prop where
  code : r.code = 0
  output : r.output ≠ []
  errors : r.errors = []

/-- What is printed about a command that is not. -/
structure Report.IsFailure (r : Report) : Prop where
  code : r.code = 1
  output : r.output = []
  errors : r.errors ≠ []

theorem isSuccess_printed (line : List Char) : (printed line).IsSuccess :=
  ⟨rfl, List.append_ne_nil_of_right_ne_nil line (List.cons_ne_nil _ _), rfl⟩

theorem isFailure_invalidRule (text : String) : (invalidRule text).IsFailure :=
  ⟨rfl, rfl, List.append_ne_nil_of_right_ne_nil _ (List.cons_ne_nil _ _)⟩

/-- Whether a command is carried out: its rule is read and described, or expanded in the range that
is asked for. -/
inductive Command.IsDone [ZoneDatabase] (s : Session) (name : String) : Command → Prop where
  | parse {text : String} {strict : Bool} {rule : Rule}
      (read : s.readRule (some name) (some text) = .ok rule) : IsDone s name (.parse text strict)
  | describe {text : String} {rule : Rule} {phrase : List Char}
      (read : s.readRule (some name) (some text) = .ok rule)
      (described : s.describe rule (some name) = .ok phrase) : IsDone s name (.describe text)
  | expand {r : ExpandRequest} {rule : Rule} {event : Event} {q : Query} {x : Expansion}
      (read : s.readRule (some name) (some r.rule) = .ok rule)
      (asked : r.event rule name (s.floatingZone (some name)) = .ok (event, q))
      (given : r.cap ≠ .blank) (expanded : event.expand s.config.limits q = .ok x) :
      IsDone s name (.expand r)

/-- How a command ends the program: the date of a last moment leaves the calendar, something that is
asked for does, a number is lacking, or the expansion leaves the calendar. -/
inductive Command.EndsIn [ZoneDatabase] (s : Session) (name : String) : Command → Crash → Prop where
  | describe {text : String} {rule : Rule} {m : Moment}
      (read : s.readRule (some name) (some text) = .ok rule) (uncounted : rule.count = none)
      (last : rule.lastMoment = some m)
      (left : m.inZone (s.host.zoneOr s.env (some (s.nameOrDefault (some name))))
        = .error .outOfRange) : EndsIn s name (.describe text) .outOfRange
  | request {r : ExpandRequest} {rule : Rule} {c : Crash}
      (read : s.readRule (some name) (some r.rule) = .ok rule)
      (outside : r.AsksOutside (s.floatingZone (some name)) c) : EndsIn s name (.expand r) c
  | cap {r : ExpandRequest} {rule : Rule} {event : Event} {q : Query}
      (read : s.readRule (some name) (some r.rule) = .ok rule)
      (asked : r.event rule name (s.floatingZone (some name)) = .ok (event, q))
      (lacking : r.cap = .blank) : EndsIn s name (.expand r) .lackingNumber
  | expansion {r : ExpandRequest} {rule : Rule} {event : Event} {q : Query}
      (read : s.readRule (some name) (some r.rule) = .ok rule)
      (asked : r.event rule name (s.floatingZone (some name)) = .ok (event, q))
      (given : r.cap ≠ .blank)
      (left : event.expand s.config.limits q = .error (.calendar .outOfRange)) :
      EndsIn s name (.expand r) .outOfRange

/-- Describing a rule fails if its last moment has no date in the zone. -/
theorem describe_eq_outOfRange_iff {rule : Rule} {z : Zone} :
    rule.describe z = .error .outOfRange ↔
      rule.count = none ∧ ∃ m, rule.lastMoment = some m ∧ m.inZone z = .error .outOfRange := by
  unfold Rule.describe Rule.endPhrase
  cases hcount : rule.count with
  | some n => simp [bind, Except.bind, pure, Except.pure]
  | none =>
    cases hlast : rule.lastMoment with
    | none => simp [bind, Except.bind, pure, Except.pure]
    | some m => cases hm : m.inZone z <;> simp [bind, Except.bind, pure, Except.pure, hm]

/-- A refused rule is reported by `expand`. -/
theorem runExpand_of_refused [ZoneDatabase] {q : ExpandRequest} {err : Rule.ReadError}
    (hread : s.readRule (some name) (some q.rule) = .error err) :
    (runExpand s name q).2 = .error (.ofReadError err) := by
  unfold runExpand
  rw [hread]
  rfl

/-- What is wrong with a request is reported, or ends the program. -/
theorem runExpand_of_error [ZoneDatabase] {q : ExpandRequest} {rule : Rule}
    (hread : s.readRule (some name) (some q.rule) = .ok rule)
    (hasked : q.event rule name (s.floatingZone (some name)) = .error f) :
    (runExpand s name q).2 = .error f := by
  unfold runExpand
  simp only [hread, orFail, hasked, bind, Except.bind]

/-- Otherwise the event is expanded, if the cap is not lacking. -/
theorem runExpand_of_ok [ZoneDatabase] {q : ExpandRequest} {rule : Rule} {event : Event}
    {query : Query} (hs : IsLoaded s) (hread : s.readRule (some name) (some q.rule) = .ok rule)
    (hasked : q.event rule name (s.floatingZone (some name)) = .ok (event, query)) :
    (runExpand s name q).2 = if q.cap = .blank then .error (.crash .lackingNumber)
      else (orFail .ofExpansion (event.expand s.config.limits query)).map
        fun x => printed (JsonValue.document x.toJson) := by
  unfold runExpand
  simp only [hread, orFail, hasked, bind, Except.bind, hs.loadLimits]
  split
  · rfl
  · rfl

/-- **What `expand` comes to**: its rule is refused, its request is, or the event is expanded. -/
theorem runExpand_cases [ZoneDatabase] (hs : IsLoaded s) (q : ExpandRequest) :
    (∃ err, s.readRule (some name) (some q.rule) = .error err ∧
      (runExpand s name q).2 = .error (.ofReadError err)) ∨
    ∃ rule, s.readRule (some name) (some q.rule) = .ok rule ∧
      ((∃ f, q.event rule name (s.floatingZone (some name)) = .error f ∧
        (runExpand s name q).2 = .error f) ∨
      ∃ event query, q.event rule name (s.floatingZone (some name)) = .ok (event, query) ∧
        (runExpand s name q).2 = if q.cap = .blank then .error (.crash .lackingNumber)
          else (orFail .ofExpansion (event.expand s.config.limits query)).map
            fun x => printed (JsonValue.document x.toJson)) := by
  cases hread : s.readRule (some name) (some q.rule) with
  | error err => exact Or.inl ⟨err, rfl, runExpand_of_refused hread⟩
  | ok rule =>
    refine Or.inr ⟨rule, rfl, ?_⟩
    cases hasked : q.event rule name (s.floatingZone (some name)) with
    | error f => exact Or.inl ⟨f, rfl, runExpand_of_error hread hasked⟩
    | ok asked =>
      obtain ⟨event, query⟩ := asked
      exact Or.inr ⟨event, query, rfl, runExpand_of_ok hs hread hasked⟩

/-- **`expand` ends the program in these ways only.** -/
theorem runExpand_eq_crash_iff [ZoneDatabase] (hs : IsLoaded s) {q : ExpandRequest} :
    (runExpand s name q).2 = .error (.crash c) ↔ (Command.expand q).EndsIn s name c := by
  constructor
  · intro h
    rcases runExpand_cases hs q with ⟨err, -, hrun⟩ |
      ⟨rule, hread, ⟨f, hasked, hrun⟩ | ⟨event, query, hasked, hrun⟩⟩
    · cases hrun.symm.trans h
    · cases hrun.symm.trans h
      exact .request hread (ExpandRequest.event_eq_crash_iff.1 hasked)
    · rw [hrun] at h
      split at h
      · next hlacking =>
        cases h
        exact .cap hread hasked hlacking
      · next hgiven =>
        rw [map_eq_error_iff, orFail_ofExpansion_eq_crash_iff] at h
        obtain ⟨hleft, rfl⟩ := h
        exact .expansion hread hasked hgiven hleft
  · intro h
    cases h with
    | request read outside =>
      exact runExpand_of_error read (ExpandRequest.event_eq_crash_iff.2 outside)
    | cap read asked lacking => rw [runExpand_of_ok hs read asked, if_pos lacking]
    | expansion read asked given left =>
      rw [runExpand_of_ok hs read asked, if_neg given, map_eq_error_iff,
        orFail_ofExpansion_eq_crash_iff]
      exact ⟨left, rfl⟩

/-- **A command ends the program in these ways only.** -/
theorem runCommand_eq_crash_iff [ZoneDatabase] (hs : IsLoaded s) :
    (runCommand s name command).2 = .error (.crash c) ↔ command.EndsIn s name c := by
  cases command with
  | expand q => exact runExpand_eq_crash_iff hs
  | parse text strict =>
    refine iff_of_false (fun h => ?_) fun h => by cases h
    simp only [runCommand] at h
    split at h
    · cases h
    · split at h <;> cases h
  | describe text =>
    constructor
    · intro h
      simp only [runCommand] at h
      split at h
      · next rule hread =>
        rw [map_eq_error_iff, orFail_ofCalendar_eq_crash_iff] at h
        obtain ⟨hleft, rfl⟩ := h
        obtain ⟨hcount, m, hlast, hm⟩ := describe_eq_outOfRange_iff.1 hleft
        exact .describe hread hcount hlast hm
      · cases h
    · intro h
      cases h with
      | describe read uncounted last left =>
        simp only [runCommand, read]
        rw [map_eq_error_iff, orFail_ofCalendar_eq_crash_iff]
        exact ⟨describe_eq_outOfRange_iff.2 ⟨uncounted, _, last, left⟩, rfl⟩

/-- **A command that is done prints a line.** -/
theorem Command.IsDone.exists_printed [ZoneDatabase] (hs : IsLoaded s) (h : command.IsDone s name) :
    ∃ line, (runCommand s name command).2 = .ok (printed line) := by
  cases h with
  | parse read =>
    simp only [runCommand, read]
    exact ⟨_, rfl⟩
  | describe read described =>
    simp only [runCommand, read, described]
    exact ⟨_, rfl⟩
  | expand read asked given expanded =>
    rw [runCommand, runExpand_of_ok hs read asked, if_neg given, expanded]
    exact ⟨_, rfl⟩

/-- **What `expand` prints is the expansion that it was asked for.** -/
theorem exists_expansion_of_runExpand [ZoneDatabase] (hs : IsLoaded s) {q : ExpandRequest}
    (h : (runExpand s name q).2 = .ok r) : ∃ rule event query x,
      s.readRule (some name) (some q.rule) = .ok rule ∧
      q.event rule name (s.floatingZone (some name)) = .ok (event, query) ∧ q.cap ≠ .blank ∧
      event.expand s.config.limits query = .ok x ∧ r = printed (JsonValue.document x.toJson) := by
  rcases runExpand_cases hs q with ⟨err, -, hrun⟩ |
    ⟨rule, hread, ⟨f, -, hrun⟩ | ⟨event, query, hasked, hrun⟩⟩
  · cases hrun.symm.trans h
  · cases hrun.symm.trans h
  · rw [hrun] at h
    split at h
    · cases h
    · next hgiven =>
      obtain ⟨x, hx, rfl⟩ := map_eq_ok_iff.1 h
      exact ⟨rule, event, query, x, hread, hasked, hgiven, orFail_eq_ok_iff.1 hx, rfl⟩

/-- So it is done. -/
theorem of_runExpand_eq_ok [ZoneDatabase] (hs : IsLoaded s) {q : ExpandRequest}
    (h : (runExpand s name q).2 = .ok r) :
    (∃ line, r = printed line) ∧ (Command.expand q).IsDone s name := by
  obtain ⟨rule, event, query, x, hread, hasked, hgiven, hx, rfl⟩ :=
    exists_expansion_of_runExpand hs h
  exact ⟨⟨_, rfl⟩, .expand hread hasked hgiven hx⟩

/-- **A command that prints something is done, or has refused its rule.** -/
theorem of_runCommand_eq_ok [ZoneDatabase] (hs : IsLoaded s)
    (h : (runCommand s name command).2 = .ok r) :
    (∃ line, r = printed line) ∧ command.IsDone s name ∨ ∃ text, r = invalidRule text := by
  cases command with
  | expand q => exact Or.inl (of_runExpand_eq_ok hs h)
  | parse text strict =>
    simp only [runCommand] at h
    split at h
    · next rule hread =>
      cases h
      exact Or.inl ⟨⟨_, rfl⟩, .parse hread⟩
    · split at h
      · cases h
      · cases h
        exact Or.inr ⟨text, rfl⟩
  | describe text =>
    simp only [runCommand] at h
    split at h
    · next rule hread =>
      obtain ⟨phrase, hphrase, rfl⟩ := map_eq_ok_iff.1 h
      exact Or.inl ⟨⟨phrase, rfl⟩, .describe hread (orFail_eq_ok_iff.1 hphrase)⟩
    · cases h
      exact Or.inr ⟨text, rfl⟩

/-! ## The command line -/

/-- The session in which the command is carried out: the environment file is loaded, and the log
levels are set. -/
def prepared (s : Session) (a : Arguments) : Session :=
  setLevels s.loadEnvFile.1 (logLevel a s.loadEnvFile.1.config)

/-- The name of the zone in which it is. -/
def settledZone [ZoneDatabase] (s : Session) (a : Arguments) : String :=
  zoneName (prepared s a) a s.loadEnvFile.1.config

/-- How a command line ends that has a result, or a failure. -/
def ending : Except Failure Report → Outcome
  | .ok r => .report r
  | .error f => f.outcome

/-- Whether running the arguments ends the program. -/
inductive Crashes [ZoneDatabase] (s : Session) (a : Arguments) : Crash → Prop where
  | envFile {e : EnvFileError} (refused : EnvFile.IsRefused s.env s.envFile e) :
      Crashes s a (.envFile e)
  | command {c : Crash} (accepted : ∀ e, ¬EnvFile.IsRefused s.env s.envFile e)
      (ends : a.command.EndsIn (prepared s a) (settledZone s a) c) : Crashes s a c

/-- A refused environment file ends the program. -/
theorem run_of_refused [ZoneDatabase] (h : arguments args = .ok a) {e : EnvFileError}
    (he : (s.envFile.load s.env).error = some e) : (run s args).2 = .crash (.envFile e) := by
  simp only [run, h, runArguments, Session.loadConfig, Session.loadEnvFile, EnvFile.Loaded.result,
    he, Except.map]

/-- With an environment file that is accepted, the command is carried out in the prepared
session. -/
theorem run_of_accepted [ZoneDatabase] (h : arguments args = .ok a)
    (he : (s.envFile.load s.env).error = none) :
    (run s args).2 = ending (runCommand (prepared s a) (settledZone s a) a.command).2 := by
  simp only [run, h, runArguments, Session.loadConfig, Session.loadEnvFile, EnvFile.Loaded.result,
    he, Except.map]
  rfl

/-- There the file is loaded. -/
theorem isLoaded_prepared (a : Arguments) (he : (s.envFile.load s.env).error = none) :
    IsLoaded (prepared s a) :=
  EnvFile.load_load he

/-- Only a failure that ends the program ends it. -/
theorem ending_eq_crash_iff {x : Except Failure Report} :
    ending x = .crash c ↔ x = .error (.crash c) := by
  cases x with
  | ok r => simp [ending]
  | error f =>
    cases f with
    | reported words => simp [ending, Failure.outcome]
    | crash c' => simp [ending, Failure.outcome]

/-- **What a command comes to that does not end the program**: it succeeds, or its failure is
reported. -/
theorem exists_report_of_not_crash [ZoneDatabase] (hs : IsLoaded s)
    (hnot : ∀ c, (runCommand s name command).2 ≠ .error (.crash c)) :
    ∃ r, ending (runCommand s name command).2 = .report r ∧
      (r.IsSuccess ∧ command.IsDone s name ∨ r.IsFailure ∧ ¬command.IsDone s name) := by
  cases hresult : (runCommand s name command).2 with
  | ok r =>
    refine ⟨r, rfl, ?_⟩
    rcases of_runCommand_eq_ok hs hresult with ⟨⟨line, rfl⟩, hdone⟩ | ⟨text, rfl⟩
    · exact Or.inl ⟨isSuccess_printed line, hdone⟩
    · refine Or.inr ⟨isFailure_invalidRule text, fun hdone => ?_⟩
      obtain ⟨line, hline⟩ := hdone.exists_printed hs
      cases hresult.symm.trans hline
  | error f =>
    cases f with
    | crash c => exact absurd hresult (hnot c)
    | reported words =>
      refine ⟨_, rfl, Or.inr ⟨⟨rfl, rfl, ?_⟩, fun hdone => ?_⟩⟩
      · exact List.append_ne_nil_of_right_ne_nil _ (List.cons_ne_nil _ _)
      · obtain ⟨line, hline⟩ := hdone.exists_printed hs
        cases hresult.symm.trans hline

/--
**How a command line ends.** The program ends without an exit code exactly in the ways that
`Crashes` names: the environment file is refused, a time leaves the calendar, or a number is
lacking. Otherwise it ends with a report, whose code is 0 if the command is done and 1 if it is not.
-/
theorem run_ends [ZoneDatabase] (h : arguments args = .ok a) :
    (∀ c, (run s args).2 = .crash c ↔ Crashes s a c) ∧
    ((∀ c, ¬Crashes s a c) → ∃ r, (run s args).2 = .report r ∧
      (r.IsSuccess ∧ a.command.IsDone (prepared s a) (settledZone s a) ∨
        r.IsFailure ∧ ¬a.command.IsDone (prepared s a) (settledZone s a))) := by
  cases he : (s.envFile.load s.env).error with
  | some e =>
    have hrefused := EnvFile.error_load_iff.1 he
    rw [run_of_refused h he]
    constructor
    · intro c
      constructor
      · intro hc
        cases hc
        exact .envFile hrefused
      · rintro (hrefused' | ⟨haccepted, -⟩)
        · cases he.symm.trans (EnvFile.error_load_iff.2 hrefused')
          rfl
        · exact absurd hrefused (haccepted e)
    · intro hnot
      exact absurd (.envFile hrefused) (hnot (.envFile e))
  | none =>
    have hloaded := isLoaded_prepared a he
    have haccepted : ∀ e, ¬EnvFile.IsRefused s.env s.envFile e := by
      intro e hrefused
      cases he.symm.trans (EnvFile.error_load_iff.2 hrefused)
    have hcrashes : ∀ c, (runCommand (prepared s a) (settledZone s a) a.command).2
        = .error (.crash c) ↔ Crashes s a c := by
      intro c
      rw [runCommand_eq_crash_iff hloaded]
      constructor
      · exact .command haccepted
      · rintro (hrefused | ⟨-, hends⟩)
        · exact absurd hrefused (haccepted _)
        · exact hends
    rw [run_of_accepted h he]
    constructor
    · intro c
      rw [ending_eq_crash_iff, hcrashes]
    · intro hnot
      exact exists_report_of_not_crash hloaded fun c hc => hnot c ((hcrashes c).1 hc)

/-! ## An example -/

/-- A morning that lasts for almost two hundred thousand years. -/
def longMorning : List String :=
  ["--timezone", "UTC", "expand", "FREQ=DAILY;COUNT=1", "--start", "2024-01-01T09:00:00Z",
    "--duration", "99999999999"]

/-- Its end leaves the calendar, and the program ends without an exit code. -/
theorem longMorning_crashes : (∃ a, arguments longMorning = .ok a) ∧
    (run {} longMorning).2 = .crash .outOfRange := by
  obtain ⟨a, ha, -⟩ : ∃ a, arguments longMorning = .ok a ∧ a.zone = some "UTC" :=
    exists_ok_of_any (by decide +kernel)
  exact ⟨⟨a, ha⟩, by decide +kernel⟩

/-- A morning in a range that ends before it begins. -/
def lateMorning : List String :=
  ["--timezone", "UTC", "expand", "FREQ=DAILY;COUNT=1", "--start", "2024-01-01T09:00:00Z",
    "--end", "2023-12-31"]

/-- What is wrong with the range is reported, and the command is not done. Describing a rule is. -/
theorem lateMorning_reported :
    (∃ a, arguments lateMorning = .ok a ∧ (run {} lateMorning).2 = .report {
        code := 1
        errors := ("Error: Range end 2023-12-31T00:00:00+00:00 is before start " ++
          "2024-01-01T09:00:00+00:00\n").toList } ∧
      ¬a.command.IsDone (prepared {} a) (settledZone {} a)) ∧
    ∃ a, arguments ["describe", "FREQ=DAILY"] = .ok a ∧
      (run {} ["describe", "FREQ=DAILY"]).2 = .report { output := "Daily\n".toList } ∧
      a.command.IsDone (prepared {} a) (settledZone {} a) := by
  constructor
  · obtain ⟨a, ha, -⟩ : ∃ a, arguments lateMorning = .ok a ∧ a.zone = some "UTC" :=
      exists_ok_of_any (by decide +kernel)
    have hrun : (run {} lateMorning).2 = .report {
        code := 1
        errors := ("Error: Range end 2023-12-31T00:00:00+00:00 is before start " ++
          "2024-01-01T09:00:00+00:00\n").toList } := by decide +kernel
    obtain ⟨hcrash, hends⟩ := run_ends (s := {}) ha
    obtain ⟨r, hr, ⟨hsuccess, -⟩ | ⟨-, hnot⟩⟩ := hends fun c hc => by
      cases hrun.symm.trans ((hcrash c).2 hc)
    · cases hrun.symm.trans hr
      cases hsuccess.code
    · exact ⟨a, ha, hrun, hnot⟩
  · obtain ⟨a, ha, -⟩ : ∃ a, arguments ["describe", "FREQ=DAILY"] = .ok a ∧ a.zone = none :=
      exists_ok_of_any (by decide +kernel)
    have hrun : (run {} ["describe", "FREQ=DAILY"]).2 = .report { output := "Daily\n".toList } := by
      decide +kernel
    obtain ⟨hcrash, hends⟩ := run_ends (s := {}) ha
    obtain ⟨r, hr, ⟨-, hdone⟩ | ⟨hfailure, -⟩⟩ := hends fun c hc => by
      cases hrun.symm.trans ((hcrash c).2 hc)
    · exact ⟨a, ha, hrun, hdone⟩
    · cases hrun.symm.trans hr
      cases hfailure.code

end CommandLine

end RecurringEvents
