import RecurringEvents.Proofs.CommandLine.Arguments
import RecurringEvents.Proofs.CommandLine.Run
import RecurringEvents.Proofs.Expansion.Inherited
import RecurringEvents.Proofs.Zone.Names

/-!
# How long printed occurrences last

The command `expand` asks for a length in minutes. The end of the event is that many minutes after
its start on the wall, while its occurrences last as long as the event in elapsed time. So every
occurrence that is printed lasts for the minutes that were asked for, less what the clock is set
forward by between the start of the series and its end on the wall.

* `ExpandRequest.Spans`: the start and the end of the event.
* `ExpandRequest.Spans.elapsed`: the time between them.
* `lengths_of_run`: the occurrences that are printed.
-/

namespace RecurringEvents

namespace Moment

variable {m n : Moment} {k : Int}

/-- A moment that is moved on the wall stays in its zone. -/
theorem of_add_eq_ok (h : m.add k = .ok n) : n.zone = m.zone ∧ n.wall.count = m.wall.count + k := by
  unfold add at h
  split at h
  · next w hw =>
    cases h
    exact ⟨rfl, (Wall.count_of_ofCount? hw).1⟩
  · cases h

/-- The time that elapses while a moment is moved on the wall is less by what the clock is set
forward by. -/
theorem elapsed_of_add (h : m.add k = .ok n) :
    n.instant - m.instant = k - (n.offset - m.offset) * secondMicros := by
  have hcount := (of_add_eq_ok h).2
  unfold instant
  rw [hcount, Int.sub_mul]
  omega

end Moment

namespace CommandLine

variable {s : Session} {a : Arguments} {args : List String} {q : ExpandRequest} {r : Report}
  {zone : Zone} {rule : Rule} {name : String} {event : Event} {query : Query}
  {start finish : Moment}
  {minutes : Int}

/-- The start and the end of the event that is asked for, which are `minutes` apart on the wall. -/
structure ExpandRequest.Spans (q : ExpandRequest) (zone : Zone) (start finish : Moment)
    (minutes : Int) : Prop where
  first : instantOf (q.start.getD "") zone = .ok start
  asked : q.minutes = some minutes
  moved : start.add (minutes * 60 * secondMicros) = .ok finish

/-- The time that elapses between them. -/
theorem ExpandRequest.Spans.elapsed (h : q.Spans zone start finish minutes) :
    finish.instant - start.instant
      = (minutes * 60 - (finish.offset - start.offset)) * secondMicros := by
  rw [Moment.elapsed_of_add h.moved, ← Int.sub_mul]

/-- An event that is asked for has the start and the end that are asked for. -/
theorem ExpandRequest.exists_spans (h : q.event rule name zone = .ok (event, query)) :
    ∃ minutes, q.Spans zone event.start event.finish minutes ∧ event.timeZone = name := by
  obtain ⟨start, hstart, h⟩ := bind_eq_ok_iff.1 h
  obtain ⟨rangeStart, -, h⟩ := bind_eq_ok_iff.1 h
  obtain ⟨rangeEnd, -, h⟩ := bind_eq_ok_iff.1 h
  obtain ⟨minutes, hminutes, h⟩ := bind_eq_ok_iff.1 h
  obtain ⟨finish, hfinish, h⟩ := bind_eq_ok_iff.1 h
  obtain ⟨title, -, h⟩ := bind_eq_ok_iff.1 h
  obtain ⟨event, hevent, h⟩ := bind_eq_ok_iff.1 h
  cases h
  have hspans : q.Spans zone start finish minutes :=
    ⟨orFail_eq_ok_iff.1 hstart, need_eq_ok_iff.1 hminutes, orFail_eq_ok_iff.1 hfinish⟩
  have hcheck := orFail_eq_ok_iff.1 hevent
  unfold Event.check at hcheck
  simp only at hcheck
  split at hcheck
  · cases hcheck
    exact ⟨minutes, hspans, rfl⟩
  · cases hcheck

/-- The name of the zone in which a command is carried out names a region. -/
theorem exists_resolve?_settledZone [ZoneDatabase] (s : Session) (a : Arguments) :
    ∃ r, ZoneName.resolve? (settledZone s a) = some r := by
  refine ZoneName.exists_resolveIn_of_known ZoneDatabase.isComplete ?_
  unfold settledZone zoneName
  cases hname : a.zone.bind ZoneName.canonical? with
  | none => exact Host.isSome_defaultZoneNameIn ZoneDatabase.isComplete.utc _ _ _
  | some c =>
    obtain ⟨text, -, hc⟩ := Option.bind_eq_some_iff.1 hname
    exact ZoneName.isSome_of_canonicalIn? hc

/-- Only a command that is carried out ends with the code 0. -/
theorem eq_ok_of_ending {x : Except Failure Report} (h : ending x = .report r)
    (hcode : r.code = 0) : x = .ok r := by
  cases x with
  | ok r' =>
    cases h
    rfl
  | error f =>
    cases f with
    | reported words =>
      cases h
      cases hcode
    | crash c => cases h

/-- What `expand` prints when it ends with the code 0. -/
theorem exists_expansion_of_run [ZoneDatabase] (h : arguments args = .ok a)
    (hcommand : a.command = .expand q)
    (hrun : (run s args).2 = .report r) (hcode : r.code = 0) : ∃ rule event query x,
      q.event rule (settledZone s a) ((prepared s a).floatingZone (some (settledZone s a)))
        = .ok (event, query) ∧
      event.expand (prepared s a).config.limits query = .ok x ∧
      r = printed (JsonValue.document x.toJson) := by
  cases he : (s.envFile.load s.env).error with
  | some e =>
    rw [run_of_refused h he] at hrun
    cases hrun
  | none =>
    rw [run_of_accepted h he, hcommand] at hrun
    obtain ⟨rule, event, query, x, -, hasked, -, hx, hr⟩ :=
      exists_expansion_of_runExpand (isLoaded_prepared a he) (eq_ok_of_ending hrun hcode)
    exact ⟨rule, event, query, x, hasked, hx, hr⟩

/-- **Every occurrence that is printed lasts for the minutes that are asked for, less what the clock
is set forward by from the start of the series to its end on the wall.** So if any is printed, they
last exactly as long as asked for if the offset at the start is that at the end. The minutes are
those of `--duration`, and an hour if the option is not given. -/
theorem lengths_of_run [ZoneDatabase] (h : arguments args = .ok a)
    (hcommand : a.command = .expand q) (hrun : (run s args).2 = .report r) (hcode : r.code = 0) :
    ∃ start finish minutes, ∃ x : Expansion,
      q.Spans ((prepared s a).floatingZone (some (settledZone s a))) start finish minutes ∧
      r = printed (JsonValue.document x.toJson) ∧
      (∀ o ∈ x.occurrences, o.finish.instant - o.start.instant
        = (minutes * 60 - (finish.offset - start.offset)) * secondMicros) ∧
      ((∀ o ∈ x.occurrences, o.finish.instant = o.start.instant + minutes * 60 * secondMicros) ↔
        x.occurrences = [] ∨ finish.offset = start.offset) ∧
      (∃ rest t, rest <:+ args ∧ takeCommand expandSpec rest = .ok (q.rule, t) ∧
        (t.number "--duration").valueOr? 60 = some minutes) ∧
      ((∀ w ∈ args, ¬"--d".toList <+: w.toList) → minutes = 60) := by
  obtain ⟨rule, event, query, x, hasked, hx, hr⟩ := exists_expansion_of_run h hcommand hrun hcode
  obtain ⟨minutes, hspans, hzone⟩ := ExpandRequest.exists_spans hasked
  obtain ⟨region, hregion⟩ := exists_resolve?_settledZone s a
  have hknown := Event.isOrderly_of_resolve? (hzone ▸ hregion)
  have helapsed : ∀ o ∈ x.occurrences, o.finish.instant - o.start.instant
      = (minutes * 60 - (event.finish.offset - event.start.offset)) * secondMicros := by
    intro o ho
    have hmakes := Event.HasOccurrence.makes (.expanded hx ho)
    rw [(Event.isOf_of_occurrenceAt hknown hmakes.made hmakes.at_start).elapsed, hspans.elapsed]
  obtain ⟨rest, t, hrest, htaken, hminutes⟩ := exists_taken_of_arguments h hcommand
  refine ⟨event.start, event.finish, minutes, x, hspans, hr, helapsed, ⟨fun hall => ?_, ?_⟩,
    ⟨rest, t, hrest, htaken, hminutes.symm.trans hspans.asked⟩, fun hno => ?_⟩
  · cases hos : x.occurrences with
    | nil => exact Or.inl rfl
    | cons o os =>
      have ho : o ∈ x.occurrences := hos ▸ List.mem_cons_self
      have h1 := helapsed o ho
      have h2 := hall o ho
      simp only [secondMicros] at h1 h2
      exact Or.inr (by omega)
  · intro hcases o ho
    have h1 := helapsed o ho
    rcases hcases with hnone | hsame
    · rw [hnone] at ho
      cases ho
    · rw [hsame] at h1
      simp only [secondMicros] at h1 ⊢
      omega
  · have hdefault := minutes_of_arguments h hcommand hno
    rw [hspans.asked] at hdefault
    exact Option.some.inj hdefault

/-! ## An example -/

/-- Two nights of three hours in London. The clock is set forward during the first. -/
def springNights : List String :=
  ["--timezone", "Europe/London", "expand", "FREQ=DAILY;COUNT=2", "--start", "2024-03-30T23:30",
    "--duration", "180"]

/-- What is asked for. -/
def springRequest : ExpandRequest where
  rule := "FREQ=DAILY;COUNT=2"
  start := some "2024-03-30T23:30"
  minutes := some 180

/-- The arguments that ask for it. -/
def springArguments : Arguments where
  zone := some "Europe/London"
  command := .expand springRequest

theorem arguments_springNights : arguments springNights = .ok springArguments := by
  obtain ⟨a, ha, rfl⟩ : ∃ a, arguments springNights = .ok a ∧ a = springArguments :=
    exists_ok_of_any (by decide +kernel)
  exact ha

/-- What is printed for the two nights: both of them last for two hours. -/
theorem springNights_printed : ∃ x : Expansion,
    (run {} springNights).2 = .report (printed (JsonValue.document x.toJson)) ∧
    x.occurrences.map (fun o => (o.start.epochMillis, o.finish.instant - o.start.instant))
      = [(1711841400000, 7200000000), (1711924200000, 7200000000)] := by
  have hloaded : IsLoaded (prepared {} springArguments) := isLoaded_prepared springArguments rfl
  have hname : settledZone {} springArguments = "Europe/London" := by decide +kernel
  obtain ⟨rule, hread, rfl⟩ : ∃ rule, (prepared {} springArguments).readRule (some "Europe/London")
      (some springRequest.rule) = .ok rule ∧ rule = .daily 2 :=
    exists_ok_of_any (by decide +kernel)
  obtain ⟨⟨event, query⟩, hasked, hexpand⟩ : ∃ p, springRequest.event (.daily 2) "Europe/London"
      ((prepared {} springArguments).floatingZone (some "Europe/London")) = .ok p ∧
      ((p.1.expand (prepared {} springArguments).config.limits p.2).toOption.any fun x =>
        x.occurrences.map (fun o => (o.start.epochMillis, o.finish.instant - o.start.instant))
          = [(1711841400000, 7200000000), (1711924200000, 7200000000)]) = true :=
    exists_ok_of_any (by decide +kernel)
  obtain ⟨x, hx, htimes⟩ := exists_ok_of_any hexpand
  refine ⟨x, ?_, htimes⟩
  rw [run_of_accepted arguments_springNights rfl, hname]
  show ending (runExpand (prepared {} springArguments) "Europe/London" springRequest).2 = _
  rw [runExpand_of_ok hloaded hread hasked, if_neg (by decide), hx]
  rfl

/-- Three hours were asked for, and neither of the nights lasts as long. -/
theorem springNights_shorter : ∃ x : Expansion,
    (∃ a, arguments springNights = .ok a ∧ a.command = .expand springRequest) ∧
    springRequest.minutes = some 180 ∧
    (run {} springNights).2 = .report (printed (JsonValue.document x.toJson)) ∧
    x.occurrences ≠ [] ∧
    ∀ o ∈ x.occurrences, o.finish.instant ≠ o.start.instant + 180 * 60 * secondMicros := by
  obtain ⟨x, hrun, htimes⟩ := springNights_printed
  refine ⟨x, ⟨_, arguments_springNights, rfl⟩, rfl, hrun, fun hnone => ?_, fun o ho hlength => ?_⟩
  · rw [hnone] at htimes
    cases htimes
  · have hmem := List.mem_map_of_mem
      (f := fun o : Occurrence => (o.start.epochMillis, o.finish.instant - o.start.instant)) ho
    rw [htimes] at hmem
    simp only [List.mem_cons, Prod.mk.injEq, List.not_mem_nil, or_false,
      secondMicros] at hmem hlength
    omega

/-- The nights last for three hours less the one that the clock is set forward by. -/
theorem springNights_lengths : ∃ r start finish minutes, ∃ x : Expansion,
    arguments springNights = .ok springArguments ∧ springArguments.command = .expand springRequest ∧
    (run {} springNights).2 = .report r ∧ r.code = 0 ∧
    springRequest.Spans ((prepared {} springArguments).floatingZone
      (some (settledZone {} springArguments))) start finish minutes ∧
    r = printed (JsonValue.document x.toJson) ∧
    ∀ o ∈ x.occurrences, o.finish.instant - o.start.instant
      = (minutes * 60 - (finish.offset - start.offset)) * secondMicros := by
  obtain ⟨x, hrun, -⟩ := springNights_printed
  obtain ⟨start, finish, minutes, y, hspans, hprinted, helapsed, -⟩ :=
    lengths_of_run arguments_springNights rfl hrun rfl
  exact ⟨_, start, finish, minutes, y, arguments_springNights, rfl, hrun, rfl, hspans, hprinted,
    helapsed⟩

end CommandLine

end RecurringEvents
