import RecurringEvents.Proofs.Settings.Refusal
import RecurringEvents.Proofs.Text.Numbers

/-!
# Where limits come from

A limit is what its variable says. A variable that is not set says what the first line of the
environment file for it says. Only a positive number counts; in place of any other text, and where
nothing is said, there is the default.

* `TellsLimit`: what one text says.
* `LimitFrom`: what the variables and the file say together.
* `EnvFile.Loads.limitFrom_iff`: it is what is read after the file has been loaded.
* `Session.limits_from_settings`: all limits of a session.
-/

namespace RecurringEvents

open EnvFile Text

variable {env : Environment} {lines : List (List Char)} {l : Loaded} {name text : String}
  {standard n : Int}

/-! ## One text -/

/-- What a text says of a limit: a positive number, or else nothing, so that the default stands. -/
inductive TellsLimit (standard : Int) (text : String) : Int → Prop where
  | number {n : Int} (reads : LooseNumeral text.toList n) (pos : 1 ≤ n) : TellsLimit standard text n
  | unusable (refused : ∀ n, LooseNumeral text.toList n → n < 1) :
      TellsLimit standard text standard

/-- The number of a text, if it is a positive one. -/
def positive? (text : String) : Option Int := (looseInteger? text.toList).filter (1 ≤ ·)

theorem positive?_eq_some_iff : positive? text = some n ↔ LooseNumeral text.toList n ∧ 1 ≤ n := by
  rw [positive?, Option.filter_eq_some_iff, looseInteger?_eq_some_iff, decide_eq_true_eq]

/-- A text says its positive number or the default. -/
theorem tellsLimit_iff : TellsLimit standard text n ↔ n = (positive? text).getD standard := by
  constructor
  · intro h
    cases h with
    | number reads pos => rw [positive?_eq_some_iff.2 ⟨reads, pos⟩, Option.getD_some]
    | unusable refused =>
      cases hread : positive? text with
      | none => rfl
      | some m =>
        obtain ⟨hreads, hpos⟩ := positive?_eq_some_iff.1 hread
        have := refused m hreads
        omega
  · rintro rfl
    cases hread : positive? text with
    | none =>
      refine .unusable fun m hreads => Int.not_le.1 fun hpos => ?_
      rw [positive?_eq_some_iff.2 ⟨hreads, hpos⟩] at hread
      cases hread
    | some m =>
      obtain ⟨hreads, hpos⟩ := positive?_eq_some_iff.1 hread
      exact .number hreads hpos

/-! ## Variables and lines -/

/-- What variables and the lines of a file say of a limit: what the variable says if it is set, be
it to the empty text; else what the first line for it says; else nothing. -/
inductive LimitFrom (env : Environment) (lines : List (List Char)) (name : String)
    (standard : Int) : Int → Prop where
  | ofVariable {text : String} {n : Int} (set : env.get? name = some text)
      (tells : TellsLimit standard text n) : LimitFrom env lines name standard n
  | ofLine {i : Nat} {value : String} {n : Int} (free : env.isSet name = false)
      (first : IsFirst lines i name value) (tells : TellsLimit standard value n) :
      LimitFrom env lines name standard n
  | ofNothing (free : env.isSet name = false)
      (unassigned : ∀ i value, ¬IsFirst lines i name value) :
      LimitFrom env lines name standard standard

/-- Without a file it is what the variable says. -/
theorem getD_limit? (env : Environment) (name : String) (standard : Int) :
    (Config.limit? env name).getD standard
      = ((env.get? name).map fun text => (positive? text).getD standard).getD standard := by
  rw [Config.limit?, Environment.getText]
  cases env.get? name with
  | none => rfl
  | some text => rfl

/-- **What the variables and the file say is what is read when the file has been loaded.** -/
theorem EnvFile.Loads.limitFrom_iff (h : Loads env lines l) :
    LimitFrom env lines name standard n ↔ n = (Config.limit? l.env name).getD standard := by
  rw [getD_limit?]
  cases hset : env.isSet name with
  | true =>
    -- a variable that was set has kept its value
    obtain ⟨text, htext⟩ := Option.isSome_iff_exists.1 hset
    rw [h.kept name hset, htext, Option.map_some, Option.getD_some, ← tellsLimit_iff]
    constructor
    · intro hfrom
      cases hfrom with
      | ofVariable set tells =>
        rw [htext] at set
        cases set
        exact tells
      | ofLine free _ _ => rw [hset] at free; cases free
      | ofNothing free _ => rw [hset] at free; cases free
    · exact .ofVariable htext
  | false =>
    have hassigned := h.assigned name hset
    cases hget : l.env.get? name with
    | some value =>
      -- it has been given the value of the first line for it
      obtain ⟨i, hfirst⟩ := (hassigned value).1 hget
      rw [Option.map_some, Option.getD_some, ← tellsLimit_iff]
      constructor
      · intro hfrom
        cases hfrom with
        | ofVariable set _ => rw [Environment.isSet, set] at hset; cases hset
        | ofLine _ first tells =>
          rw [(hassigned _).2 ⟨_, first⟩] at hget
          cases hget
          exact tells
        | ofNothing _ unassigned => exact absurd hfirst (unassigned i value)
      · exact .ofLine hset hfirst
    | none =>
      have hnone : ∀ i value, ¬IsFirst lines i name value := by
        intro i value hfirst
        rw [(hassigned value).2 ⟨i, hfirst⟩] at hget
        cases hget
      rw [Option.map_none, Option.getD_none]
      constructor
      · intro hfrom
        cases hfrom with
        | ofVariable set _ => rw [Environment.isSet, set] at hset; cases hset
        | ofLine _ first _ => exact absurd first (hnone _ _)
        | ofNothing _ _ => rfl
      · rintro rfl
        exact .ofNothing hset hnone

/-! ## All limits -/

/-- The limits of an expansion. -/
inductive LimitKey where
  | maxInstances
  | maxIterations
  | maxEmptyPeriods
  deriving Repr, DecidableEq

namespace LimitKey

/-- The variable of a limit. -/
def variableName : LimitKey → String
  | maxInstances => "RECURRENCE_MAX_INSTANCES"
  | maxIterations => "RECURRENCE_MAX_ITERATIONS"
  | maxEmptyPeriods => "RECURRENCE_MAX_EMPTY_PERIODS"

/-- The value of a limit. -/
def get (limits : Limits) : LimitKey → Int
  | maxInstances => limits.maxInstances
  | maxIterations => limits.maxIterations
  | maxEmptyPeriods => limits.maxEmptyPeriods

theorem get_limits (env : Environment) (key : LimitKey) :
    key.get (Config.ofEnvironment env).limits
      = (Config.limit? env key.variableName).getD (key.get .standard) := by
  cases key <;> simp only [get, variableName, Config.limits, Config.ofEnvironment]

theorem one_le_get_limits (env : Environment) (key : LimitKey) :
    1 ≤ key.get (Config.ofEnvironment env).limits := by
  obtain ⟨hinstances, hiterations, hperiods⟩ := Config.one_le_limits env
  cases key with
  | maxInstances => exact hinstances
  | maxIterations => exact hiterations
  | maxEmptyPeriods => exact hperiods

end LimitKey

/-- Lines without NUL characters are all loaded. -/
theorem EnvFile.Ends.loads (h : Ends env lines l) (hnul : ∀ line ∈ lines, '\x00' ∉ line) :
    Loads env lines l ∧ l.error = none := by
  rcases h with ⟨hloads, herror⟩ | ⟨hparts, -, hassigns, -, hchar, -⟩
  · exact ⟨hloads, herror⟩
  · have hmem := hparts ▸ List.mem_append_right _ List.mem_cons_self
    exact absurd (hassigns.mem_line hchar) (hnul _ hmem)

namespace Session

/-- The limits are those of the environment after the file has been loaded. -/
theorem loadLimits_of_load {s : Session} (h : (s.envFile.load s.env).error = none) :
    s.loadLimits.2 = .ok (Config.ofEnvironment (s.envFile.load s.env).env).limits := by
  have hnames : s.loadEnvFile.2 = .ok (s.envFile.load s.env).names :=
    Loaded.result_eq_ok_iff.2 ⟨h, rfl⟩
  exact map_eq_ok_iff.2 ⟨_, map_eq_ok_iff.2 ⟨_, hnames, rfl⟩, rfl⟩

/-- **The limits of a session.** With a file of text without NUL characters, there is a limit of
each kind. It is positive, and it is what the variables and the first lines for them say. -/
theorem limits_from_settings {s : Session} {bytes : ByteArray} (hfile : s.envFile = .content bytes)
    (htext : String.fromUTF8? bytes = some text) (hnul : '\x00' ∉ text.toList) :
    ∃ limits, s.loadLimits.2 = .ok limits ∧ ∀ key : LimitKey, 1 ≤ key.get limits ∧
      ∀ n, LimitFrom s.env (linesOf text) key.variableName (key.get .standard) n ↔
        n = key.get limits := by
  obtain ⟨hloads, herror⟩ : Loads s.env (linesOf text) (s.envFile.load s.env) ∧
      (s.envFile.load s.env).error = none := by
    rw [hfile]
    -- the characters of the lines are those of the text
    exact (ends_load s.env htext).loads fun line hline hchar =>
      hnul (mem_of_mem_splitAny hline hchar)
  refine ⟨_, loadLimits_of_load herror, fun key => ⟨key.one_le_get_limits _, fun n => ?_⟩⟩
  rw [hloads.limitFrom_iff, key.get_limits]

/-- A limit whose variable is not positive, and another one as a grouped number in quotes. -/
def settingsText : String :=
  "RECURRENCE_MAX_INSTANCES=7\nexport RECURRENCE_MAX_ITERATIONS=\" +1_000 \"\n"

/-- A session with these lines in its file, and with a variable that is set to 0. -/
def zeroInstances : Session where
  env := ⟨[("RECURRENCE_MAX_INSTANCES", "0")]⟩
  envFile := .content settingsText.toUTF8

theorem zeroInstances_limits :
    (zeroInstances.envFile = .content settingsText.toUTF8 ∧
      String.fromUTF8? settingsText.toUTF8 = some settingsText ∧ '\x00' ∉ settingsText.toList) ∧
    ∃ limits, zeroInstances.loadLimits.2 = .ok limits ∧ limits = ⟨366, 1000, 120⟩ ∧
      ∀ key : LimitKey, 1 ≤ key.get limits ∧
        ∀ n, LimitFrom zeroInstances.env (linesOf settingsText) key.variableName
          (key.get .standard) n ↔ n = key.get limits := by
  have htext := fromUTF8?_toUTF8 settingsText
  have hnul : '\x00' ∉ settingsText.toList := by decide +kernel
  obtain ⟨limits, hlimits, hkeys⟩ := limits_from_settings (s := zeroInstances) rfl htext hnul
  refine ⟨⟨rfl, htext, hnul⟩, limits, hlimits, ?_, hkeys⟩
  have hload : (zeroInstances.envFile.load zeroInstances.env).error = none ∧
      (Config.ofEnvironment (zeroInstances.envFile.load zeroInstances.env).env).limits
        = ⟨366, 1000, 120⟩ := by
    rw [zeroInstances, load_of_fromUTF8? htext]
    decide +kernel
  rw [loadLimits_of_load hload.1, hload.2] at hlimits
  exact (Except.ok.inj hlimits).symm

end Session

end RecurringEvents
