import RecurringEvents.Proofs.Outcome
import RecurringEvents.Proofs.Settings.Loading
import RecurringEvents.Session

/-!
# When loading fails

A file that is not there or that is a directory gives nothing. A file whose bytes are no text
changes nothing either, but loading it fails. So does loading a text in which the first assignment
to a variable holds a NUL character, and then the lines before it have been loaded.

* `EnvFile.text?`: the text of a file, if there is one to be read.
* `EnvFile.load_of_unread`: a file without one.
* `Session.loading_returns_iff`: when loading, and reading the settings after it, gives a result.
-/

namespace RecurringEvents

namespace EnvFile

variable {f : EnvFile} {env : Environment} {text : String}

/-- The text of a file, if there is one that can be read. -/
def text? : EnvFile → Option String
  | absent | unreadable => none
  | content bytes => String.fromUTF8? bytes

/-- A file without a text changes nothing, and only one with bytes is refused. -/
theorem load_of_unread (env : Environment) (h : f.text? = none) :
    (f.load env).env = env ∧ (f.load env).names = [] ∧
      ((f.load env).error = none ↔ ∀ bytes, f ≠ content bytes) := by
  cases f with
  | absent => exact ⟨rfl, rfl, iff_of_true rfl fun _ => EnvFile.noConfusion⟩
  | unreadable => exact ⟨rfl, rfl, iff_of_true rfl fun _ => EnvFile.noConfusion⟩
  | content bytes =>
    rw [load_of_invalid h]
    exact ⟨rfl, rfl, iff_of_false (Option.some_ne_none _) fun hno => hno bytes rfl⟩

theorem ends_of_text? (env : Environment) (h : f.text? = some text) :
    Ends env (linesOf text) (f.load env) := by
  cases f with
  | absent => cases h
  | unreadable => cases h
  | content bytes => exact ends_load env h

/-- Loading gives names unless the file is refused. -/
theorem exists_result_eq_ok_iff :
    (∃ names, (f.load env).result = .ok names) ↔ ∀ e, ¬IsRefused env f e := by
  simp only [Loaded.result_eq_ok_iff, exists_and_left, exists_eq', and_true, ← error_load_iff]
  exact Option.eq_none_iff_forall_ne_some

end EnvFile

namespace Session

open EnvFile

/-- The limits are made of what loading gives. -/
theorem exists_loadLimits_iff (s : Session) :
    (∃ limits, s.loadLimits.2 = .ok limits) ↔ ∃ names, s.loadEnvFile.2 = .ok names := by
  constructor
  · rintro ⟨limits, hlimits⟩
    obtain ⟨config, hconfig, -⟩ := map_eq_ok_iff.1 hlimits
    obtain ⟨names, hnames, -⟩ := map_eq_ok_iff.1 hconfig
    exact ⟨names, hnames⟩
  · rintro ⟨names, hnames⟩
    exact ⟨_, map_eq_ok_iff.2 ⟨_, map_eq_ok_iff.2 ⟨names, hnames, rfl⟩, rfl⟩⟩

/-- **Loading the environment file gives names, and reading the settings after it gives limits,
unless the file is refused.** A file that cannot be read changes nothing; it gives no names if there
is none or it is a directory, and is refused if its bytes are no text. Of a text, all lines are
loaded or those before the first one that would set a variable and holds a NUL character. -/
theorem loading_returns_iff (s : Session) :
    ((∃ names, s.loadEnvFile.2 = .ok names) ↔ ∀ e, ¬IsRefused s.env s.envFile e) ∧
    ((∃ limits, s.loadLimits.2 = .ok limits) ↔ ∀ e, ¬IsRefused s.env s.envFile e) ∧
    (s.envFile.text? = none → s.loadEnvFile.1 = s ∧
      (s.loadEnvFile.2 = .ok [] ↔ ∀ bytes, s.envFile ≠ .content bytes)) ∧
    ∀ text, s.envFile.text? = some text → Ends s.env (linesOf text) (s.envFile.load s.env) := by
  have hnames : (∃ names, s.loadEnvFile.2 = .ok names) ↔ ∀ e, ¬IsRefused s.env s.envFile e :=
    exists_result_eq_ok_iff
  refine ⟨hnames, (exists_loadLimits_iff s).trans hnames, fun hunread => ?_,
    fun _ => ends_of_text? s.env⟩
  obtain ⟨henv, hnone, herror⟩ := load_of_unread s.env hunread
  constructor
  · rw [loadEnvFile, henv]
  · rw [loadEnvFile, Loaded.result_eq_ok_iff, hnone, and_iff_left rfl, herror]

/-- A file of one byte that is no text is refused. -/
theorem strayByte_refused : (EnvFile.content ⟨#[0xff]⟩).text? = none ∧
    ({ envFile := .content ⟨#[0xff]⟩ } : Session).loadEnvFile.2 = .error .notUtf8 := by
  decide

end Session

end RecurringEvents
