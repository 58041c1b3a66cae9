import RecurringEvents.Settings.Environment
import RecurringEvents.Text.Blank
import RecurringEvents.Text.Split

/-!
# Environment files

A file of lines `NAME=value` that gives values to variables that are not set. White space around
names and values, a leading `export`, and quotes around values do not count. Blank lines, lines that
begin with `#` and lines without `=` are skipped. Of several lines for one variable the first one
counts, since the variable is set from then on.

A file that is not there or cannot be read gives nothing. A file that is no UTF-8 is refused as a
whole; a NUL character in a name or value is refused when its line is reached, and what was set
before remains set.
-/

namespace RecurringEvents

/-- The environment file as it is found. -/
inductive EnvFile where
  | absent
  /-- There is something of that name that cannot be read, such as a directory. -/
  | unreadable
  | content (bytes : ByteArray)

/-- Why an environment file is refused. -/
inductive EnvFileError where
  | notUtf8
  | nulCharacter
  deriving Repr, DecidableEq

namespace EnvFile

open Text

/-- Whether a character ends a line. -/
def isLineBreak (c : Char) : Bool :=
  let n := c.toNat
  (0xa ≤ n && n ≤ 0xd) || (0x1c ≤ n && n ≤ 0x1e) || n == 0x85 || n == 0x2028 || n == 0x2029

/-- A name without a leading `export`. -/
def withoutExport (name : List Char) : List Char :=
  if "export ".toList.isPrefixOf name then trim (name.drop 7) else name

/-- A value without the white space and then the quotes around it. -/
def unquoted (value : List Char) : List Char :=
  trimBy (· = '\x27') (trimBy (· = '"') (trim value))

/-- The assignment that a line makes, if it makes one. -/
def assignment? (line : List Char) : Option (String × String) :=
  let line := trim line
  if line = [] ∨ line.head? = some '#' then none
  else match cut? '=' line with
    | none => none
    | some (name, value) =>
      let name := withoutExport (trim name)
      if name = [] then none else some (String.ofList name, String.ofList (unquoted value))

/-- The assignments of a text, in the order of its lines. -/
def assignments (text : List Char) : List (String × String) :=
  (splitAny isLineBreak text).filterMap assignment?

/-- Whether an assignment holds a NUL character, which no variable can. -/
def hasNul (a : String × String) : Bool := a.1.toList.contains '\x00' || a.2.toList.contains '\x00'

/-- What comes of loading: the environment, and the names that were set or the error. -/
structure Loaded where
  env : Environment
  names : List String := []
  error : Option EnvFileError := none
  deriving Repr, DecidableEq

/-- Makes the assignments to variables that are not set. -/
def assignAll : Environment → List (String × String) → Loaded
  | env, [] => { env := env }
  | env, a :: as =>
    if env.isSet a.1 then assignAll env as
    else if hasNul a then { env := env, error := some .nulCharacter }
    else
      let rest := assignAll (env.set a.1 a.2) as
      { rest with names := a.1 :: rest.names }

/-- Loads the file into an environment. -/
def load (f : EnvFile) (env : Environment) : Loaded :=
  match f with
  | absent | unreadable => { env := env }
  | content bytes => match String.fromUTF8? bytes with
    | none => { env := env, error := some .notUtf8 }
    | some text => assignAll env (assignments text.toList)

/-- The result of loading as a value or an error. -/
def Loaded.result (l : Loaded) : Except EnvFileError (List String) :=
  match l.error with
  | none => .ok l.names
  | some e => .error e

/-- A variable that is set keeps its value. -/
theorem get?_assignAll_of_isSet {env : Environment} {as : List (String × String)} {name : String}
    (h : env.isSet name) : (assignAll env as).env.get? name = env.get? name := by
  induction as generalizing env with
  | nil => rfl
  | cons a as ih =>
    unfold assignAll
    split
    · exact ih h
    · next ha =>
      split
      · rfl
      · have hne : name ≠ a.1 := by rintro rfl; exact ha h
        have hg := env.get?_set_of_ne a.2 hne
        have hs : (env.set a.1 a.2).isSet name := by simpa [Environment.isSet, hg] using h
        simpa [hg] using ih hs

end EnvFile

end RecurringEvents
