import RecurringEvents.Text.Digit
import RecurringEvents.Text.Split

/-!
# Words of a command line

Every word of a command line is a value, an option, or the separator `--`, after which all words are
values. A word that begins with a dash is an option unless it is a negative number or holds a blank.
Long options may be cut short as long as only one option begins that way, and may have their value
after `=`. The short help option may be repeated in its word.
-/

namespace RecurringEvents.CommandLine

/-- How a command line ends that is not carried out: with help, or as misused. -/
inductive Exit where
  | help
  | usage
  deriving Repr, DecidableEq

/-- The exit code. -/
def Exit.code : Exit → Int
  | help => 0
  | usage => 2

/-- A long option: its name with the dashes, and whether it takes a value. -/
structure OptionSpec where
  name : String
  takesValue : Bool := true
  deriving Repr, DecidableEq

/-- An option that was found. -/
inductive Found where
  /-- The long option, and the text after `=` if there is one. -/
  | long (spec : OptionSpec) (value : Option (List Char))
  /-- `-h` and what follows it in the word, without an `=` between. -/
  | help (rest : Option (List Char))
  | unknown
  deriving Repr, DecidableEq

/-- A word of a command line. -/
inductive Word where
  | separator
  | value (text : String)
  | option (found : Found)
  deriving Repr, DecidableEq

/-- The option that every command has. -/
def helpSpec : OptionSpec := { name := "--help", takesValue := false }

/-- Digits of any script, at least one. -/
def allDigits (s : List Char) : Bool := s ≠ [] && s.all fun c => (Text.digitValue? c).isSome

/-- A text without the end of its line. -/
def withoutLineEnd (s : List Char) : List Char :=
  if s.getLast? = some '\n' then s.dropLast else s

/-- Whether a text is a number without a sign: `5`, `.5` or `1.5`. -/
def isPlainNumber (s : List Char) : Bool :=
  allDigits s || match Text.cut? '.' s with
    | some (whole, part) => (whole = [] || allDigits whole) && allDigits part
    | none => false

/-- Whether a word is a negative number, which the end of a line may follow. -/
def isNegativeNumber (s : List Char) : Bool :=
  match s with
  | '-' :: r => isPlainNumber (withoutLineEnd r)
  | _ => false

/-- Splits a word at its first `=`, if it has one. -/
def splitAssigned (s : List Char) : List Char × Option (List Char) :=
  match Text.cut? '=' s with
  | some (name, value) => (name, some value)
  | none => (s, none)

/-- The option that a word names in full. -/
def fullName? (specs : List OptionSpec) (s : List Char) : Option Found :=
  let (name, value) := splitAssigned s
  match specs.find? fun o => o.name.toList = s with
  | some o => some (.long o none)
  | none => match specs.find? fun o => o.name.toList = name with
    | some o => some (.long o value)
    | none =>
      if name = "-h".toList then some (.help value) else none

/-- The options that a word with two dashes may stand for. -/
def shortened (specs : List OptionSpec) (s : List Char) : List Found :=
  let (name, value) := splitAssigned s
  (specs.filter fun o => name.isPrefixOf o.name.toList).map fun o => .long o value

/-- What a word is that begins with a dash and names no option. -/
def dashWord (text : String) : Word :=
  let s := text.toList
  if isNegativeNumber s || s.contains ' ' then .value text else .option .unknown

/-- What a word is before the separator. It is misused if it may stand for several options. -/
def classify (specs : List OptionSpec) (text : String) : Except Exit Word :=
  match text.toList with
  | '-' :: c :: r =>
    match fullName? specs ('-' :: c :: r) with
    | some f => .ok (.option f)
    | none =>
      if c = '-' then
        match shortened specs ('-' :: c :: r) with
        | [] => .ok (dashWord text)
        | [f] => .ok (.option f)
        | _ => .error .usage
      else if c = 'h' then .ok (.option (.help (some r)))
      else .ok (dashWord text)
  | _ => .ok (.value text)

/-- The words of a command line. -/
def words (specs : List OptionSpec) : List String → Except Exit (List Word)
  | [] => .ok []
  | a :: as =>
    if a = "--" then .ok (.separator :: as.map .value)
    else do
      let w ← classify specs a
      let ws ← words specs as
      pure (w :: ws)

/-- What an occurrence of `-h` comes to. What follows it in the word must be more of the same. -/
def helpExit : Option (List Char) → Exit
  | none => .help
  | some rest => if rest ≠ [] && rest.all (· = 'h') then .help else .usage

end RecurringEvents.CommandLine
