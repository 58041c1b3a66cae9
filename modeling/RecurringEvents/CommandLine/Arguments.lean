import RecurringEvents.CommandLine.Words
import RecurringEvents.Text.Integer

/-!
# Arguments

What a command line asks for: a command with its operand and options, after the options that all
commands share. A command line is misused if an operand or a required option is missing, if a word
is left over, if an option lacks its value or has one that it does not take, or if a number is none.

Words are taken from left to right, and the first misuse or request for help ends it.

An option with `=--` occurs without a value, which takes back a value that it had before.
-/

namespace RecurringEvents.CommandLine

/-- What a command line gives for an option. -/
inductive Given (α : Type) where
  /-- The option does not occur. -/
  | absent
  /-- The option occurs without a value. -/
  | blank
  | value (a : α)
  deriving Repr, DecidableEq

namespace Given

variable {α β : Type}

/-- The value. -/
def value? : Given α → Option α
  | value a => some a
  | _ => none

/-- The value, and another one if the option does not occur; nothing if it occurs without one. -/
def valueOr? (g : Given α) (other : α) : Option α :=
  match g with
  | absent => some other
  | blank => none
  | value a => some a

/-- The value read further; one that cannot be read is like an option that does not occur. -/
def read (f : α → Option β) : Given α → Given β
  | absent => absent
  | blank => blank
  | value a => match f a with
    | some b => value b
    | none => absent

end Given

/-- What the command `expand` is asked for. The start, the length in minutes and the title are
nothing where their option occurs without a value. -/
structure ExpandRequest where
  rule : String
  start : Option String
  finish : Option String := none
  rangeStart : Option String := none
  minutes : Option Int := some 60
  title : Option String := some ""
  cap : Given Int := .absent
  deriving Repr, DecidableEq

/-- A command. -/
inductive Command where
  | parse (rule : String) (strict : Bool)
  | describe (rule : String)
  | expand (r : ExpandRequest)
  deriving Repr, DecidableEq

/-- A command and the options that all commands share. -/
structure Arguments where
  logLevel : Option String := none
  zone : Option String := none
  command : Command
  deriving Repr, DecidableEq

/-- What has been taken from the words of a command. -/
structure Taken where
  operand : Option String := none
  /-- The options that occur, with their values if they have one, the latest first. -/
  options : List (String × Option String) := []
  /-- Whether a word was left over. -/
  leftOver : Bool := false
  deriving Repr, DecidableEq

/-- The value that stands after the `=` of an option. A separator there is none. -/
def assignedValue? (s : List Char) : Option String :=
  if s = "--".toList then none else some (String.ofList s)

namespace Taken

/-- What is given for an option; of several occurrences the latest counts. -/
def given (t : Taken) (name : String) : Given String :=
  match t.options.lookup name with
  | none => .absent
  | some none => .blank
  | some (some v) => .value v

/-- Puts an option, whose value has to be a number if it is one of `numbers`. -/
def put (numbers : List String) (t : Taken) (name : String) (value : Option String) :
    Except Exit Taken :=
  if numbers.contains name && value.any fun v => (Text.looseInteger? v.toList).isNone then
    .error .usage
  else .ok { t with options := (name, value) :: t.options }

/-- The number that is given for an option. -/
def number (t : Taken) (name : String) : Given Int :=
  (t.given name).read fun v => Text.looseInteger? v.toList

end Taken

/-- An operand is taken together with a separator after it. -/
def afterOperand : List Word → List Word
  | .separator :: ws => ws
  | ws => ws

theorem length_afterOperand_le (ws : List Word) : (afterOperand ws).length ≤ ws.length := by
  unfold afterOperand
  split <;> simp

/-- Takes the words of a command with one operand. -/
def takeWords (numbers : List String) (t : Taken) : List Word → Except Exit Taken
  | [] => .ok t
  | .option .unknown :: ws => takeWords numbers { t with leftOver := true } ws
  | .option (.help rest) :: _ => .error (helpExit rest)
  | .option (.long spec value) :: ws =>
    match spec.takesValue, value, ws with
    | true, some v, ws => do
      let t ← t.put numbers spec.name (assignedValue? v)
      takeWords numbers t ws
    | true, none, .value v :: ws => do
      let t ← t.put numbers spec.name (some v)
      takeWords numbers t ws
    | true, none, _ => .error .usage
    | false, some _, _ => .error .usage
    | false, none, ws =>
      if spec = helpSpec then .error .help
      else do
        let t ← t.put numbers spec.name none
        takeWords numbers t ws
  | .value v :: ws =>
    if t.operand.isNone then takeWords numbers { t with operand := some v } (afterOperand ws)
    else takeWords numbers { t with leftOver := true } ws
  | .separator :: ws =>
    match t.operand, ws with
    | none, .value v :: ws => takeWords numbers { t with operand := some v } ws
    | _, ws => takeWords numbers { t with leftOver := true } ws
termination_by ws => ws.length
decreasing_by
  all_goals simp only [List.length_cons, wfParam]
  all_goals first
    | omega
    | exact Nat.lt_succ_of_le (length_afterOperand_le _)

/-- The options of a command, apart from help, and which of them have numbers. -/
structure CommandSpec where
  name : String
  options : List OptionSpec := []
  numbers : List String := []
  deriving Repr, DecidableEq

/-- `parse`. -/
def parseSpec : CommandSpec where
  name := "parse"
  options := [{ name := "--strict", takesValue := false }]

/-- `describe`. -/
def describeSpec : CommandSpec where
  name := "describe"

/-- `expand`. -/
def expandSpec : CommandSpec where
  name := "expand"
  options := [{ name := "--start" }, { name := "--end" }, { name := "--range-start" },
    { name := "--duration" }, { name := "--title" }, { name := "--max-instances" }]
  numbers := ["--duration", "--max-instances"]

/-- The options that all commands share. -/
def sharedOptions : List OptionSpec :=
  [helpSpec, { name := "--log-level" }, { name := "--timezone" }]

/-- Takes the arguments of a command; none may be left over. -/
def takeCommand (c : CommandSpec) (args : List String) : Except Exit (String × Taken) := do
  let ws ← words (helpSpec :: c.options) args
  let t ← takeWords c.numbers {} ws
  match t.operand with
  | some operand => if t.leftOver then throw .usage else pure (operand, t)
  | none => throw .usage

/-- The command that a name and its arguments ask for. -/
def command (name : String) (args : List String) : Except Exit Command := do
  if name = parseSpec.name then
    let (rule, t) ← takeCommand parseSpec args
    pure (.parse rule (t.given "--strict" ≠ .absent))
  else if name = describeSpec.name then
    let (rule, _) ← takeCommand describeSpec args
    pure (.describe rule)
  else if name = expandSpec.name then
    let (rule, t) ← takeCommand expandSpec args
    match t.given "--start" with
    | .absent => throw .usage
    | start => pure (.expand {
        rule := rule, start := start.value?, finish := (t.given "--end").value?
        rangeStart := (t.given "--range-start").value?
        minutes := (t.number "--duration").valueOr? 60
        title := (t.given "--title").valueOr? "", cap := t.number "--max-instances" })
  else throw .usage

/-- Takes the shared options up to the command, whose arguments are the rest of the texts. -/
def takeShared (t : Taken) : List Word → List String → Except Exit Arguments
  | .option .unknown :: ws, _ :: as => takeShared { t with leftOver := true } ws as
  | .option (.help rest) :: _, _ => .error (helpExit rest)
  | .option (.long spec value) :: ws, _ :: as =>
    match spec.takesValue, value, ws, as with
    | true, some v, ws, as => do
      let t ← t.put [] spec.name (assignedValue? v)
      takeShared t ws as
    | true, none, .value v :: ws, _ :: as => do
      let t ← t.put [] spec.name (some v)
      takeShared t ws as
    | false, none, _, _ => .error .help
    | _, _, _, _ => .error .usage
  | .value name :: _, _ :: as => do
    let c ← command name as
    if t.leftOver then throw .usage
    else pure {
      logLevel := (t.given "--log-level").value?, zone := (t.given "--timezone").value?
      command := c }
  | _, _ => .error .usage

/-- What a command line asks for. -/
def arguments (args : List String) : Except Exit Arguments := do
  let ws ← words sharedOptions args
  takeShared {} ws args

end RecurringEvents.CommandLine
