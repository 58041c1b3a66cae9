import RecurringEvents.Text.Integer
import RecurringEvents.Text.Split

/-!
# Indented JSON

Values of JSON and their text: members and items on lines of their own, two blanks deeper at every
level, and empty arrays as `[]`. Text outside ASCII is written as it is.
-/

namespace RecurringEvents

/-- A value of JSON without fractions. -/
inductive JsonValue where
  | bool (b : Bool)
  | number (n : Int)
  | text (s : List Char)
  | array (items : List JsonValue)
  | object (members : List (String × JsonValue))
  deriving Repr

namespace JsonValue

/-- A member that is left out if there is no value. -/
def member? (key : String) (v : Option JsonValue) : List (String × JsonValue) :=
  match v with
  | some v => [(key, v)]
  | none => []

/-- A character inside a string. -/
def escaped (c : Char) : List Char :=
  if c = '"' then ['\\', '"']
  else if c = '\\' then ['\\', '\\']
  else if c = '\n' then ['\\', 'n']
  else if c = '\r' then ['\\', 'r']
  else if c = '\t' then ['\\', 't']
  else if c = '\x08' then ['\\', 'b']
  else if c = '\x0c' then ['\\', 'f']
  else if c.toNat < 0x20 then
    '\\' :: 'u' :: List.replicate (4 - (Nat.toDigits 16 c.toNat).length) '0'
      ++ Nat.toDigits 16 c.toNat
  else [c]

/-- A string with its quotes. -/
def stringText (s : List Char) : List Char := '"' :: s.flatMap escaped ++ ['"']

/-- A new line at a level of indentation. -/
def newLine (level : Nat) : List Char := '\n' :: List.replicate (2 * level) ' '

/-- Parts between two brackets, on lines of their own. -/
def bracketed (level : Nat) (first last : Char) (parts : List (List Char)) : List Char :=
  if parts = [] then [first, last]
  else first :: newLine (level + 1)
    ++ Text.join (',' :: newLine (level + 1)) parts ++ newLine level ++ [last]

mutual

/-- The text of a value at a level of indentation. -/
def render (level : Nat) : JsonValue → List Char
  | bool b => if b then "true".toList else "false".toList
  | number n => Text.integer n
  | text s => stringText s
  | array items => bracketed level '[' ']' (renderItems (level + 1) items)
  | object members => bracketed level (Char.ofNat 0x7b) (Char.ofNat 0x7d)
      (renderMembers (level + 1) members)

/-- The texts of the items of an array. -/
def renderItems (level : Nat) : List JsonValue → List (List Char)
  | [] => []
  | v :: vs => render level v :: renderItems level vs

/-- The texts of the members of an object. -/
def renderMembers (level : Nat) : List (String × JsonValue) → List (List Char)
  | [] => []
  | (k, v) :: ms =>
    (stringText k.toList ++ ": ".toList ++ render level v) :: renderMembers level ms

end

/-- The text of a value. -/
def document (v : JsonValue) : List Char := render 0 v

end JsonValue

end RecurringEvents
