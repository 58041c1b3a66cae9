import RecurringEvents.Moment.Token
import RecurringEvents.Rule.Draft
import RecurringEvents.Rule.Fields
import RecurringEvents.Text.Quoted

/-!
# Reading rules

A rule is read from the fields of its text. The frequency is looked at first, and then the fields
in their order; the first that is bad is the cause of refusal. Keys that are not known are ignored.
What the fields say is a draft, which is checked last.

Numbers, weekdays and keys are upper-cased by the rules of all scripts before they are compared.
-/

namespace RecurringEvents

namespace Rule

open Text

/-- Why a rule text is refused. -/
inductive ReadCause where
  | noFrequency
  | unknownFrequency (word : List Char)
  | notInteger (key value : List Char)
  | notPositive (key : List Char) (n : Int)
  /-- A number with more digits than are read. -/
  | tooManyDigits
  | emptyList (key : List Char)
  | notIntegerItem (key item : List Char)
  | unknownWeekday (code : List Char)
  | badDayItem (item : List Char)
  | token (fault : Token.Fault)
  | refused (issues : List Issue)
  deriving Repr, DecidableEq

/-- Why a text gives no rule. -/
inductive ReadError where
  | empty
  | invalid (text : List Char) (cause : ReadCause)
  deriving Repr, DecidableEq

/-- The number in a field that has to be positive. -/
def readPositive (key value : List Char) : Except ReadCause Int :=
  if !isInteger value then .error (.notInteger key value)
  else if !withinDigitLimit value then .error .tooManyDigits
  else if integerValue value < 1 then .error (.notPositive key (integerValue value))
  else .ok (integerValue value)

/-- The items of a list with commas that are not blank, trimmed. -/
def listItems (value : List Char) : List (List Char) :=
  ((splitOn ',' value).map trim).filter (· ≠ [])

/-- The numbers of a list. -/
def readIntegers (key value : List Char) : Except ReadCause (List Int) :=
  let items := listItems value
  if items = [] then .error (.emptyList key)
  else match items.find? fun i => !isInteger i with
    | some i => .error (.notIntegerItem key i)
    | none =>
      if items.all withinDigitLimit then .ok (items.map integerValue) else .error .tooManyDigits

/-- A weekday by its code. -/
def readWeekday (value : List Char) : Except ReadCause Weekday :=
  match Weekday.ofCode? (upper (trim value)) with
  | some d => .ok d
  | none => .error (.unknownWeekday value)

/-- The capital letters of ASCII. -/
def isCapital (c : Char) : Bool := 'A' ≤ c && c ≤ 'Z'

/-- The position, if any, and the two letters of an item of a list of weekdays. -/
def dayItem? (token : List Char) : Option (Option Int × List Char) :=
  let number := token.dropLast.dropLast
  let code := token.drop number.length
  let (_, digits) := splitSign number
  if code.length = 2 ∧ code.all isCapital then
    if number = [] then some (none, code)
    else if isInteger number ∧ digits.length ≤ 2 then some (some (integerValue number), code)
    else none
  else none

/-- An item of a list of weekdays; its position is checked on the spot. -/
def readDayItem (item : List Char) : Except ReadCause DayDraft :=
  match dayItem? (upper (trim item)) with
  | none => .error (.badDayItem item)
  | some (position, code) => do
    let day ← readWeekday code
    let draft : DayDraft := { day := day.code, position := position }
    match draft.check [] with
    | .ok _ => pure draft
    | .error is => throw (.refused is)

/-- A list of weekdays. Blank items are skipped. -/
def readDays (key value : List Char) : Except ReadCause (List DayDraft) := do
  let days ← ((splitOn ',' value).filter fun i => trim i ≠ []).mapM readDayItem
  if days = [] then throw (.emptyList key) else pure days

/-- The last moment; without a Z it is read in `zone`. -/
def readLastMoment (zone : Zone) (value : List Char) : Except ReadCause Reading :=
  match Token.read value zone with
  | .ok m => .ok ⟨m.wall, some m.zone⟩
  | .error fault => .error (.token fault)

/-- Takes a field into a draft. -/
def readField (zone : Zone) (d : RuleDraft) (key value : List Char) :
    Except ReadCause RuleDraft :=
  if key = "INTERVAL".toList then do
    let n ← readPositive key value
    pure { d with interval := some n }
  else if key = "COUNT".toList then do
    let n ← readPositive key value
    pure { d with count := some n }
  else if key = "UNTIL".toList then do
    let m ← readLastMoment zone value
    pure { d with lastMoment := some m }
  else if key = "BYDAY".toList then do
    let ds ← readDays key value
    pure { d with byDay := some ds }
  else if key = "BYMONTHDAY".toList then do
    let ns ← readIntegers key value
    pure { d with byMonthDay := some ns }
  else if key = "BYMONTH".toList then do
    let ns ← readIntegers key value
    pure { d with byMonth := some ns }
  else if key = "BYSETPOS".toList then do
    let ns ← readIntegers key value
    pure { d with bySetPos := some ns }
  else if key = "WKST".toList then do
    let day ← readWeekday value
    pure { d with weekStart := some day.code }
  else pure d

/-- The frequency that the fields name. -/
def readFrequency (fs : Fields) : Except ReadCause Frequency :=
  match fs.value? "FREQ" with
  | none => .error .noFrequency
  | some word =>
    if word = [] then .error .noFrequency
    else match Frequency.ofWord? (lower word) with
      | some f => .ok f
      | none => .error (.unknownFrequency word)

/-- The rule that fields denote. -/
def ofFields (zone : Zone) (fs : Fields) : Except ReadCause Rule := do
  let frequency ← readFrequency fs
  let draft ← fs.foldlM (fun d f => readField zone d f.1 f.2)
    { frequency := some frequency.word }
  match draft.check with
  | .ok r => pure r
  | .error is => throw (.refused is)

/-- The rule that a text denotes; a last moment without a Z is read in `zone`. -/
def read (zone : Zone) (text : List Char) : Except ReadError Rule :=
  if trim text = [] then .error .empty
  else match ofFields zone (Fields.ofText text) with
    | .ok r => .ok r
    | .error cause => .error (.invalid text cause)

/-- The rule that a text denotes, if it denotes one. -/
def read? (zone : Zone) (text : List Char) : Option Rule := (read zone text).toOption

/-! ## Messages -/

/-- The words for a cause of refusal, if it has any. -/
def ReadCause.message? : ReadCause → Option (List Char)
  | noFrequency => some "RRULE missing required FREQ parameter".toList
  | unknownFrequency word => some ("Unsupported FREQ ".toList ++ quoted word)
  | notInteger key value => some (key ++ " must be an integer, got ".toList ++ quoted value)
  | notPositive key n => some (key ++ " must be positive, got ".toList ++ integer n)
  | tooManyDigits => none
  | emptyList key => some (key ++ " list is empty".toList)
  | notIntegerItem key item =>
    some (key ++ " contains a non-integer value ".toList ++ quoted item)
  | unknownWeekday code => some ("Unknown weekday ".toList ++ quoted code)
  | badDayItem item => some ("Malformed BYDAY entry ".toList ++ quoted item)
  | token fault => fault.message?
  | refused _ => none

/-- The issues of a draft that was refused. -/
def ReadCause.issues? : ReadCause → Option (List Issue)
  | refused is => some is
  | _ => none

/-- The words for a text that gives no rule. A cause without words is shown as a star. -/
def ReadError.message : ReadError → List Char
  | empty => "Empty RRULE string".toList
  | invalid text cause =>
    "Invalid RRULE ".toList ++ quoted text ++ ": ".toList ++ cause.message?.getD ['*']

/-- The issues behind a text that gives no rule. -/
def ReadError.issues? : ReadError → Option (List Issue)
  | empty => none
  | invalid _ cause => cause.issues?

end Rule

end RecurringEvents
