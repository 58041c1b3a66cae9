import RecurringEvents.Calendar.Wall
import RecurringEvents.Iso.Day

/-!
# Times of day in ISO 8601 text

`HH`, `HH:MM` or `HH:MM:SS`, or the same without colons; after a point or a comma follow the
digits of a fraction, of which the first six count. An offset may come after it and is checked and
dropped.

The reading is as tolerant as it is old. A fraction may follow any field and always counts in
millionths of a second; one character may stand between the time and an offset, and so may anything
after six digits of a fraction. A NUL character ends the text.
-/

namespace RecurringEvents.Iso

open Text

/-- The fields of a time, and whether something follows them that was not read. -/
structure ClockFields where
  hour : Int
  minute : Int := 0
  second : Int := 0
  micro : Int := 0
  unread : Bool := false
  deriving Repr, DecidableEq

/-- Whether nothing more is to be read. -/
def atEnd : List Char → Bool
  | [] => true
  | c :: _ => c = '\x00'

/-- The fraction of a second, and whether something follows it. -/
def fraction? (s : List Char) : Option (Int × Bool) :=
  if (s.take 6).all isDigit then
    some (millionths (s.take 6), !atEnd ((s.drop 6).dropWhile isDigit))
  else none

/-- What comes after a field: nothing, one last character, or more. -/
inductive AfterField where
  | done
  | last (c : Char)
  | more (c : Char) (s : List Char)
  deriving Repr

/-- A single ASCII character at the end is not read. -/
def afterField : List Char → AfterField
  | [] => .done
  | [c] => if c.toNat < 0x80 then .last c else .more c []
  | c :: s => .more c s

/-- Whether a character sets off a fraction. -/
def isPoint (c : Char) : Bool := c = '.' || c = ','

/-- Reads on from the seconds. -/
def readSecond? (colons : Bool) (t : ClockFields) (s : List Char) : Option ClockFields := do
  let (second, r) ← digits? 2 s
  let t := { t with second := second }
  match afterField r with
  | .done => pure t
  | .last c => pure { t with unread := c ≠ '\x00' }
  | .more c r =>
    let (micro, unread) ←
      if (colons && c = ':') || isPoint c then fraction? r
      else if colons then none
      else fraction? (c :: r)
    pure { t with micro := micro, unread := unread }

/-- Reads on from the minutes. -/
def readMinute? (colons : Bool) (t : ClockFields) (s : List Char) : Option ClockFields := do
  let (minute, r) ← digits? 2 s
  let t := { t with minute := minute }
  match afterField r with
  | .done => pure t
  | .last c => pure { t with unread := c ≠ '\x00' }
  | .more c r =>
    if colons && c = ':' then readSecond? colons t r
    else if isPoint c then
      let (micro, unread) ← fraction? r
      pure { t with micro := micro, unread := unread }
    else if colons then none
    else readSecond? colons t (c :: r)

/-- The fields of a time. The first separator decides whether the others are colons too. -/
def clockFields? (s : List Char) : Option ClockFields := do
  let (hour, r) ← digits? 2 s
  let t : ClockFields := { hour := hour }
  match afterField r with
  | .done => pure t
  | .last c => pure { t with unread := c ≠ '\x00' }
  | .more c r =>
    if c = ':' then readMinute? true t r
    else if isPoint c then
      let (micro, unread) ← fraction? r
      pure { t with micro := micro, unread := unread }
    else readMinute? false t (c :: r)

/-- Whether a character begins an offset. -/
def isOffsetMark (c : Char) : Bool := c = '+' || c = '-' || c = 'Z'

/-- Whether a text is an offset of less than a day. -/
def isOffset : List Char → Bool
  | 'Z' :: s => atEnd s
  | _ :: s => match clockFields? s with
    | some t =>
      let micros := ((t.hour * 60 + t.minute) * 60 + t.second) * secondMicros + t.micro
      !t.unread && micros < dayMicros
    | none => false
  | [] => false

/-- The time of day that a text denotes, less its offset. -/
def clock? (s : List Char) : Option TimeOfDay := do
  let s := match s with
    | 'T' :: r => r
    | r => r
  let body := s.takeWhile fun c => !isOffsetMark c
  let t ← clockFields? body
  let offset := s.drop body.length
  let complete := if offset.isEmpty then !t.unread else isOffset offset
  if complete then TimeOfDay.of? t.hour t.minute t.second t.micro else none

end RecurringEvents.Iso
