import RecurringEvents.Moment
import RecurringEvents.Iso.Day

/-!
# Time stamps in ISO 8601 text

A date, and after one character of any kind a time of day, with or without an offset. Dates are
`YYYY`, `YYYY-MM`, `YYYY-MM-DD`, `YYYYMMDD`, week dates `YYYY-Www-D` and ordinal dates `YYYY-DDD`;
a missing month or day is the first. Times are `HH`, `HH:MM` and `HH:MM:SS` with an optional
fraction, with or without colons; `24:00` is the next midnight. Offsets are `Z`, `+HH`, `+HHMM` and
`+HH:MM`.

A field is a slice of two or four characters that is read as a loose number, so it may be cut short
by the end of the text and may hold blanks or a sign.
-/

namespace RecurringEvents.Iso

open Text

/-- Year, month and day before they are known to be a date. -/
structure DayFields where
  year : Int
  month : Int := 1
  day : Int := 1
  deriving Repr, DecidableEq

/-- A field of at most `n` characters, and what follows it. -/
def field? (n : Nat) (s : List Char) : Option (Int × List Char) :=
  (looseInteger? (s.take n)).map fun v => (v, s.drop n)

/-- A field of exactly `n` characters. -/
def fullField? (n : Nat) (s : List Char) : Option (Int × List Char) :=
  if s.length < n then none else field? n s

/-- A year, a month or a day of a month. -/
def calendarFields? (s : List Char) : Option (DayFields × List Char) := do
  let (year, r) ← fullField? 4 s
  if r.isEmpty then return ({ year := year }, [])
  let dashed := r.head? = some '-'
  let r ← expect? dashed '-' r
  let (month, r) ← fullField? 2 r
  if r.isEmpty then
    if dashed then return ({ year := year, month := month }, []) else none
  let r ← expect? dashed '-' r
  let (day, r) ← fullField? 2 r
  return ({ year := year, month := month, day := day }, r)

/-- A date computed from a day number: out of range if there is none. -/
def dateOfDayNumber (n : Int) : Except CalendarError Date :=
  match Date.ofDayNumber? n with
  | some d => .ok d
  | none => .error .outOfRange

/-- An optional result, whose absence means that the text denotes no date. -/
def orInvalid {α : Type} : Option α → Except CalendarError α
  | some a => .ok a
  | none => .error .invalidDate

/-- A week date or an ordinal date. A fifty-third week may run into the next year. -/
def otherDay (s : List Char) : Except CalendarError (Date × List Char) := do
  let (year, r) ← orInvalid (fullField? 4 s)
  let dashed := r.head? = some '-'
  let r ← orInvalid (expect? dashed '-' r)
  if r.head? = some 'W' then
    let (week, r) ← orInvalid (field? 2 r.tail)
    let (day, r) ←
      if r.isEmpty then pure (1, [])
      else if (r.head? = some '-') != dashed then throw .invalidDate
      else
        let r ← orInvalid (expect? dashed '-' r)
        orInvalid (field? 1 r)
    if week < 1 ∨ 53 < week ∨ day < 1 ∨ 7 < day then throw .invalidDate
    let _ ← orInvalid (Date.of? year 1 4)
    let d ← dateOfDayNumber (firstMonday year + (week - 1) * 7 + (day - 1))
    pure (d, r)
  else
    let (n, r) ← orInvalid (fullField? 3 r)
    if n < 1 ∨ (if isLeapYear year then 366 else 365) < n then throw .invalidDate
    let first ← orInvalid (Date.of? year 1 1)
    let d ← dateOfDayNumber (first.dayNumber + n - 1)
    pure (d, r)

/-- The day of a time stamp and what follows it. -/
def stampDay (s : List Char) : Except CalendarError (DayFields × List Char) :=
  match calendarFields? s with
  | some r => .ok r
  | none => do
    let (d, r) ← otherDay s
    pure ({ year := d.year, month := d.month, day := d.day }, r)

/-- Whether a character begins the offset of a time stamp. -/
def isZoneMark (c : Char) : Bool := c = '-' || c = '+' || c = 'Z' || c = 'z'

/-- The offset that a text denotes, in seconds. -/
def stampOffset? (s : List Char) : Option Int := do
  if s = ['Z'] ∨ s = ['z'] then return 0
  if s.length ≠ 3 ∧ s.length ≠ 5 ∧ s.length ≠ 6 then none
  let sign ← match s.head? with
    | some '-' => some (-1)
    | some '+' => some 1
    | _ => none
  let (hours, r) ← field? 2 s.tail
  let minutes ←
    if r.isEmpty then some 0
    else looseInteger? (if r.head? = some ':' then r.tail else r)
  if 59 < minutes ∨ 23 < hours then none
  return sign * (hours * 60 + minutes) * 60

/-- The fields of a time, and the offset. -/
structure StampClock where
  hour : Int := 0
  minute : Int := 0
  second : Int := 0
  micro : Int := 0
  offset : Option Int := none
  deriving Repr, DecidableEq

/-- Reads the rest if it is nothing or an offset; otherwise reads on. -/
def endOr (t : StampClock) (s : List Char) (readOn : List Char → Option StampClock) :
    Option StampClock :=
  match s with
  | [] => some t
  | c :: _ =>
    if isZoneMark c then (stampOffset? s).map fun o => { t with offset := some o } else readOn s

/-- The first six digits of a fraction after a point or comma, and what follows all its digits. -/
def stampFraction? : List Char → Option (Int × List Char)
  | c :: s =>
    let ds := s.takeWhile isDigit
    if (c = '.' ∨ c = ',') ∧ ds ≠ [] then some (millionths ds, s.drop ds.length) else none
  | [] => none

/-- The time of day of a time stamp. -/
def stampClock? (s : List Char) : Option StampClock :=
  if s.length < 2 then none
  else endOr {} s fun s => do
    let (hour, s) ← field? 2 s
    let t : StampClock := { hour := hour }
    endOr t s fun s => do
      let colons := s.head? = some ':'
      let s ← expect? colons ':' s
      let (minute, s) ← field? 2 s
      let t := { t with minute := minute }
      endOr t s fun s => do
        let s ← expect? colons ':' s
        let (second, s) ← field? 2 s
        let t := { t with second := second }
        endOr t s fun s => do
          let (micro, s) ← stampFraction? s
          endOr { t with micro := micro } s fun _ => none

/-- The wall time of the fields of a time stamp. -/
def stampWall (d : DayFields) (t : StampClock) : Except CalendarError Wall := do
  let nextDay := t.hour = 24
  if nextDay ∧ (t.minute ≠ 0 ∨ t.second ≠ 0 ∨ t.micro ≠ 0) then throw .invalidDate
  let date ← orInvalid (Date.of? d.year d.month d.day)
  let time ← orInvalid (TimeOfDay.of? (if nextDay then 0 else t.hour) t.minute t.second t.micro)
  let date ← if nextDay then dateOfDayNumber (date.dayNumber + 1) else pure date
  pure ⟨date, time, .first⟩

/-- The reading that a text denotes. -/
def stamp (s : List Char) : Except CalendarError Reading := do
  if s.any fun c => 0x80 ≤ c.toNat then throw .invalidDate
  let (d, r) ← stampDay s
  let t ← if r.isEmpty then pure {} else orInvalid (stampClock? r.tail)
  let wall ← stampWall d t
  pure ⟨wall, t.offset.map .fixed⟩

end RecurringEvents.Iso
