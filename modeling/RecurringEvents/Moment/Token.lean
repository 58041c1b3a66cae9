import RecurringEvents.Iso.Day
import RecurringEvents.Moment
import RecurringEvents.Text.Quoted

/-!
# Compact date tokens

`YYYYMMDD`, `YYYYMMDDTHHMMSS` and `YYYYMMDDTHHMMSSZ`. A token with the final Z is in UTC; the others
are read in a zone that the caller names, a date being its first moment. The letters may be in
either case, and the day may be a blank and a digit.

Tokens are written in UTC, with the Z. The year is written without leading zeros.
-/

namespace RecurringEvents.Token

open Text Iso

/-- Why a token cannot be read. -/
inductive Fault where
  /-- The text has not the shape of a token. -/
  | malformed (token : List Char)
  /-- The digits denote no date or no time. -/
  | noSuchTime
  /-- The time cannot be converted to the zone. -/
  | calendar (e : CalendarError)
  deriving Repr, DecidableEq

/-- A day of a month: two digits, or a blank and a digit from 1. -/
def dayField? (a b : Char) : Option Int :=
  if a = ' ' then (digit? b).filter (1 ≤ ·)
  else do pure ((← digit? a) * 10 + (← digit? b))

/-- A date in eight characters, and what follows it. -/
def date? (s : List Char) : Option (Date × List Char) := do
  let (year, s) ← digits? 4 s
  let (month, s) ← digits? 2 s
  match s with
  | a :: b :: s => pure (← Date.of? year month (← dayField? a b), s)
  | _ => none

/-- A time in six digits. -/
def time? (s : List Char) : Option TimeOfDay := do
  let (hour, s) ← digits? 2 s
  let (minute, s) ← digits? 2 s
  let (second, _) ← digits? 2 s
  TimeOfDay.of? hour minute second 0

/-- The wall time in a token of fifteen characters. -/
def wall? (s : List Char) : Option Wall := do
  let (date, s) ← date? s
  match s with
  | c :: s => if c = 'T' ∨ c = 't' then pure ⟨date, ← time? s, .first⟩ else none
  | [] => none

/-- Whether a token ends with the letter Z. -/
def isUtc (s : List Char) : Bool := s.getLast? = some 'Z' || s.getLast? = some 'z'

/-- The wall time that a trimmed token shows, and whether it is in UTC. -/
def wallTime (token : List Char) : Except Fault (Wall × Bool) :=
  let s := trim token
  let body := if isUtc s then s.dropLast else s
  let found (w : Option Wall) : Except Fault (Wall × Bool) :=
    match w with
    | some w => .ok (w, isUtc s)
    | none => .error .noSuchTime
  if body.any fun c => 0x80 ≤ c.toNat then .error (.malformed token)
  else if body.length = 8 ∧ !isUtc s then
    found ((date? body).map fun d => ⟨d.1, .midnight, .first⟩)
  else if body.length = 15 then found (wall? body)
  else .error (.malformed token)

/-- The moment that a token denotes; without the Z it is read in `zone`. -/
def read (token : List Char) (zone : Zone) : Except Fault Moment := do
  let (w, utc) ← wallTime token
  if utc then pure (Moment.ofUtc w)
  else match Moment.localize w zone with
    | .ok m => pure m
    | .error e => throw (.calendar e)

/-- The token of a wall time of UTC; the part of a second is dropped. -/
def ofWall (w : Wall) : List Char :=
  decimal w.date.year.toNat ++ padded 2 w.date.month.toNat ++ padded 2 w.date.day.toNat
    ++ 'T' :: padded 2 w.time.hour.toNat ++ padded 2 w.time.minute.toNat
    ++ padded 2 w.time.second.toNat ++ ['Z']

/-- The token of a moment. -/
def write (m : Moment) : Except CalendarError (List Char) := do
  let u ← m.inUtc
  pure (ofWall u.wall)

/-- The words for a fault, if it has any. -/
def Fault.message? : Fault → Option (List Char)
  | malformed token => some ("Unable to parse date token: ".toList ++ quoted token)
  | _ => none

end RecurringEvents.Token
