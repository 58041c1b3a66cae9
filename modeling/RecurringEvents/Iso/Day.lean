import RecurringEvents.Calendar.Date
import RecurringEvents.Text.Integer

/-!
# Days in ISO 8601 text

A calendar date `YYYY-MM-DD` or `YYYYMMDD`, or a week date `YYYY-Www-D` or `YYYYWwwD`, whose day
may be left out. The text has 7, 8 or 10 bytes; what follows the date within that length is not
looked at.
-/

namespace RecurringEvents.Iso

open Text

/-- The value of an ASCII digit. -/
def digit? (c : Char) : Option Int := if isDigit c then some (c.toNat - '0'.toNat : Nat) else none

/-- A number of exactly `n` ASCII digits, and what follows it. -/
def digits? (n : Nat) (s : List Char) : Option (Int × List Char) :=
  if (s.take n).length = n ∧ (s.take n).all isDigit then
    some ((Nat.ofDigitChars 10 (s.take n) 0 : Nat), s.drop n)
  else none

/-- Takes a character off the front, if `wanted` says that it has to be there. -/
def expect? (wanted : Bool) (c : Char) (s : List Char) : Option (List Char) :=
  if wanted then
    match s with
    | [] => none
    | d :: r => if d = c then some r else none
  else some s

/-- The day number of the Monday of the first week of a year: the week with its fourth day. -/
def firstMonday (year : Int) : Int :=
  let fourth := dayNumberOf year 1 4
  fourth - (weekdayOfDayNumber fourth).number

/-- The number of weeks of a year. -/
def weeksInYear (year : Int) : Int := (firstMonday (year + 1) - firstMonday year) / 7

/-- The date of a weekday, counted from 1 for Monday, of a week of a year. -/
def weekDate? (year week day : Int) : Option Date :=
  if 1 ≤ week ∧ week ≤ weeksInYear year ∧ 1 ≤ day ∧ day ≤ 7 then
    Date.ofDayNumber? (firstMonday year + (week - 1) * 7 + (day - 1))
  else none

/-- The length of a text in UTF-8. -/
def byteLength (s : List Char) : Nat := (String.ofList s).utf8ByteSize

/-- The value of the first six digits of a fraction, in millionths. -/
def millionths (ds : List Char) : Int :=
  Nat.ofDigitChars 10 ((ds ++ List.replicate 6 '0').take 6) 0

/-- The date at the front of a text. -/
def leadingDay? (s : List Char) : Option Date := do
  let (year, r) ← digits? 4 s
  let dashed := r.head? = some '-'
  let r ← expect? dashed '-' r
  if r.head? = some 'W' then
    let (week, r) ← digits? 2 r.tail
    if r.isEmpty then weekDate? year week 1
    else
      let r ← expect? dashed '-' r
      let (day, _) ← digits? 1 r
      weekDate? year week day
  else
    let (month, r) ← digits? 2 r
    let r ← expect? dashed '-' r
    let (day, _) ← digits? 2 r
    Date.of? year month day

/-- The date that a text denotes. -/
def day? (s : List Char) : Option Date :=
  if byteLength s = 7 ∨ byteLength s = 8 ∨ byteLength s = 10 then leadingDay? s else none

end RecurringEvents.Iso
