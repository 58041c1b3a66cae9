/-!
# Weekdays

The seven weekdays in order from Monday, their numbers, two-letter codes and English names.
-/

namespace RecurringEvents

/-- A day of the week. -/
inductive Weekday where
  | monday | tuesday | wednesday | thursday | friday | saturday | sunday
  deriving Repr, DecidableEq

namespace Weekday

/-- All weekdays, from Monday on. -/
def all : List Weekday := [monday, tuesday, wednesday, thursday, friday, saturday, sunday]

/-- The days from Monday to Friday. -/
def workdays : List Weekday := [monday, tuesday, wednesday, thursday, friday]

/-- Saturday and Sunday. -/
def weekend : List Weekday := [saturday, sunday]

/-- The number of a weekday; Monday is 0. -/
def number : Weekday → Int
  | monday => 0 | tuesday => 1 | wednesday => 2 | thursday => 3
  | friday => 4 | saturday => 5 | sunday => 6

/-- The weekday whose number is congruent to `n` modulo 7. -/
def ofNumber (n : Int) : Weekday :=
  if n % 7 = 0 then monday else if n % 7 = 1 then tuesday else if n % 7 = 2 then wednesday
  else if n % 7 = 3 then thursday else if n % 7 = 4 then friday else if n % 7 = 5 then saturday
  else sunday

/-- The code of a weekday in rule texts. -/
def code : Weekday → String
  | monday => "MO" | tuesday => "TU" | wednesday => "WE" | thursday => "TH"
  | friday => "FR" | saturday => "SA" | sunday => "SU"

/-- The weekday with a code; codes are in upper case. -/
def ofCode? (s : List Char) : Option Weekday := all.find? fun d => d.code.toList = s

/-- The English name. -/
def label : Weekday → String
  | monday => "Monday" | tuesday => "Tuesday" | wednesday => "Wednesday" | thursday => "Thursday"
  | friday => "Friday" | saturday => "Saturday" | sunday => "Sunday"

/-- The three-letter English name. -/
def shortLabel (d : Weekday) : String := String.ofList (d.label.toList.take 3)

theorem mem_all (d : Weekday) : d ∈ all := by cases d <;> decide

theorem number_nonneg (d : Weekday) : 0 ≤ d.number := by cases d <;> decide

theorem number_lt (d : Weekday) : d.number < 7 := by cases d <;> decide

@[simp] theorem ofNumber_number (d : Weekday) : ofNumber d.number = d := by cases d <;> decide

@[simp] theorem number_ofNumber (n : Int) : (ofNumber n).number = n % 7 := by
  unfold ofNumber
  repeat' split
  all_goals
    simp only [number]
    omega

theorem number_inj {a b : Weekday} : a.number = b.number ↔ a = b :=
  ⟨fun h => by rw [← ofNumber_number a, h, ofNumber_number], fun h => h ▸ rfl⟩

/-- A code reads back as its weekday. -/
theorem ofCode?_code (d : Weekday) : ofCode? d.code.toList = some d := by cases d <;> decide

end Weekday

end RecurringEvents
