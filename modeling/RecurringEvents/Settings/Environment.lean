/-!
# Environments

The variables of a process: a text for each name that is set. The last assignment counts.

* `get?_set_self`, `get?_set_of_ne`: what an assignment changes.
-/

namespace RecurringEvents

/-- A list without the entries of one key has the same values for the others. -/
theorem lookup_filter_of_ne {α β : Type} [DecidableEq α] [BEq α] [LawfulBEq α]
    {entries : List (α × β)} {key other : α} (h : other ≠ key) :
    (entries.filter fun e => e.1 ≠ key).lookup other = entries.lookup other := by
  induction entries with
  | nil => rfl
  | cons e es ih =>
    obtain ⟨k, v⟩ := e
    by_cases hk : k = key
    · have ho : (other == k) = false := beq_eq_false_iff_ne.2 (hk ▸ h)
      rw [List.filter_cons_of_neg (by simpa using hk), ih, List.lookup_cons, ho]
    · rw [List.filter_cons_of_pos (by simpa using hk), List.lookup_cons, List.lookup_cons, ih]

/-- The variables that are set, each name once. -/
structure Environment where
  vars : List (String × String) := []
  deriving Repr, DecidableEq

namespace Environment

/-- The value of a variable, if it is set. -/
def get? (e : Environment) (name : String) : Option String := e.vars.lookup name

/-- Whether a variable is set, be it to the empty text. -/
def isSet (e : Environment) (name : String) : Bool := (e.get? name).isSome

/-- The value of a variable; an unset one counts as empty. -/
def getText (e : Environment) (name : String) : String := (e.get? name).getD ""

/-- Removes a variable. -/
def unset (e : Environment) (name : String) : Environment :=
  ⟨e.vars.filter fun v => v.1 ≠ name⟩

/-- Sets a variable. -/
def set (e : Environment) (name value : String) : Environment :=
  ⟨(name, value) :: (e.unset name).vars⟩

@[simp] theorem get?_set_self (e : Environment) (name value : String) :
    (e.set name value).get? name = some value := by
  simp [get?, set]

theorem get?_unset_of_ne (e : Environment) {name other : String} (h : other ≠ name) :
    (e.unset name).get? other = e.get? other :=
  lookup_filter_of_ne h

theorem get?_set_of_ne (e : Environment) (value : String) {name other : String} (h : other ≠ name) :
    (e.set name value).get? other = e.get? other := by
  have : (other == name) = false := by simpa using h
  simpa [get?, set, List.lookup_cons, this] using e.get?_unset_of_ne h

end Environment

end RecurringEvents
