import RecurringEvents.Text.Blank
import RecurringEvents.Text.Split
import RecurringEvents.Text.Upper

/-!
# The fields of a rule text

A rule text is a list of `KEY=value` segments with semicolons between them, and may begin with
`RRULE:`. Keys are in either case. Segments without `=` or without a key are skipped. A key that
comes again keeps its place and takes the new value.

* `keys_put`: putting a field adds its key at the end, unless it is there.
* `lookup_put_self`, `lookup_put_of_ne`: what a key has after a put.
-/

namespace RecurringEvents

/-- Keys and values of a rule text, each key once. -/
abbrev Fields : Type := List (List Char × List Char)

namespace Fields

open Text

/-- Gives a key a value: in its place if it is there, else at the end. -/
def put (key value : List Char) : Fields → Fields
  | [] => [(key, value)]
  | f :: fs => if f.1 = key then (key, value) :: fs else f :: put key value fs

/-- The key and the value of a segment, if it has both an `=` and a key. -/
def ofSegment? (segment : List Char) : Option (List Char × List Char) :=
  match cut? '=' segment with
  | none => none
  | some (k, v) =>
    let key := upper (trim k)
    if key = [] then none else some (key, trim v)

/-- Puts the field of a segment, if it has one. -/
def putSegment (fs : Fields) (segment : List Char) : Fields :=
  match ofSegment? segment with
  | none => fs
  | some (k, v) => put k v fs

/-- The word that may come before the fields. -/
def mark : List Char := "RRULE:".toList

/-- A text without the white space around it and without the word before the fields. -/
def body (text : List Char) : List Char :=
  let s := trim text
  if mark.isPrefixOf (upper s) then s.drop mark.length else s

/-- The fields of a rule text. -/
def ofText (text : List Char) : Fields := (splitOn ';' (body text)).foldl putSegment []

/-- The value of a key. -/
def value? (key : String) (fs : Fields) : Option (List Char) := fs.lookup key.toList

theorem keys_put (key value : List Char) (fs : Fields) :
    (put key value fs).map Prod.fst
      = if key ∈ fs.map Prod.fst then fs.map Prod.fst else fs.map Prod.fst ++ [key] := by
  induction fs with
  | nil => simp [put]
  | cons f fs ih =>
    by_cases h : f.1 = key
    · simp [put, h]
    · rw [put, if_neg h, List.map_cons, ih]
      by_cases hm : key ∈ fs.map Prod.fst <;> simp [hm, Ne.symm h]

theorem lookup_put_self (key value : List Char) (fs : Fields) :
    (put key value fs).lookup key = some value := by
  induction fs with
  | nil => simp [put]
  | cons f fs ih =>
    obtain ⟨k, v⟩ := f
    by_cases h : k = key
    · simp [put, h]
    · have : (key == k) = false := by simpa using Ne.symm h
      rw [put, if_neg h, List.lookup_cons, this, ih]

theorem lookup_put_of_ne {key other : List Char} (value : List Char) (fs : Fields)
    (h : other ≠ key) : (put key value fs).lookup other = fs.lookup other := by
  have hk : (other == key) = false := by simpa using h
  induction fs with
  | nil => simp [put, List.lookup_cons, hk]
  | cons f fs ih =>
    obtain ⟨k, v⟩ := f
    by_cases hf : k = key
    · subst hf
      simp [put, List.lookup_cons, hk]
    · rw [put, if_neg hf, List.lookup_cons, List.lookup_cons, ih]

end Fields

end RecurringEvents
