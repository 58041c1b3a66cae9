import RecurringEvents.Text.Integer

/-!
# Ordinals and lists in English

`1st`, `2nd`, `last`, `2nd to last`; and `Mon, Tue and Wed`.
-/

namespace RecurringEvents.Text

/-- The suffix of an English ordinal; the sign does not count. -/
def ordinalSuffix (n : Int) : List Char :=
  let v := n.natAbs % 100
  if 11 ≤ v ∧ v ≤ 13 then "th".toList
  else if v % 10 = 1 then "st".toList
  else if v % 10 = 2 then "nd".toList
  else if v % 10 = 3 then "rd".toList
  else "th".toList

/-- An ordinal that counts from the front, or from the back if it is negative. -/
def ordinalWord (n : Int) : List Char :=
  if n = -1 then "last".toList
  else if n < 0 then integer (-n) ++ ordinalSuffix n ++ " to last".toList
  else integer n ++ ordinalSuffix n

/-- Words with commas, and `and` before the last one. -/
def enumeration : List (List Char) → List Char
  | [] => []
  | [w] => w
  | [v, w] => v ++ " and ".toList ++ w
  | u :: v :: w :: ws => u ++ ", ".toList ++ enumeration (v :: w :: ws)

/-- The suffix does not depend on the sign. -/
theorem ordinalSuffix_neg (n : Int) : ordinalSuffix (-n) = ordinalSuffix n := by
  simp [ordinalSuffix]

end RecurringEvents.Text
