import RecurringEvents.Calendar.Month
import RecurringEvents.Proofs.Outcome

/-!
# Counting months

Months follow each other like whole numbers: twelve months are a year, and the month before January
is in the year before. To add a relative number of months to the first of a month is to count on
from it, or back if the number is negative; the day never has to be moved, since every month has a
first. So two additions are one, and one is undone by adding the opposite number, as long as no year
before 1 or after 9999 is come to.

* `shiftMonth_eq_iff`: the month to which one counts.
* `addMonths_eq_ok_iff`: when there is such a month.
* `addMonths_add`, `addMonths_neg`: two additions.
-/

namespace RecurringEvents

variable {year month n y m : Int}

/-- **The month `n` months after a month** is the one to which one counts `n` months. -/
theorem shiftMonth_eq_iff : shiftMonth year month n = (y, m) ↔
    (1 ≤ m ∧ m ≤ 12) ∧ 12 * y + m = 12 * year + month + n := by
  simp only [shiftMonth, Prod.mk.injEq]
  omega

theorem checkYear_eq_ok_iff : checkYear year = .ok () ↔ 1 ≤ year ∧ year ≤ 9999 := by
  unfold checkYear
  split
  · exact iff_of_false (by simp) (by omega)
  · split
    · exact iff_of_false (by simp) (by omega)
    · exact iff_of_true rfl (by omega)

/-- From a month of the years 1 to 9999 it only counts where one comes to. -/
theorem addMonths_of_month (hyear : 1 ≤ year ∧ year ≤ 9999) (hmonth : 1 ≤ month ∧ month ≤ 12) :
    addMonths year month n
      = (checkYear (shiftMonth year month n).1).map fun _ => shiftMonth year month n := by
  rw [addMonths, checkYear_eq_ok_iff.2 hyear]
  show (if month < 1 ∨ 12 < month then _ else _) = _
  rw [if_neg (by omega)]
  cases checkYear (shiftMonth year month n).1 <;> rfl

/-- **Months are added to a month of the years 1 to 9999**, exactly if these years have the month to
which one counts. -/
theorem addMonths_eq_ok_iff : addMonths year month n = .ok (y, m) ↔
    (1 ≤ year ∧ year ≤ 9999) ∧ (1 ≤ month ∧ month ≤ 12) ∧
      (1 ≤ y ∧ y ≤ 9999) ∧ (1 ≤ m ∧ m ≤ 12) ∧ 12 * y + m = 12 * year + month + n := by
  constructor
  · intro h
    obtain ⟨⟨⟩, hyear, h'⟩ := bind_eq_ok_iff.1 h
    have hmonth : 1 ≤ month ∧ month ≤ 12 := by
      split at h'
      · cases h'
      · omega
    rw [addMonths_of_month (checkYear_eq_ok_iff.1 hyear) hmonth] at h
    obtain ⟨⟨⟩, hresult, hshifted⟩ := map_eq_ok_iff.1 h
    rw [hshifted] at hresult
    exact ⟨checkYear_eq_ok_iff.1 hyear, hmonth, checkYear_eq_ok_iff.1 hresult,
      shiftMonth_eq_iff.1 hshifted⟩
  · rintro ⟨hyear, hmonth, hresult, hshifted⟩
    rw [addMonths_of_month hyear hmonth, shiftMonth_eq_iff.2 hshifted]
    exact map_eq_ok_iff.2 ⟨(), checkYear_eq_ok_iff.2 hresult, rfl⟩

/-- **Two additions are one**, if the first comes to a month. -/
theorem addMonths_add (h : addMonths year month n = .ok (y, m)) (k : Int) :
    addMonths y m k = addMonths year month (n + k) := by
  obtain ⟨hyear, hmonth, hresult, hshifted⟩ := addMonths_eq_ok_iff.1 h
  rw [addMonths_of_month hresult hshifted.1, addMonths_of_month hyear hmonth, ← shiftMonth_add,
    shiftMonth_eq_iff.2 hshifted]

/-- **An addition is undone** by adding the opposite number. -/
theorem addMonths_neg (h : addMonths year month n = .ok (y, m)) :
    addMonths y m (-n) = .ok (year, month) := by
  obtain ⟨hyear, hmonth, hresult, hm, hcount⟩ := addMonths_eq_ok_iff.1 h
  exact addMonths_eq_ok_iff.2 ⟨hresult, hm, hyear, hmonth, by omega⟩

end RecurringEvents
