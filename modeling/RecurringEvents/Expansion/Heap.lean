/-!
# Binary heaps in arrays

A heap keeps an element that is less than no other in front. The children of place `i` are at
`2 * i + 1` and `2 * i + 2`. An element that is put at a place first sinks to a leaf, the smaller
child moving up at every step, and then rises again as far as it is less than its parent. The
relation need not be an order; which element comes out next then depends on this way of moving.

* `settle_perm`, `ofArray_perm`: moving loses and doubles nothing.
* `replaceFirst_perm`, `dropFirst_perm`: only the first element goes.
-/

namespace RecurringEvents.Heap

variable {α : Type}

/-- The smaller of the children of a place; the right one unless the left one is less. -/
def smallerChild? (less : α → α → Bool) (h : Array α) (i : Nat) : Option Nat :=
  let left := 2 * i + 1
  let right := left + 1
  match h[left]?, h[right]? with
  | some a, some b => some (if less a b then left else right)
  | some _, none => some left
  | none, _ => none

theorem smallerChild?_bounds {less : α → α → Bool} {h : Array α} {i c : Nat}
    (hc : smallerChild? less h i = some c) : i < c ∧ c < h.size := by
  unfold smallerChild? at hc
  simp only at hc
  split at hc
  · next h1 h2 =>
    obtain ⟨h1, _⟩ := Array.getElem?_eq_some_iff.1 h1
    obtain ⟨h2, _⟩ := Array.getElem?_eq_some_iff.1 h2
    split at hc <;> cases hc <;> omega
  · next h1 _ =>
    obtain ⟨h1, _⟩ := Array.getElem?_eq_some_iff.1 h1
    cases hc
    omega
  · simp at hc

/-- Lets the element at a place sink to a leaf, and tells which one. -/
def sink (less : α → α → Bool) (h : Array α) (i : Nat) : Array α × Nat :=
  match hc : smallerChild? less h i with
  | none => (h, i)
  | some c =>
    sink less (h.swap i c (by have := smallerChild?_bounds hc; omega) (smallerChild?_bounds hc).2) c
termination_by h.size - i
decreasing_by
  have hb := smallerChild?_bounds hc
  simp only [Array.size_swap]
  omega

/-- Lets the element at a place rise as far as it is less than its parent, up to `top`. -/
def rise (less : α → α → Bool) (h : Array α) (top i : Nat) : Array α :=
  if hi : top < i ∧ i < h.size then
    let parent := (i - 1) / 2
    have hp : parent < h.size := by omega
    if less h[i] h[parent] then
      rise less (h.swap i parent hi.2 (by omega)) top parent
    else h
  else h
termination_by i
decreasing_by omega

/-- Finds the place of an element that was put at place `i`. -/
def settle (less : α → α → Bool) (h : Array α) (i : Nat) : Array α :=
  let (h, leaf) := sink less h i
  rise less h i leaf

/-- Settles the elements at the places below `n`, from the last to the first. -/
def settleBelow (less : α → α → Bool) : Nat → Array α → Array α
  | 0, h => h
  | n + 1, h => settleBelow less n (settle less h n)

/-- The heap of the elements of an array. -/
def ofArray (less : α → α → Bool) (h : Array α) : Array α := settleBelow less (h.size / 2) h

/-- Puts another element in the place of the first. -/
def replaceFirst (less : α → α → Bool) (h : Array α) (a : α) : Array α :=
  settle less (h.setIfInBounds 0 a) 0

/-- Removes the first element. -/
def dropFirst (less : α → α → Bool) (h : Array α) : Array α :=
  match h.back? with
  | none => h
  | some last =>
    let rest := h.pop
    if rest.isEmpty then rest else replaceFirst less rest last

theorem sink_perm (less : α → α → Bool) (h : Array α) (i : Nat) : (sink less h i).1.Perm h := by
  fun_induction sink less h i with
  | case1 => exact .refl _
  | case2 h i c hc ih => exact ih.trans (Array.swap_perm _ _)

theorem rise_perm (less : α → α → Bool) (h : Array α) (top i : Nat) :
    (rise less h top i).Perm h := by
  fun_induction rise less h top i with
  | case1 h i hi parent hp hl ih => exact ih.trans (Array.swap_perm _ _)
  | case2 => exact .refl _
  | case3 => exact .refl _

/-- Settling an element only moves elements. -/
theorem settle_perm (less : α → α → Bool) (h : Array α) (i : Nat) : (settle less h i).Perm h :=
  (rise_perm less _ i _).trans (sink_perm less h i)

theorem settleBelow_perm (less : α → α → Bool) (n : Nat) (h : Array α) :
    (settleBelow less n h).Perm h := by
  induction n generalizing h with
  | zero => exact .refl _
  | succ n ih => exact (ih _).trans (settle_perm less h n)

/-- A heap has the elements of the array it was made of. -/
theorem ofArray_perm (less : α → α → Bool) (h : Array α) : (ofArray less h).Perm h :=
  settleBelow_perm less _ h

/-- What replaces the first element joins the others. -/
theorem replaceFirst_perm {less : α → α → Bool} {h : Array α} {first : α} {others : List α}
    (hh : h.toList = first :: others) (a : α) :
    (replaceFirst less h a).toList.Perm (a :: others) := by
  have hset : (h.setIfInBounds 0 a).toList = a :: others := by
    rw [Array.toList_setIfInBounds, hh, List.set_cons_zero]
  exact hset ▸ (settle_perm less _ 0).toList

/-- Dropping the first element leaves the others. -/
theorem dropFirst_perm {less : α → α → Bool} {h : Array α} {first : α} {others : List α}
    (hh : h.toList = first :: others) : (dropFirst less h).toList.Perm others := by
  have hpop : h.pop.toList = (first :: others).dropLast := by rw [Array.toList_pop, hh]
  have hback : h.back? = (first :: others).getLast? := by rw [← hh, Array.getLast?_toList]
  unfold dropFirst
  rcases List.eq_nil_or_concat others with rfl | ⟨init, last, rfl⟩
  · have hempty : h.pop = #[] := Array.toList_inj.1 hpop
    simp [hback, hempty]
  · simp only [List.concat_eq_append, ← List.cons_append, List.dropLast_concat,
      List.getLast?_concat] at hpop hback ⊢
    have hne : h.pop.isEmpty = false := by rw [← Array.isEmpty_toList, hpop, List.isEmpty_cons]
    simp only [hback, hne, Bool.false_eq_true, if_false]
    exact (replaceFirst_perm hpop last).trans (List.perm_append_singleton last init).symm

end RecurringEvents.Heap
