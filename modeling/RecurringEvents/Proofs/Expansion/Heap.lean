import RecurringEvents.Expansion.Heap

/-!
# The front of a heap

A heap is in order if no element has a smaller key than its parent. An element that is settled first
sinks, and then it may be out of order with its parent and its children only; it ends at a leaf, and
rising from there it may be out of order with its parent only. So settling one element after another
makes a heap, and what comes out of it in front has the smallest key.

The relation that the heap goes by need not be an order. It is enough that it does not contradict
the keys of the elements in the heap; it may decide between equal keys as it likes.

* `Follows`, `IsOrdered`: a relation that goes by keys, and a heap in order.
* `Hole.move`, `Rising.move`: one swap downwards and one upwards.
* `isOrdered_settle`: an element that finds its place.
* `isOrdered_ofArray`, `isOrdered_replaceFirst`, `isOrdered_dropFirst`: the operations.
* `IsOrdered.front_le`: the element in front.
-/

namespace RecurringEvents.Heap

variable {α : Type} {less : α → α → Bool} {key : α → Int} {h : Array α} {as bs : List α}
  {lo i p c : Nat}

/-- Whether a relation goes by the keys of some elements. -/
def Follows (less : α → α → Bool) (key : α → Int) (as : List α) : Prop :=
  ∀ a ∈ as, ∀ b ∈ as, (less a b = true → key a ≤ key b) ∧ (less a b = false → key b ≤ key a)

theorem Follows.of_subset (hf : Follows less key as) (hs : bs ⊆ as) : Follows less key bs :=
  fun a ha b hb => hf a (hs ha) b (hs hb)

theorem Follows.of_perm {h' : Array α} (hf : Follows less key h.toList) (hp : h'.Perm h) :
    Follows less key h'.toList :=
  hf.of_subset hp.toList.subset

/-- Whether the place `c` is a child of the place `p`. -/
def IsChild (c p : Nat) : Prop := c = 2 * p + 1 ∨ c = 2 * p + 2

theorem IsChild.lt (hc : IsChild c p) : p < c := by
  unfold IsChild at hc
  omega

/-- A place is the child of one place at most. -/
theorem IsChild.parent_eq {q : Nat} (hp : IsChild c p) (hq : IsChild c q) : p = q := by
  unfold IsChild at hp hq
  omega

/-- Whether no child of a place from `lo` on has a smaller key than that place. -/
def IsOrdered (key : α → Int) (lo : Nat) (h : Array α) : Prop :=
  ∀ p c, (hp : p < h.size) → (hc : c < h.size) → lo ≤ p → IsChild c p → key h[p] ≤ key h[c]

/-- **In a heap in order the element in front has the smallest key.** -/
theorem IsOrdered.front_le (ho : IsOrdered key 0 h) (h0 : 0 < h.size) (i : Nat) (hi : i < h.size) :
    key h[0] ≤ key h[i] := by
  induction i using Nat.strongRecOn with
  | ind i ih =>
    rcases Nat.eq_zero_or_pos i with rfl | hpos
    · exact Int.le_refl _
    · have hparent : IsChild i ((i - 1) / 2) := by
        unfold IsChild
        omega
      exact Int.le_trans (ih _ hparent.lt (by omega)) (ho _ i (by omega) hi (Nat.zero_le _) hparent)

/-! ## Sinking -/

/-- Whether a place is `top` or comes from it by going to children. -/
inductive IsUnder (top : Nat) : Nat → Prop
  | self : IsUnder top top
  | child {p c : Nat} (hp : IsUnder top p) (hc : IsChild c p) : IsUnder top c

theorem IsUnder.le (hu : IsUnder lo i) : lo ≤ i := by
  induction hu with
  | self => exact Nat.le_refl lo
  | child hp hc ih => exact Nat.le_trans ih (Nat.le_of_lt hc.lt)

/-- The parent of a place under `top` is under `top`, too. -/
theorem IsUnder.parent (hu : IsUnder lo i) (hlt : lo < i) (hp : IsChild i p) : IsUnder lo p := by
  cases hu with
  | self => exact absurd hlt (Nat.lt_irrefl lo)
  | child hq hc =>
    obtain rfl := hp.parent_eq hc
    exact hq

/-- From `lo` on, only the place `hole` may be out of order, and its children are in order with its
parent. -/
structure Hole (key : α → Int) (lo hole : Nat) (h : Array α) : Prop where
  under : IsUnder lo hole
  apart : ∀ p c, (hp : p < h.size) → (hc : c < h.size) → lo ≤ p → IsChild c p → p ≠ hole →
    c ≠ hole → key h[p] ≤ key h[c]
  around : ∀ p c, (hp : p < h.size) → (hc : c < h.size) → lo ≤ p → IsChild hole p →
    IsChild c hole → key h[p] ≤ key h[c]

/-- The smaller child of a place is one of its children, and none of them has a smaller key. -/
theorem of_smallerChild?_eq_some (hf : Follows less key h.toList)
    (hc : smallerChild? less h i = some c) : ∃ h' : c < h.size, IsChild c i ∧
      ∀ s, (hs : s < h.size) → IsChild s i → key h[c] ≤ key h[s] := by
  unfold smallerChild? at hc
  simp only at hc
  split at hc
  · next a b ha hb =>
    obtain ⟨hl, rfl⟩ := Array.getElem?_eq_some_iff.1 ha
    obtain ⟨hr, rfl⟩ := Array.getElem?_eq_some_iff.1 hb
    have hboth := hf _ (Array.getElem_mem_toList hl) _ (Array.getElem_mem_toList hr)
    split at hc
    · next hless =>
      cases hc
      refine ⟨hl, Or.inl rfl, fun s hs hchild => ?_⟩
      rcases hchild with rfl | rfl
      · exact Int.le_refl _
      · exact hboth.1 hless
    · next hless =>
      cases hc
      refine ⟨hr, Or.inr rfl, fun s hs hchild => ?_⟩
      rcases hchild with rfl | rfl
      · exact hboth.2 ((Bool.not_eq_true _).mp hless)
      · exact Int.le_refl _
  · next a ha hb =>
    obtain ⟨hl, rfl⟩ := Array.getElem?_eq_some_iff.1 ha
    have hnone := Array.getElem?_eq_none_iff.1 hb
    cases hc
    refine ⟨hl, Or.inl rfl, fun s hs hchild => ?_⟩
    rcases hchild with rfl | rfl
    · exact Int.le_refl _
    · omega
  · cases hc

theorem size_le_of_smallerChild?_eq_none (hc : smallerChild? less h i = none) (hs : IsChild c i) :
    h.size ≤ c := by
  unfold smallerChild? at hc
  simp only at hc
  split at hc
  · split at hc <;> cases hc
  · cases hc
  · next ha =>
    have := Array.getElem?_eq_none_iff.1 ha
    unfold IsChild at hs
    omega

/-- **One swap downwards.** The hole moves to the smaller child, which is in order where the hole
was. -/
theorem Hole.move (hh : Hole key lo i h) (hi : i < h.size) (hc : c < h.size) (hchild : IsChild c i)
    (hmin : ∀ s, (hs : s < h.size) → IsChild s i → key h[c] ≤ key h[s]) :
    Hole key lo c (h.swap i c hi hc) := by
  have hlt := hchild.lt
  have hsize : (h.swap i c hi hc).size = h.size := Array.size_swap
  refine ⟨.child hh.under hchild, fun p s hp hs hlo hsp hpc hsc => ?_,
    fun p s hp hs hlo hcp hsc => ?_⟩
  · have hlt' := hsp.lt
    by_cases hpi : p = i
    · subst hpi
      rw [Array.getElem_swap_left, Array.getElem_swap_of_ne (by omega) hsc]
      exact hmin s (by omega) hsp
    · rw [Array.getElem_swap_of_ne hpi hpc]
      by_cases hsi : s = i
      · subst hsi
        rw [Array.getElem_swap_left]
        exact hh.around p c (by omega) hc hlo hsp hchild
      · rw [Array.getElem_swap_of_ne hsi hsc]
        exact hh.apart p s (by omega) (by omega) hlo hsp hpi hsi
  · have hlt' := hsc.lt
    obtain rfl := hcp.parent_eq hchild
    rw [Array.getElem_swap_left, Array.getElem_swap_of_ne (by omega) (by omega)]
    exact hh.apart c s hc (by omega) (by omega) hsc (by omega) (by omega)

/-- **An element that sinks ends at a leaf**, and the rest stays in order. -/
theorem Hole.sink (hf : Follows less key h.toList) (hh : Hole key lo i h) :
    Hole key lo (Heap.sink less h i).2 (Heap.sink less h i).1 ∧
      ∀ c, IsChild c (Heap.sink less h i).2 → (Heap.sink less h i).1.size ≤ c := by
  fun_induction Heap.sink less h i with
  | case1 h i hnone => exact ⟨hh, fun c hc => size_le_of_smallerChild?_eq_none hnone hc⟩
  | case2 h i c hsome ih =>
    obtain ⟨hc, hchild, hmin⟩ := of_smallerChild?_eq_some hf hsome
    exact ih (hf.of_perm (Array.swap_perm _ _)) (hh.move _ hc hchild hmin)

/-! ## Rising -/

/-- From `lo` on, only the place `i` and its parent may be out of order, and the children of `i` are
in order with both. -/
structure Rising (key : α → Int) (lo i : Nat) (h : Array α) : Prop extends Hole key lo i h where
  below : ∀ c, (hi : i < h.size) → (hc : c < h.size) → IsChild c i → key h[i] ≤ key h[c]

/-- **One swap upwards.** -/
theorem Rising.move (hr : Rising key lo i h) (hp : p < h.size) (hi : i < h.size) (hlt : lo < i)
    (hchild : IsChild i p) (hle : key h[i] ≤ key h[p]) : Rising key lo p (h.swap i p hi hp) := by
  have hunder := hr.under.parent hlt hchild
  have hlo := hunder.le
  have hpi := hchild.lt
  have hsize : (h.swap i p hi hp).size = h.size := Array.size_swap
  -- a sibling was in order with the parent
  have hsibling : ∀ s, (hs : s < h.size) → IsChild s p → s ≠ i → key h[p] ≤ key h[s] :=
    fun s hs hsp hsi => hr.apart p s hp hs hlo hsp (by omega) hsi
  refine ⟨⟨hunder, fun q s hq hs hloq hsq hqp hsp => ?_, fun q s hq hs hloq hpq hsp => ?_⟩,
    fun s _ hs hsp => ?_⟩
  · have hlt' := hsq.lt
    by_cases hqi : q = i
    · subst hqi
      rw [Array.getElem_swap_left, Array.getElem_swap_of_ne (by omega) hsp]
      exact hr.around p s hp (by omega) hlo hchild hsq
    · have hsi : s ≠ i := by
        rintro rfl
        exact hqp (hsq.parent_eq hchild)
      rw [Array.getElem_swap_of_ne hqi hqp, Array.getElem_swap_of_ne hsi hsp]
      exact hr.apart q s (by omega) (by omega) hloq hsq hqi hsi
  · have hlt' := hpq.lt
    have hlt'' := hsp.lt
    have habove : key h[q] ≤ key h[p] := hr.apart q p (by omega) hp hloq hpq (by omega) (by omega)
    rw [Array.getElem_swap_of_ne (by omega) (by omega)]
    by_cases hsi : s = i
    · subst hsi
      rw [Array.getElem_swap_left]
      exact habove
    · rw [Array.getElem_swap_of_ne hsi (by omega)]
      exact Int.le_trans habove (hsibling s (by omega) hsp hsi)
  · have hlt' := hsp.lt
    rw [Array.getElem_swap_right]
    by_cases hsi : s = i
    · subst hsi
      rw [Array.getElem_swap_left]
      exact hle
    · rw [Array.getElem_swap_of_ne hsi (by omega)]
      exact Int.le_trans hle (hsibling s (by omega) hsp hsi)

/-- Where an element is in order with its parent, all is in order. -/
theorem Rising.isOrdered (hr : Rising key lo i h)
    (hstop : ∀ p, (hp : p < h.size) → (hi : i < h.size) → lo < i → IsChild i p →
      key h[p] ≤ key h[i]) : IsOrdered key lo h := by
  intro p c hp hc hlo hchild
  by_cases hpi : p = i
  · subst hpi
    exact hr.below c hp hc hchild
  · by_cases hci : c = i
    · subst hci
      have hlt := hchild.lt
      exact hstop p hp hc (by omega) hchild
    · exact hr.apart p c hp hc hlo hchild hpi hci

/-- **An element that rises from a place where its children are in order ends in order.** -/
theorem Rising.isOrdered_rise (hf : Follows less key h.toList) (hr : Rising key lo i h) :
    IsOrdered key lo (rise less h lo i) := by
  have hboth : ∀ {h : Array α} {i p : Nat}, Follows less key h.toList → (hp : p < h.size) →
      (hi : i < h.size) → (less h[i] h[p] = true → key h[i] ≤ key h[p]) ∧
        (less h[i] h[p] = false → key h[p] ≤ key h[i]) :=
    fun hf hp hi => hf _ (Array.getElem_mem_toList hi) _ (Array.getElem_mem_toList hp)
  fun_induction rise less h lo i with
  | case1 h i hi parent hp hless ih =>
    have hchild : IsChild i parent := by unfold IsChild; omega
    exact ih (hf.of_perm (Array.swap_perm _ _))
      (hr.move hp hi.2 hi.1 hchild ((hboth hf hp hi.2).1 hless))
  | case2 h i hi parent hp hless =>
    refine hr.isOrdered fun p hp' hi' _ hchild => ?_
    obtain rfl : p = parent := hchild.parent_eq (by unfold IsChild; omega)
    exact (hboth hf hp hi').2 ((Bool.not_eq_true _).mp hless)
  | case3 h i hi => exact hr.isOrdered fun p _ hi' hlt _ => absurd ⟨hlt, hi'⟩ hi

/-! ## The operations -/

/-- **An element finds its place.** -/
theorem isOrdered_settle (hf : Follows less key h.toList) (ho : IsOrdered key (i + 1) h) :
    IsOrdered key i (settle less h i) := by
  have hh : Hole key i i h := by
    refine ⟨.self, fun p c hp hc hlo hchild hpi _ => ho p c hp hc (by omega) hchild,
      fun p c _ _ hlo hchild _ => ?_⟩
    have := hchild.lt
    omega
  obtain ⟨hsunk, hleaf⟩ := hh.sink hf
  refine Rising.isOrdered_rise (hf.of_perm (sink_perm less h i)) ⟨hsunk, fun c _ hc hchild => ?_⟩
  have := hleaf c hchild
  omega

theorem isOrdered_settleBelow {n : Nat} (hf : Follows less key h.toList) (ho : IsOrdered key n h) :
    IsOrdered key 0 (settleBelow less n h) := by
  induction n generalizing h with
  | zero => exact ho
  | succ n ih => exact ih (hf.of_perm (settle_perm less h n)) (isOrdered_settle hf ho)

/-- **A heap that is made of an array is in order.** -/
theorem isOrdered_ofArray (hf : Follows less key h.toList) : IsOrdered key 0 (ofArray less h) := by
  refine isOrdered_settleBelow hf fun p c _ hc hlo hchild => ?_
  -- the places from the middle on have no children
  unfold IsChild at hchild
  omega

/-- **It stays in order when the element in front is replaced.** -/
theorem isOrdered_replaceFirst {a : α} (hf : Follows less key (a :: h.toList))
    (ho : IsOrdered key 0 h) : IsOrdered key 0 (replaceFirst less h a) := by
  refine isOrdered_settle (hf.of_subset fun b hb => ?_) fun p c hp hc hlo hchild => ?_
  · rw [Array.toList_setIfInBounds] at hb
    exact List.mem_cons.2 (List.mem_or_eq_of_mem_set hb).symm
  · have hlt := hchild.lt
    rw [Array.size_setIfInBounds] at hp hc
    rw [Array.getElem_setIfInBounds_ne hp (by omega), Array.getElem_setIfInBounds_ne hc (by omega)]
    exact ho p c hp hc (Nat.zero_le p) hchild

/-- **It stays in order when the element in front is dropped.** -/
theorem isOrdered_dropFirst (hf : Follows less key h.toList) (ho : IsOrdered key 0 h) :
    IsOrdered key 0 (dropFirst less h) := by
  have hpop : IsOrdered key 0 h.pop := by
    intro p c hp hc hlo hchild
    rw [Array.getElem_pop, Array.getElem_pop]
    exact ho p c _ _ hlo hchild
  unfold dropFirst
  split
  · exact ho
  · next last hlast =>
    simp only
    split
    · exact hpop
    · refine isOrdered_replaceFirst (hf.of_subset fun b hb => ?_) hpop
      rcases List.mem_cons.1 hb with rfl | hb
      · exact Array.mem_toList_iff.2 (Array.mem_of_back? hlast)
      · rw [Array.toList_pop] at hb
        exact (List.dropLast_sublist _).subset hb

end RecurringEvents.Heap
