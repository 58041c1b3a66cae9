import RecurringEvents.Expansion.Batch
import Mathlib.Data.List.Sigma

/-!
# The expansion of many events

A merge of lists takes the elements of the lists one by one, always from the front of a list. So it
keeps every element and the order of each list, whatever the relation is by which the heap puts a
list in front: nothing here needs that starts are ordered by `Moment.before`, and in a repeated hour
they are not.

* `Interleaves`, `Interleaves.perm`, `Interleaves.sublist`: taking from the fronts of lists.
* `Stream.Holds`: what the heap knows of the lists while it is drained.
* `Stream.merge_interleaves`: merging interleaves.
* `Event.interleaves_of_expandAll`: many events are the events one by one, interleaved.
-/

namespace RecurringEvents

/-! ## Interleaving -/

/-- The elements of the lists taken one by one, each from the front of its list. -/
inductive Interleaves {α : Type} : List (List α) → List α → Prop
  | done {lists : List (List α)} (h : ∀ l ∈ lists, l = []) : Interleaves lists []
  | take {lists : List (List α)} {i : Nat} {a : α} {l taken : List α}
      (hi : lists[i]? = some (a :: l)) (h : Interleaves (lists.set i l) taken) :
      Interleaves lists (a :: taken)

namespace Interleaves

variable {α : Type} {lists : List (List α)} {taken : List α}

/-- Taking from the front of a list takes the element out of all elements. -/
theorem flatten_perm_cons {i : Nat} {a : α} {l : List α} (hi : lists[i]? = some (a :: l)) :
    lists.flatten.Perm (a :: (lists.set i l).flatten) := by
  induction lists generalizing i with
  | nil => simp at hi
  | cons first others ih =>
    cases i with
    | zero =>
      obtain rfl : first = a :: l := by simpa using hi
      simp
    | succ i =>
      rw [List.getElem?_cons_succ] at hi
      rw [List.set_cons_succ, List.flatten_cons, List.flatten_cons]
      exact ((ih hi).append_left first).trans List.perm_middle

/-- An interleaving has the elements of the lists, each as often. -/
theorem perm (h : Interleaves lists taken) : taken.Perm lists.flatten := by
  induction h with
  | done h => rw [List.flatten_eq_nil_iff.2 h]
  | take hi _ ih => exact (ih.cons _).trans (flatten_perm_cons hi).symm

/-- An interleaving keeps the order of each list. -/
theorem sublist (h : Interleaves lists taken) {l : List α} (hl : l ∈ lists) :
    l.Sublist taken := by
  obtain ⟨j, hj⟩ := List.mem_iff_getElem?.1 hl
  clear hl
  induction h generalizing l with
  | done h =>
    obtain rfl := h l (List.mem_of_getElem? hj)
    exact List.nil_sublist _
  | @take lists i a rest taken hi _ ih =>
    by_cases hij : i = j
    · subst hij
      obtain rfl : a :: rest = l := Option.some.inj (hi.symm.trans hj)
      refine (ih ?_).cons_cons a
      rw [List.getElem?_set_self (List.getElem?_eq_some_iff.1 hi).1]
    · exact (ih (by rwa [List.getElem?_set_ne hij])).cons a

end Interleaves

/-! ## What the heap holds -/

namespace Stream

variable {s : Stream} {rest : List Stream} {lists : List (List Occurrence)}

/-- A stream for every list that is not empty, each once. -/
structure Holds (h : List Stream) (lists : List (List Occurrence)) : Prop where
  nodup : h.Nodup
  mem_iff : ∀ s, s ∈ h ↔ lists[s.order]? = some (s.head :: s.tail)

theorem mem_ofLists_iff : s ∈ ofLists lists ↔ lists[s.order]? = some (s.head :: s.tail) := by
  rw [← List.mk_mem_zipIdx_iff_getElem?, ofLists, List.mem_filterMap]
  constructor
  · rintro ⟨⟨l, i⟩, hl, hs⟩
    cases l with
    | nil => cases hs
    | cons o os =>
      cases hs
      exact hl
  · intro hs
    exact ⟨_, hs, rfl⟩

theorem holds_ofLists (lists : List (List Occurrence)) : Holds (ofLists lists) lists where
  nodup := by
    refine List.Nodup.filterMap ?_ (List.nodup_zipIdx_map_snd lists).of_map
    rintro ⟨_ | ⟨o, os⟩, i⟩ ⟨_ | ⟨o', os'⟩, i'⟩ s hs hs' <;> cases hs <;> cases hs'
    rfl
  mem_iff _ := mem_ofLists_iff

theorem Holds.of_perm {h h' : List Stream} (hp : h'.Perm h) (hh : Holds h lists) :
    Holds h' lists :=
  ⟨hp.nodup_iff.2 hh.nodup, fun s => hp.mem_iff.trans (hh.mem_iff s)⟩

/-- The streams behind the first one are those of the other lists. -/
theorem Holds.mem_rest_iff (hh : Holds (s :: rest) lists) (t : Stream) :
    t ∈ rest ↔ s.order ≠ t.order ∧ lists[t.order]? = some (t.head :: t.tail) := by
  constructor
  · intro ht
    have htl := (hh.mem_iff t).1 (.tail s ht)
    refine ⟨fun heq => ?_, htl⟩
    have hsl := (hh.mem_iff s).1 (.head rest)
    rw [heq, htl] at hsl
    have hts : t = s := by
      cases s
      cases t
      simp_all
    exact (List.nodup_cons.1 hh.nodup).1 (hts ▸ ht)
  · rintro ⟨hne, htl⟩
    rcases List.mem_cons.1 ((hh.mem_iff t).2 htl) with rfl | ht
    · exact absurd rfl hne
    · exact ht

/-- A list that has been emptied leaves the heap. -/
theorem Holds.drop (hh : Holds (s :: rest) lists) : Holds rest (lists.set s.order []) where
  nodup := hh.nodup.of_cons
  mem_iff t := by
    rw [hh.mem_rest_iff t, List.getElem?_set]
    grind

/-- A list that has been taken from stays in the heap with what is left of it. -/
theorem Holds.replace {o : Occurrence} {os : List Occurrence} (hh : Holds (s :: rest) lists) :
    Holds ({ s with head := o, tail := os } :: rest) (lists.set s.order (o :: os)) where
  nodup := by
    refine List.nodup_cons.2 ⟨fun hs => ?_, hh.nodup.of_cons⟩
    exact ((hh.mem_rest_iff _).1 hs).1 rfl
  mem_iff t := by
    have hlt := (List.getElem?_eq_some_iff.1 ((hh.mem_iff s).1 (.head rest))).1
    rw [List.mem_cons, hh.mem_rest_iff t, List.getElem?_set]
    by_cases heq : s.order = t.order
    · cases t
      grind
    · grind

theorem Holds.eq_nil (hh : Holds [] lists) : ∀ l ∈ lists, l = [] := by
  intro l hl
  obtain ⟨i, hi⟩ := List.mem_iff_getElem?.1 hl
  cases l with
  | nil => rfl
  | cons o os => exact absurd ((hh.mem_iff ⟨i, o, os⟩).2 hi) List.not_mem_nil

/-- The heap after the first occurrence of the list in front has been taken. -/
def takeFirst (h : Array Stream) (s : Stream) : Array Stream :=
  match s.tail with
  | [] => Heap.dropFirst less h
  | o :: os => Heap.replaceFirst less h { s with head := o, tail := os }

theorem drain_succ_of_front {n : Nat} {h : Array Stream} (hs : h[0]? = some s) :
    drain (n + 1) h = s.head :: drain n (takeFirst h s) := by
  simp only [drain, hs]
  rfl

/-- What one step of the drain keeps: the heap holds what is left of the lists. -/
theorem holds_takeFirst {h : Array Stream} (hh : Holds h.toList lists)
    (hs : h.toList = s :: rest) :
    Holds (takeFirst h s).toList (lists.set s.order s.tail) := by
  rw [hs] at hh
  obtain ⟨order, head, _ | ⟨o, os⟩⟩ := s
  · exact hh.drop.of_perm (Heap.dropFirst_perm hs)
  · exact hh.replace.of_perm (Heap.replaceFirst_perm hs _)

/-- **Draining a heap of lists interleaves the lists.** -/
theorem drain_interleaves {n : Nat} {h : Array Stream} (hh : Holds h.toList lists)
    (hn : lists.flatten.length = n) : Interleaves lists (drain n h) := by
  induction n generalizing h lists with
  | zero => exact .done (List.flatten_eq_nil_iff.1 (List.length_eq_zero_iff.1 hn))
  | succ n ih =>
    cases hl : h.toList with
    | nil =>
      obtain rfl : h = #[] := Array.toList_eq_nil_iff.1 hl
      exact .done hh.eq_nil
    | cons s rest =>
      have hfront : h[0]? = some s := by rw [← Array.getElem?_toList, hl, List.getElem?_cons_zero]
      have hlist : lists[s.order]? = some (s.head :: s.tail) := (hh.mem_iff s).1 (hl ▸ .head rest)
      have hleft : (lists.set s.order s.tail).flatten.length = n := by
        have := (Interleaves.flatten_perm_cons hlist).length_eq
        rw [hn, List.length_cons] at this
        omega
      rw [drain_succ_of_front hfront]
      exact .take hlist (ih (holds_takeFirst hh hl) hleft)

/-- **Merging lists interleaves them.** -/
theorem merge_interleaves (lists : List (List Occurrence)) : Interleaves lists (merge lists) :=
  drain_interleaves ((holds_ofLists lists).of_perm (Heap.ofArray_perm less _).toList) rfl

end Stream

/-! ## Many events -/

namespace Event

variable {limits : Limits} {q : Query}

/-- Whether a record is an event that can be expanded. -/
def CanExpand [ZoneDatabase] (limits : Limits) (q : Query) (e : Option Event) : Bool :=
  (e.bind fun e => e.expand? limits q).isSome

theorem expand?_eq_some_iff [ZoneDatabase] {e : Event} {l : List Occurrence} :
    e.expand? limits q = some l ↔ ∃ x, e.expand limits q = .ok x ∧ x.occurrences = l := by
  unfold expand?
  cases e.expand limits q <;> simp

/-- **Many events are the events one by one, interleaved.** Every occurrence of every event that
can be expanded is there once, those of one event in the order in which the event gives them, and
the records that cannot be expanded could as well be left out. -/
theorem interleaves_of_expandAll [ZoneDatabase] (events : List (Option Event)) (limits : Limits)
    (q : Query) :
    let lists := events.filterMap fun e => e.bind fun e => e.expand? limits q
    Interleaves lists (expandAll events limits q) ∧
      (expandAll events limits q).Perm lists.flatten ∧
      (∀ e x, some e ∈ events → e.expand limits q = .ok x →
        x.occurrences.Sublist (expandAll events limits q)) ∧
      expandAll (events.filter (CanExpand limits q)) limits q = expandAll events limits q := by
  intro lists
  have hi : Interleaves lists (expandAll events limits q) := Stream.merge_interleaves lists
  refine ⟨hi, hi.perm, ?_, ?_⟩
  · intro e x he hx
    exact hi.sublist (List.mem_filterMap.2 ⟨some e, he, expand?_eq_some_iff.2 ⟨x, hx, rfl⟩⟩)
  · have hlists : (events.filter (CanExpand limits q)).filterMap
        (fun e => e.bind fun e => e.expand? limits q) = lists := by
      rw [List.filterMap_filter]
      refine List.filterMap_congr fun e _ => ?_
      cases h : e.bind fun e => e.expand? limits q <;> simp [CanExpand, h]
    rw [expandAll, hlists, expandAll]

end Event

end RecurringEvents
