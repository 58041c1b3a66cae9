import RecurringEvents.Proofs.Expansion.Batch
import RecurringEvents.Proofs.Expansion.Heap
import RecurringEvents.Proofs.Expansion.TimeOrder

/-!
# The order of many events

The heap that merges the lists of many events goes by `Moment.before`: by the wall between starts in
one zone, by the instants between starts in two. This is the order of time, whatever zones there
are, as long as no two starts of one zone have the wall and time against each other. In a repeated
hour they have, and then the merged list need not be in the order of time.

* `Moment.Inverts`: two moments with the wall and time against each other.
* `Moment.follows_instant`, `Moment.follows_wall`: what the comparison of moments goes by.
* `Stream.pairwise_merge`: what is merged is in order if the comparison goes by that order.
* `Event.in_order_of_expandAll`: the occurrences of many events.
-/

namespace RecurringEvents

/-! ## The wall and time -/

namespace Moment

variable {m n : Moment} {ms : List Moment}

/-- Whether a moment is no later on the wall of its zone than another one, but later in time. -/
structure Inverts (m n : Moment) : Prop where
  zone : m.zone = n.zone
  wall : m.wall.count ≤ n.wall.count
  later : n.instant < m.instant

/-- Shown moments with the wall and time against each other are in the two passes of an hour. -/
theorem Inverts.crosses (hz : n.zone.IsOrderly) (hm : m.IsReal) (hn : n.IsReal) (h : m.Inverts n) :
    m.Crosses n :=
  (instant_le_or_crosses hz h.zone hm hn h.wall).resolve_left (Int.not_le.2 h.later)

/-- Where the offset does not depend on the pass, the wall and time go together. -/
theorem not_inverts_of_settled (hz : n.zone.IsOrderly) (hm : m.dependsOnPass = false)
    (hn : n.dependsOnPass = false) : ¬m.Inverts n := by
  intro h
  have hz' : m.zone.IsOrderly := h.zone ▸ hz
  have hcross := h.crosses hz (isReal_of_settled hz' hm) (isReal_of_settled hz hn)
  rw [hcross.depends.1] at hm
  cases hm

/-- Of two equal moments neither is before the other. -/
theorem before_eq_false_of_same (h : m.same n = true) :
    m.before n = false ∧ n.before m = false := by
  unfold same at h
  unfold before places
  by_cases hzone : m.zone = n.zone
  · rw [if_pos hzone, beq_iff_eq] at h
    simp [hzone, h]
  · rw [if_neg hzone, Bool.and_eq_true, Bool.and_eq_true, beq_iff_eq] at h
    simp [hzone, Ne.symm hzone, h.1.1]

/-- **Moments are compared by their instants**, if no two of them have the wall and time against
each other. -/
theorem follows_instant (h : ∀ m ∈ ms, ∀ n ∈ ms, ¬m.Inverts n) :
    Heap.Follows before instant ms := by
  intro m hm n hn
  by_cases hzone : m.zone = n.zone
  · rw [before_of_eq hzone, decide_eq_true_eq, decide_eq_false_iff_not]
    refine ⟨fun hlt => Int.not_lt.1 fun hlater => h m hm n hn ⟨hzone, Int.le_of_lt hlt, hlater⟩,
      fun hge => Int.not_lt.1 fun hlater => h n hn m hm ⟨hzone.symm, Int.not_lt.1 hge, hlater⟩⟩
  · rw [before_of_ne hzone, decide_eq_true_eq, decide_eq_false_iff_not]
    exact ⟨Int.le_of_lt, Int.not_lt.1⟩

/-- Moments of one zone are compared by its wall. -/
theorem follows_wall {z : Zone} (h : ∀ m ∈ ms, m.zone = z) :
    Heap.Follows before (fun m => m.wall.count) ms := by
  intro m hm n hn
  rw [before_of_eq ((h m hm).trans (h n hn).symm), decide_eq_true_eq, decide_eq_false_iff_not]
  exact ⟨Int.le_of_lt, Int.not_lt.1⟩

end Moment

/-! ## The merged list -/

namespace Stream

variable {s : Stream} {rest ss : List Stream} {lists : List (List Occurrence)}
  {os : List Occurrence} {o : Occurrence} {k : Moment → Int} {h : Array Stream}

/-- What lists go by in a heap: the start of the first occurrence. -/
def key (k : Moment → Int) (s : Stream) : Int := k s.head.start

/-- Lists are compared as the starts of their first occurrences. -/
theorem follows_less (hf : Heap.Follows Moment.before k (os.map fun o => o.start))
    (hs : ∀ s ∈ ss, s.head ∈ os) : Heap.Follows less (key k) ss := by
  intro a ha b hb
  have hboth := hf _ (List.mem_map_of_mem (hs a ha)) _ (List.mem_map_of_mem (hs b hb))
  have hback := hf _ (List.mem_map_of_mem (hs b hb)) _ (List.mem_map_of_mem (hs a ha))
  unfold less
  by_cases hsame : a.head.start.same b.head.start = true
  · obtain ⟨hnot, hnot'⟩ := Moment.before_eq_false_of_same hsame
    exact ⟨fun _ => hback.2 hnot', fun _ => hboth.2 hnot⟩
  · rw [if_neg hsame]
    exact hboth

/-- What a heap in order has in front is before all that is left of the lists. -/
theorem key_le_of_mem (hh : Holds h.toList lists) (ho : Heap.IsOrdered (key k) 0 h)
    (hl : ∀ l ∈ lists, l.Pairwise fun o o' => k o.start ≤ k o'.start)
    (hs : h[0]? = some s) (hmem : o ∈ lists.flatten) : k s.head.start ≤ k o.start := by
  obtain ⟨h0, rfl⟩ := Array.getElem?_eq_some_iff.1 hs
  obtain ⟨l, hlist, hol⟩ := List.mem_flatten.1 hmem
  obtain ⟨i, hi⟩ := List.mem_iff_getElem?.1 hlist
  cases l with
  | nil => cases hol
  | cons a as =>
    -- the first one of its list is a head in the heap
    have hstream : (⟨i, a, as⟩ : Stream) ∈ h.toList := (hh.mem_iff ⟨i, a, as⟩).2 hi
    obtain ⟨j, hj, hget⟩ := Array.mem_iff_getElem.1 (Array.mem_toList_iff.1 hstream)
    have hfront : k h[0].head.start ≤ k a.start := by
      have := ho.front_le h0 j hj
      rwa [hget] at this
    rcases List.mem_cons.1 hol with rfl | hol
    · exact hfront
    · exact Int.le_trans hfront ((List.pairwise_cons.1 (hl _ hlist)).1 o hol)

/-- **One step of the drain keeps the heap in order.** -/
theorem isOrdered_takeFirst (hh : Holds h.toList lists)
    (hf : Heap.Follows Moment.before k (lists.flatten.map fun o => o.start))
    (ho : Heap.IsOrdered (key k) 0 h) (hs : h.toList = s :: rest) :
    Heap.IsOrdered (key k) 0 (takeFirst h s) := by
  have hheads : ∀ t ∈ h.toList, t.head ∈ lists.flatten := fun t ht =>
    List.mem_flatten.2 ⟨_, List.mem_of_getElem? ((hh.mem_iff t).1 ht), List.mem_cons_self⟩
  have hfront : lists[s.order]? = some (s.head :: s.tail) :=
    (hh.mem_iff s).1 (hs ▸ List.mem_cons_self)
  obtain ⟨order, head, _ | ⟨o, os⟩⟩ := s
  · exact Heap.isOrdered_dropFirst (follows_less hf hheads) ho
  · refine Heap.isOrdered_replaceFirst (follows_less hf (List.forall_mem_cons.2 ⟨?_, hheads⟩)) ho
    exact List.mem_flatten.2 ⟨_, List.mem_of_getElem? hfront, .tail _ List.mem_cons_self⟩

/-- What is left of lists that are in order is in order. -/
theorem pairwise_of_mem_set {R : Occurrence → Occurrence → Prop} {i : Nat} {a : Occurrence}
    {as : List Occurrence} (hl : ∀ l ∈ lists, l.Pairwise R) (hi : lists[i]? = some (a :: as)) :
    ∀ l ∈ lists.set i as, l.Pairwise R := by
  intro l hmem
  rcases List.mem_or_eq_of_mem_set hmem with hmem | rfl
  · exact hl l hmem
  · exact (hl _ (List.mem_of_getElem? hi)).of_cons

/-- **Draining a heap in order gives the occurrences in order.** -/
theorem pairwise_drain {n : Nat} (hh : Holds h.toList lists) (hn : lists.flatten.length = n)
    (hf : Heap.Follows Moment.before k (lists.flatten.map fun o => o.start))
    (hl : ∀ l ∈ lists, l.Pairwise fun o o' => k o.start ≤ k o'.start)
    (ho : Heap.IsOrdered (key k) 0 h) :
    (drain n h).Pairwise fun o o' => k o.start ≤ k o'.start := by
  induction n generalizing h lists with
  | zero => exact List.Pairwise.nil
  | succ n ih =>
    cases hs : h.toList with
    | nil =>
      obtain rfl : h = #[] := Array.toList_eq_nil_iff.1 hs
      exact List.Pairwise.nil
    | cons s rest =>
      have hfront : h[0]? = some s := by rw [← Array.getElem?_toList, hs, List.getElem?_cons_zero]
      have hlist : lists[s.order]? = some (s.head :: s.tail) := (hh.mem_iff s).1 (hs ▸ .head rest)
      have hperm := Interleaves.flatten_perm_cons hlist
      have hleft : (lists.set s.order s.tail).flatten.length = n := by
        have := hperm.length_eq
        rw [hn, List.length_cons] at this
        omega
      have hsubset : (lists.set s.order s.tail).flatten ⊆ lists.flatten :=
        fun o ho => hperm.mem_iff.2 (.tail _ ho)
      have hholds := holds_takeFirst hh hs
      rw [drain_succ_of_front hfront]
      refine List.pairwise_cons.2 ⟨fun o hmem => ?_, ih hholds hleft
        (hf.of_subset (List.map_subset _ hsubset)) (pairwise_of_mem_set hl hlist)
        (isOrdered_takeFirst hh hf ho hs)⟩
      have hrest := (drain_interleaves hholds hleft).perm.mem_iff.1 hmem
      exact key_le_of_mem hh ho hl hfront (hsubset hrest)

/-- **Merging lists in order gives a list in order**, if their starts are compared by that order. -/
theorem pairwise_merge (hf : Heap.Follows Moment.before k (lists.flatten.map fun o => o.start))
    (hl : ∀ l ∈ lists, l.Pairwise fun o o' => k o.start ≤ k o'.start) :
    (merge lists).Pairwise fun o o' => k o.start ≤ k o'.start := by
  have hheads : ∀ s ∈ ofLists lists, s.head ∈ lists.flatten := fun s hs =>
    List.mem_flatten.2 ⟨_, List.mem_of_getElem? (mem_ofLists_iff.1 hs), List.mem_cons_self⟩
  exact pairwise_drain ((holds_ofLists lists).of_perm (Heap.ofArray_perm less _).toList) rfl hf hl
    (Heap.isOrdered_ofArray (follows_less hf hheads))

end Stream

/-! ## Many events -/

namespace Event

variable {e : Event} {events : List (Option Event)} {limits : Limits} {q : Query} {x : Expansion}
  {k : Moment → Int}

/-- The occurrences of an event are in the order of time, unless two of them have the wall and time
against each other. -/
theorem instants_of_expand [ZoneDatabase] (hz : e.calendarZone.IsOrderly)
    (h : e.expand limits q = .ok x)
    (hnot : ∀ o ∈ x.occurrences, ∀ o' ∈ x.occurrences, ¬o.start.Inverts o'.start) :
    x.occurrences.Pairwise fun o o' => o.start.instant ≤ o'.start.instant := by
  refine pairwise_starts hz h (fun _ _ hle => hle) fun rule hrule _ o ho o' ho' hlt => ?_
  have hzone := (isStart_of_expand hrule h ho).1.zone hz
  have hzone' := (isStart_of_expand hrule h ho').1.zone hz
  exact Int.not_lt.1 fun hlater =>
    hnot o ho o' ho' ⟨hzone.trans hzone'.symm, Int.le_of_lt hlt, hlater⟩

/-- The occurrences of an event are in the order of the wall. -/
theorem walls_of_expand [ZoneDatabase] (hz : e.calendarZone.IsOrderly)
    (h : e.expand limits q = .ok x) :
    x.occurrences.Pairwise fun o o' => o.start.wall.count ≤ o'.start.wall.count := by
  cases hrule : e.rule with
  | none =>
    rcases single_of_expand hrule h with hx | ⟨o, hx⟩
    · rw [hx]
      exact List.Pairwise.nil
    · rw [hx]
      exact List.pairwise_singleton _ o
  | some rule =>
    by_cases hx : rule.extras = []
    · obtain ⟨c, w, -, hw, hrun⟩ := exists_walk_of_expand hrule hx h
      have hsorted := (isOrdered_of_run hz hw (congrArg Run.ending hrun)).sorted
      rwa [hrun] at hsorted
    · exact (earlier_of_expand hz hrule (fun hnone => absurd hnone hx) h).imp Int.le_of_lt

/-- The occurrences of many events are in an order that their starts are compared by, if those of
each event are. -/
theorem pairwise_expandAll [ZoneDatabase]
    (hf : Heap.Follows Moment.before k ((expandAll events limits q).map fun o => o.start))
    (hl : ∀ e x, some e ∈ events → e.expand limits q = .ok x →
      (∀ o ∈ x.occurrences, o ∈ expandAll events limits q) →
        x.occurrences.Pairwise fun o o' => k o.start ≤ k o'.start) :
    (expandAll events limits q).Pairwise fun o o' => k o.start ≤ k o'.start := by
  have hi := Stream.merge_interleaves (events.filterMap fun e => e.bind fun e => e.expand? limits q)
  refine Stream.pairwise_merge
    (hf.of_subset (List.map_subset _ hi.perm.symm.subset)) fun l hmem => ?_
  obtain ⟨r, he, hr⟩ := List.mem_filterMap.1 hmem
  obtain ⟨e, rfl, hsome⟩ := Option.bind_eq_some_iff.1 hr
  obtain ⟨x, hx, rfl⟩ := expand?_eq_some_iff.1 hsome
  exact hl e x he hx fun o ho => (hi.sublist hmem).subset ho

/--
**The occurrences of many events are in the order of time**, whatever zones they are in, unless two
of them start in one zone with the wall and time against each other. No two do so if no start is at
a wall time that its zone reads in two ways. If all of them start in one zone, they are in the order
of its wall, and two that are shown there are in the order of time unless the earlier one on the
wall is in the second pass of a repeated hour and the other one in the first.
-/
theorem in_order_of_expandAll [ZoneDatabase]
    (hz : ∀ e, some e ∈ events → e.calendarZone.IsOrderly) :
    ((∀ o ∈ expandAll events limits q, ∀ o' ∈ expandAll events limits q,
        ¬o.start.Inverts o'.start) →
      (expandAll events limits q).Pairwise fun o o' => o.start.instant ≤ o'.start.instant) ∧
    ((∀ o ∈ expandAll events limits q, o.start.zone.IsOrderly ∧ o.start.dependsOnPass = false) →
      (expandAll events limits q).Pairwise fun o o' => o.start.instant ≤ o'.start.instant) ∧
    (∀ z : Zone, z.IsOrderly → (∀ o ∈ expandAll events limits q, o.start.zone = z) →
      (expandAll events limits q).Pairwise fun o o' => o.start.wall.count ≤ o'.start.wall.count ∧
        (o.start.IsReal → o'.start.IsReal →
          o.start.instant ≤ o'.start.instant ∨ o.start.Crosses o'.start)) := by
  have htime : (∀ o ∈ expandAll events limits q, ∀ o' ∈ expandAll events limits q,
      ¬o.start.Inverts o'.start) →
      (expandAll events limits q).Pairwise fun o o' => o.start.instant ≤ o'.start.instant := by
    intro hnot
    refine pairwise_expandAll (k := Moment.instant) (Moment.follows_instant ?_)
      fun e x he hx hsub => instants_of_expand (hz e he) hx fun o ho o' ho' =>
        hnot o (hsub o ho) o' (hsub o' ho')
    simpa only [List.forall_mem_map] using hnot
  refine ⟨htime, fun hsettled => htime fun o ho o' ho' => ?_, fun z hknown hzone => ?_⟩
  · exact Moment.not_inverts_of_settled (hsettled o' ho').1 (hsettled o ho).2 (hsettled o' ho').2
  · have hfollows := Moment.follows_wall (List.forall_mem_map.2 hzone)
    refine (pairwise_expandAll hfollows fun e x he hx _ => walls_of_expand (hz e he) hx).imp_of_mem
      fun {o o'} ho ho' hle => ⟨hle, fun hreal hreal' => ?_⟩
    have hsame := (hzone o ho).trans (hzone o' ho').symm
    exact Moment.instant_le_or_crosses (hzone o' ho' ▸ hknown) hsame hreal hreal' hle

/-! ## Examples -/

/-- Two hours from a time on the night in London in which the hour from one to two comes twice. -/
def longNight (id : String) (minutes : Nat) (pass : Pass)
    (h : Moment.notAfter (.london (october 27) (minutes + 120) .first)
      (.london (october 27) minutes pass) = false) : Event where
  id := id
  start := .london (october 27) minutes pass
  finish := .london (october 27) (minutes + 120)
  timeZone := "Europe/London"
  finish_after_start := h

/-- A quarter past one in the second pass is put before a quarter to two in the first, half an hour
too early. -/
theorem longNights_out_of_order :
    (expandAll [some (longNight "a" 105 .first (by decide +kernel)),
      some (longNight "b" 75 .second (by decide +kernel))] .standard fourNights).map
        (fun o => o.id) = ["b", "a"] ∧
    ¬(expandAll [some (longNight "a" 105 .first (by decide +kernel)),
      some (longNight "b" 75 .second (by decide +kernel))] .standard fourNights).Pairwise
        fun o o' => o.start.instant ≤ o'.start.instant := by
  decide +kernel

/-- Two mornings in UTC, a quarter of an hour after those in London. -/
def laterMornings : Event where
  id := "later"
  start := .ofUtc ⟨october 26, .ofMinutes 555, .first⟩
  finish := .ofUtc ⟨october 26, .ofMinutes 600, .first⟩
  rule := some (.daily 2)
  finish_after_start := by decide +kernel

/-- None of these mornings is in doubt, so those of both zones are in the order of time. -/
theorem mornings_in_order :
    (expandAll [some laterMornings, none, some fourMornings] .standard lateOctober).map
      (fun o => o.masterId) = [some "later", some "mornings", some "later", some "mornings"] ∧
    (expandAll [some laterMornings, none, some fourMornings] .standard lateOctober).Pairwise
      fun o o' => o.start.instant ≤ o'.start.instant := by
  refine ⟨by decide +kernel, (in_order_of_expandAll ?_).2.1 ?_⟩
  · intro e he
    simp only [List.mem_cons, List.not_mem_nil, or_false, Option.some.injEq, reduceCtorEq,
      false_or] at he
    rcases he with rfl | rfl <;> decide +kernel
  · decide +kernel

end Event

end RecurringEvents
