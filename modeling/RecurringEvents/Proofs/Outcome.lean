/-!
# Outcomes

What a computation that may fail has gone through when it succeeds. A list that is mapped succeeds
exactly if every element does. Steps that can fail in one way only are a computation that can, and
two such computations are the same if they have the same results. Outcomes of computations without
variables are found by computing.
-/

namespace RecurringEvents

section

variable {ε α β : Type} {f : α → Except ε β}

/-- Two steps succeed exactly if the first does and the second does with its result. -/
theorem bind_eq_ok_iff {x : Except ε α} {b : β} :
    (x >>= f) = .ok b ↔ ∃ a, x = .ok a ∧ f a = .ok b := by
  cases x with
  | error e => simp [bind, Except.bind]
  | ok a => simp [bind, Except.bind]

/-- Two steps fail if the first does, or the second does with its result. -/
theorem bind_eq_error_iff {x : Except ε α} {e : ε} :
    (x >>= f) = .error e ↔ x = .error e ∨ ∃ a, x = .ok a ∧ f a = .error e := by
  cases x with
  | error e' => simp [bind, Except.bind]
  | ok a => simp [bind, Except.bind]

/-- What is made of a result is made of the result of a success. -/
theorem map_eq_ok_iff {g : α → β} {x : Except ε α} {b : β} :
    x.map g = .ok b ↔ ∃ a, x = .ok a ∧ g a = b := by
  cases x with
  | error e => simp [Except.map]
  | ok a => simp [Except.map]

theorem map_eq_error_iff {g : α → β} {x : Except ε α} {e : ε} :
    x.map g = .error e ↔ x = .error e := by
  cases x with
  | error e' => simp [Except.map]
  | ok a => simp [Except.map]

/-- A mapped list succeeds exactly if every element does. -/
theorem exists_mapM_eq_ok_iff {xs : List α} :
    (∃ ys, xs.mapM f = .ok ys) ↔ ∀ x ∈ xs, ∃ y, f x = .ok y := by
  induction xs with
  | nil => simp [pure, Except.pure]
  | cons x xs ih =>
    rw [List.forall_mem_cons, ← ih, List.mapM_cons]
    constructor
    · rintro ⟨ys, h⟩
      obtain ⟨y, hy, h⟩ := bind_eq_ok_iff.1 h
      obtain ⟨zs, hz, -⟩ := bind_eq_ok_iff.1 h
      exact ⟨⟨y, hy⟩, ⟨zs, hz⟩⟩
    · rintro ⟨⟨y, hy⟩, ⟨zs, hz⟩⟩
      exact ⟨y :: zs, bind_eq_ok_iff.2 ⟨y, hy, bind_eq_ok_iff.2 ⟨zs, hz, rfl⟩⟩⟩

/-- What a mapped list holds comes from an element. -/
theorem exists_of_mem_mapM {xs : List α} {ys : List β} (h : xs.mapM f = .ok ys) {y : β}
    (hy : y ∈ ys) : ∃ x ∈ xs, f x = .ok y := by
  induction xs generalizing ys with
  | nil =>
    cases h
    cases hy
  | cons x xs ih =>
    rw [List.mapM_cons] at h
    obtain ⟨z, hz, h⟩ := bind_eq_ok_iff.1 h
    obtain ⟨zs, hzs, h⟩ := bind_eq_ok_iff.1 h
    cases h
    rcases List.mem_cons.1 hy with rfl | hy
    · exact ⟨x, List.mem_cons_self, hz⟩
    · obtain ⟨x', hx', hxy⟩ := ih hzs hy
      exact ⟨x', List.mem_cons_of_mem x hx', hxy⟩

/-- What comes of an element is in the mapped list. -/
theorem mem_of_mapM {xs : List α} {ys : List β} (h : xs.mapM f = .ok ys) {x : α} {y : β}
    (hx : x ∈ xs) (hy : f x = .ok y) : y ∈ ys := by
  induction xs generalizing ys with
  | nil => cases hx
  | cons a as ih =>
    rw [List.mapM_cons] at h
    obtain ⟨z, hz, h⟩ := bind_eq_ok_iff.1 h
    obtain ⟨zs, hzs, h⟩ := bind_eq_ok_iff.1 h
    cases h
    rcases List.mem_cons.1 hx with rfl | hx
    · cases hy.symm.trans hz
      exact List.mem_cons_self
    · exact List.mem_cons_of_mem z (ih hzs hx)

/-- What tells the element that a result comes from gives the list back. -/
theorem map_of_mapM {g : β → α} (hg : ∀ x y, f x = .ok y → g y = x) {xs : List α} {ys : List β}
    (h : xs.mapM f = .ok ys) : ys.map g = xs := by
  induction xs generalizing ys with
  | nil =>
    cases h
    rfl
  | cons x xs ih =>
    rw [List.mapM_cons] at h
    obtain ⟨y, hy, h⟩ := bind_eq_ok_iff.1 h
    obtain ⟨zs, hzs, h⟩ := bind_eq_ok_iff.1 h
    cases h
    rw [List.map_cons, hg x y hy, ih hzs]

/-- Results are mapped one by one or all together. -/
theorem mapM_map_eq {γ : Type} (g : β → γ) (xs : List α) :
    xs.mapM (fun x => (f x).map g) = (xs.mapM f).map (List.map g) := by
  induction xs with
  | nil => rfl
  | cons x xs ih =>
    rw [List.mapM_cons, List.mapM_cons, ih]
    cases f x with
    | error e => rfl
    | ok y => cases xs.mapM f <;> rfl

end

/-! ## Outcomes that are computed -/

section

variable {ε α β : Type} {err : ε} {x y : Except ε α} {f : α → Except ε β}

/-- Whether a computation can fail in one way only. -/
def FailsOnly (err : ε) (x : Except ε α) : Prop := ∀ err', x = .error err' → err' = err

theorem failsOnly_ok (a : α) : FailsOnly err (.ok a) := by
  intro err' h
  cases h

theorem failsOnly_error : FailsOnly err (.error err : Except ε α) := by
  intro err' h
  cases h
  rfl

theorem FailsOnly.bind (hx : FailsOnly err x) (hf : ∀ a, x = .ok a → FailsOnly err (f a)) :
    FailsOnly err (x >>= f) := by
  intro err' h
  cases hxa : x with
  | error err'' =>
    rw [hxa] at h
    cases h
    exact hx _ hxa
  | ok a =>
    rw [hxa] at h
    exact hf a hxa err' h

theorem failsOnly_mapM {xs : List α} (h : ∀ x ∈ xs, FailsOnly err (f x)) :
    FailsOnly err (xs.mapM f) := by
  induction xs with
  | nil => exact failsOnly_ok []
  | cons x xs ih =>
    rw [List.mapM_cons]
    refine (h x List.mem_cons_self).bind fun b _ => ?_
    refine (ih fun x' hx' => h x' (List.mem_cons_of_mem x hx')).bind fun bs _ => ?_
    exact failsOnly_ok (b :: bs)

/-- What has no result fails in the one way. -/
theorem FailsOnly.eq_error (hx : FailsOnly err x) (hno : ¬∃ a, x = .ok a) : x = .error err := by
  cases hxa : x with
  | error err' => rw [hx err' hxa]
  | ok a => exact absurd ⟨a, hxa⟩ hno

/-- It fails in this way exactly if it has no result. -/
theorem FailsOnly.eq_error_iff (hx : FailsOnly err x) : x = .error err ↔ ¬∃ a, x = .ok a := by
  constructor
  · rintro h ⟨a, ha⟩
    cases h.symm.trans ha
  · exact hx.eq_error

/-- Computations that can fail in one way are the same if they have the same results. -/
theorem FailsOnly.ext (hx : FailsOnly err x) (hy : FailsOnly err y)
    (h : ∀ a, x = .ok a ↔ y = .ok a) : x = y := by
  by_cases hsome : ∃ a, x = .ok a
  · obtain ⟨a, ha⟩ := hsome
    rw [ha, (h a).1 ha]
  · rw [hx.eq_error hsome, hy.eq_error fun ⟨a, ha⟩ => hsome ⟨a, (h a).2 ha⟩]

end

section

variable {ε α : Type} {x : Except ε α}

/-- Why a computation fails, if it does. -/
def fault? : Except ε α → Option ε
  | .ok _ => none
  | .error e => some e

theorem eq_error_of_fault? {e : ε} (h : fault? x = some e) : x = .error e := by
  cases x with
  | ok a => cases h
  | error e' =>
    cases h
    rfl

/-- A result with a property is found by computing it. -/
theorem exists_ok_of_any {p : α → Prop} [DecidablePred p]
    (h : x.toOption.any (fun a => decide (p a)) = true) : ∃ a, x = .ok a ∧ p a := by
  cases x with
  | ok a => exact ⟨a, rfl, of_decide_eq_true h⟩
  | error e => cases h

end

end RecurringEvents
