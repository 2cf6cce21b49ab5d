import Mathlib.Data.List.Forall2

/-!
Lists of computations that may fail: a traversal succeeds exactly when every
member does, and its results stand at the positions of their arguments.
-/
namespace Traverse

variable {ε α β : Type}

theorem mapM_ok_cons (f : α → Except ε β) (x : α) (xs : List α) (ys : List β) :
    (x :: xs).mapM f = .ok ys ↔ ∃ y rest, f x = .ok y ∧ xs.mapM f = .ok rest ∧ ys = y :: rest := by
  rw [List.mapM_cons]
  cases first : f x with
  | error e => simp [bind, Except.bind]
  | ok y =>
      cases others : xs.mapM f with
      | error e => simp [bind, Except.bind]
      | ok rest => simp [bind, Except.bind, pure, Except.pure, eq_comm]

theorem mapM_error_cons (f : α → Except ε β) (x : α) (xs : List α) (e : ε) :
    (x :: xs).mapM f = .error e ↔
      f x = .error e ∨ ∃ y, f x = .ok y ∧ xs.mapM f = .error e := by
  rw [List.mapM_cons]
  cases first : f x with
  | error e' => simp [bind, Except.bind]
  | ok y =>
      cases others : xs.mapM f with
      | error e' => simp [bind, Except.bind]
      | ok rest => simp [bind, Except.bind, pure, Except.pure]

theorem mapM_ok_iff (f : α → Except ε β) (xs : List α) (ys : List β) :
    xs.mapM f = .ok ys ↔ List.Forall₂ (fun x y => f x = .ok y) xs ys := by
  induction xs generalizing ys with
  | nil => simp [pure, Except.pure, eq_comm]
  | cons x xs ih =>
      rw [mapM_ok_cons]
      constructor
      · rintro ⟨y, rest, first, others, rfl⟩
        exact .cons first ((ih rest).mp others)
      · intro related
        cases related with
        | cons first others => exact ⟨_, _, first, (ih _).mpr others, rfl⟩

theorem mapM_total (f : α → Except ε β) (xs : List α) (h : ∀ x ∈ xs, ∃ y, f x = .ok y) :
    ∃ ys, xs.mapM f = .ok ys := by
  induction xs with
  | nil => exact ⟨[], rfl⟩
  | cons x xs ih =>
      obtain ⟨y, first⟩ := h x List.mem_cons_self
      obtain ⟨ys, others⟩ := ih (fun z hz => h z (List.mem_cons_of_mem x hz))
      exact ⟨y :: ys, (mapM_ok_cons f x xs _).mpr ⟨y, ys, first, others, rfl⟩⟩

theorem mapM_length (f : α → Except ε β) (xs : List α) (ys : List β) (h : xs.mapM f = .ok ys) :
    ys.length = xs.length :=
  ((mapM_ok_iff f xs ys).mp h).length_eq.symm

theorem mapM_getElem? (f : α → Except ε β) (xs : List α) (ys : List β) (h : xs.mapM f = .ok ys)
    (j : Nat) (y : β) (hy : ys[j]? = some y) : ∃ x, xs[j]? = some x ∧ f x = .ok y := by
  induction (mapM_ok_iff f xs ys).mp h generalizing j with
  | nil => simp at hy
  | cons first others ih =>
      cases j with
      | zero =>
          obtain rfl := Option.some.inj hy
          exact ⟨_, rfl, first⟩
      | succ j => exact ih ((mapM_ok_iff f _ _).mpr others) j hy

end Traverse
