import Mathlib.Data.List.Basic

/-!
Texts between two delimiters, in which a delimiter stands twice. A reader that runs to the
first delimiter that is not doubled finds exactly the text that was quoted.
-/
namespace Quoted

variable {α : Type} [DecidableEq α] {d : α}

def doubled (d : α) (xs : List α) : List α := xs.flatMap (fun x => if x = d then [d, d] else [x])

def quoted (d : α) (xs : List α) : List α := d :: (doubled d xs ++ [d])

/-- The text up to the first delimiter that is not doubled, and what follows that delimiter. -/
def unquoted (d : α) : List α → Option (List α × List α)
  | [] => none
  | [x] => if x = d then some ([], []) else none
  | x :: y :: zs =>
      if x = d then
        if y = d then (unquoted d zs).map (fun p => (d :: p.1, p.2)) else some ([], y :: zs)
      else (unquoted d (y :: zs)).map (fun p => (x :: p.1, p.2))

@[simp] theorem doubled_nil : doubled d [] = [] := rfl

theorem doubled_delimiter (xs : List α) : doubled d (d :: xs) = d :: d :: doubled d xs := by
  rw [doubled, List.flatMap_cons, if_pos rfl]
  rfl

theorem doubled_other (x : α) (xs : List α) (other : x ≠ d) :
    doubled d (x :: xs) = x :: doubled d xs := by
  rw [doubled, List.flatMap_cons, if_neg other]
  rfl

theorem mem_doubled (x : α) (xs : List α) : x ∈ doubled d xs ↔ x ∈ xs := by
  induction xs with
  | nil => rfl
  | cons y xs ih =>
      by_cases delimiter : y = d
      · rw [delimiter, doubled_delimiter, List.mem_cons, List.mem_cons, ih, List.mem_cons]
        exact ⟨fun member => member.elim .inl id, .inr⟩
      · rw [doubled_other y xs delimiter, List.mem_cons, List.mem_cons, ih]

theorem doubled_eq_nil (xs : List α) : doubled d xs = [] ↔ xs = [] := by
  constructor
  · intro empty
    cases xs with
    | nil => rfl
    | cons x xs =>
        have member : x ∈ doubled d (x :: xs) := (mem_doubled x _).mpr List.mem_cons_self
        rw [empty] at member
        cases member
  · rintro rfl
    rfl

/-- What has been quoted is read back, up to the delimiter that ends it. -/
theorem unquoted_doubled (xs rest : List α) (ends : rest.head? ≠ some d) :
    unquoted d (doubled d xs ++ d :: rest) = some (xs, rest) := by
  induction xs with
  | nil =>
      cases rest with
      | nil => exact if_pos rfl
      | cons y rest =>
          have other : y ≠ d := fun same => ends (congrArg some same)
          rw [doubled_nil, List.nil_append, unquoted, if_pos rfl, if_neg other]
  | cons x xs ih =>
      by_cases delimiter : x = d
      · rw [delimiter, doubled_delimiter, List.cons_append, List.cons_append, unquoted, if_pos rfl,
          if_pos rfl, ih]
        rfl
      · rw [doubled_other x xs delimiter, List.cons_append]
        obtain ⟨y, zs, more⟩ : ∃ y zs, doubled d xs ++ d :: rest = y :: zs :=
          List.exists_cons_of_ne_nil (List.append_ne_nil_of_right_ne_nil _ (List.cons_ne_nil _ _))
        rw [more] at ih ⊢
        rw [unquoted, if_neg delimiter, ih]
        rfl

/-- A text in quotes can be split from what follows in one way only. -/
theorem doubled_unique (xs ys rest rest' : List α) (ends : rest.head? ≠ some d)
    (ends' : rest'.head? ≠ some d)
    (same : doubled d xs ++ d :: rest = doubled d ys ++ d :: rest') : xs = ys ∧ rest = rest' := by
  have read := unquoted_doubled xs rest ends
  rw [same, unquoted_doubled ys rest' ends'] at read
  exact ⟨(Prod.mk.inj (Option.some.inj read)).1.symm, (Prod.mk.inj (Option.some.inj read)).2.symm⟩

end Quoted
