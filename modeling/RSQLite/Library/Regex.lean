import Mathlib.Data.List.Basic

/-!
Regular expressions with numbered groups. A text matches by a derivation, which captures the
texts of the groups that it goes through; an expression may have several derivations for one
text, and each matching strategy picks one of them.
-/
inductive Regex (α : Type)
  | empty
  | one (p : α → Bool)
  | seq (r s : Regex α)
  | alt (r s : Regex α)
  | plus (r : Regex α)
  | group (n : Nat) (r : Regex α)

namespace Regex

variable {α : Type}

/-- The groups with their texts, in the order in which they are entered. -/
abbrev Captures (α : Type) := List (Nat × List α)

inductive Matches : Regex α → List α → Captures α → Prop
  | empty : Matches .empty [] []
  | one {p : α → Bool} {x : α} (accepted : p x = true) : Matches (.one p) [x] []
  | seq {r s : Regex α} {xs ys : List α} {g h : Captures α} (first : Matches r xs g)
      (second : Matches s ys h) : Matches (.seq r s) (xs ++ ys) (g ++ h)
  | left {r s : Regex α} {xs : List α} {g : Captures α} (here : Matches r xs g) :
      Matches (.alt r s) xs g
  | right {r s : Regex α} {xs : List α} {g : Captures α} (here : Matches s xs g) :
      Matches (.alt r s) xs g
  | once {r : Regex α} {xs : List α} {g : Captures α} (here : Matches r xs g) :
      Matches (.plus r) xs g
  | more {r : Regex α} {xs ys : List α} {g h : Captures α} (first : Matches r xs g)
      (rest : Matches (.plus r) ys h) : Matches (.plus r) (xs ++ ys) (g ++ h)
  | group {n : Nat} {r : Regex α} {xs : List α} {g : Captures α} (inside : Matches r xs g) :
      Matches (.group n r) xs ((n, xs) :: g)

/-- The text that a group has captured last, which is empty if it did not take part. -/
def captured (n : Nat) (g : Captures α) : List α :=
  ((g.filter (fun e => e.1 = n)).getLast?.map Prod.snd).getD []

section Captured

variable {n m : Nat} {g : Captures α}

theorem filter_absent (absent : ∀ e ∈ g, e.1 ≠ n) : g.filter (fun e => e.1 = n) = [] :=
  List.filter_eq_nil_iff.mpr (fun e member taken => absent e member (of_decide_eq_true taken))

theorem captured_absent (absent : ∀ e ∈ g, e.1 ≠ n) : captured n g = [] := by
  rw [captured, filter_absent absent]
  rfl

theorem captured_last (xs : List α) (absent : ∀ e ∈ g, e.1 ≠ n) :
    captured n ((n, xs) :: g) = xs := by
  have taken : decide (n = n) = true := decide_eq_true rfl
  rw [captured, List.filter_cons, if_pos taken, filter_absent absent]
  rfl

theorem captured_other (xs : List α) (other : m ≠ n) :
    captured n ((m, xs) :: g) = captured n g := by
  rw [captured, List.filter_cons, if_neg (fun same => other (of_decide_eq_true same))]
  rfl

end Captured

variable {r s : Regex α} {xs : List α} {g : Captures α}

theorem matches_empty : Matches (.empty : Regex α) xs g ↔ xs = [] ∧ g = [] := by
  constructor
  · intro derived
    cases derived
    exact ⟨rfl, rfl⟩
  · rintro ⟨rfl, rfl⟩
    exact .empty

theorem matches_one {p : α → Bool} :
    Matches (.one p) xs g ↔ ∃ x, p x = true ∧ xs = [x] ∧ g = [] := by
  constructor
  · intro derived
    cases derived with
    | one accepted => exact ⟨_, accepted, rfl, rfl⟩
  · rintro ⟨x, accepted, rfl, rfl⟩
    exact .one accepted

theorem matches_seq : Matches (.seq r s) xs g ↔ ∃ ys zs h k, Matches r ys h ∧ Matches s zs k ∧
    xs = ys ++ zs ∧ g = h ++ k := by
  constructor
  · intro derived
    cases derived with
    | seq first second => exact ⟨_, _, _, _, first, second, rfl, rfl⟩
  · rintro ⟨ys, zs, h, k, first, second, rfl, rfl⟩
    exact .seq first second

theorem matches_alt : Matches (.alt r s) xs g ↔ Matches r xs g ∨ Matches s xs g := by
  constructor
  · intro derived
    cases derived with
    | left here => exact .inl here
    | right here => exact .inr here
  · rintro (here | here)
    · exact .left here
    · exact .right here

theorem matches_group {n : Nat} :
    Matches (.group n r) xs g ↔ ∃ h, Matches r xs h ∧ g = (n, xs) :: h := by
  constructor
  · intro derived
    cases derived with
    | group inside => exact ⟨_, inside, rfl⟩
  · rintro ⟨h, inside, rfl⟩
    exact .group inside

/-- What holds of one round, and of one round before others, holds of all rounds. -/
theorem plus_rounds {P : List α → Captures α → Prop}
    (once : ∀ xs g, Matches r xs g → P xs g)
    (more : ∀ xs ys g h, Matches r xs g → P ys h → P (xs ++ ys) (g ++ h))
    (derived : Matches (.plus r) xs g) : P xs g := by
  generalize repeated : Regex.plus r = r' at derived
  induction derived with
  | once here _ =>
      cases repeated
      exact once _ _ here
  | more first _ _ ih =>
      cases repeated
      exact more _ _ _ _ first (ih rfl)
  | empty | one _ | seq _ _ _ _ | left _ _ | right _ _ | group _ _ => cases repeated

theorem matches_class {p : α → Bool} :
    Matches (.plus (.one p)) xs g ↔ xs ≠ [] ∧ xs.all p = true ∧ g = [] := by
  constructor
  · intro derived
    refine plus_rounds (P := fun xs g => xs ≠ [] ∧ xs.all p = true ∧ g = []) ?_ ?_ derived
    · intro xs g here
      obtain ⟨x, accepted, rfl, rfl⟩ := matches_one.mp here
      refine ⟨List.cons_ne_nil _ _, ?_, rfl⟩
      rw [List.all_cons, accepted, List.all_nil, Bool.and_true]
    · intro xs ys g h here ⟨_, all, none_⟩
      obtain ⟨x, accepted, rfl, rfl⟩ := matches_one.mp here
      refine ⟨List.cons_ne_nil _ _, ?_, none_⟩
      rw [List.singleton_append, List.all_cons, accepted, all, Bool.and_true]
  · rintro ⟨nonempty, all, rfl⟩
    induction xs with
    | nil => exact absurd rfl nonempty
    | cons x xs ih =>
        rw [List.all_cons, Bool.and_eq_true] at all
        cases xs with
        | nil => exact .once (.one all.1)
        | cons y ys => exact .more (.one all.1) (ih (List.cons_ne_nil y ys) all.2)

end Regex
