import Mathlib.Order.Basic

/-!
Runs of a machine that takes one input after the other, and conditions on all of their steps.
-/
namespace Runs

variable {σ ι : Type}

/-- The condition holds of every step, in the state that the step is made in. -/
def Always (step : σ → ι → σ) (P : σ → ι → Prop) : σ → List ι → Prop
  | _, [] => True
  | s, i :: is => P s i ∧ Always step P (step s i) is

variable {step : σ → ι → σ} {P Q : σ → ι → Prop} {G : σ → Prop}

theorem invariant_run (kept : ∀ s i, G s → G (step s i)) (s : σ) (is : List ι) (holds : G s) :
    G (is.foldl step s) := by
  induction is generalizing s with
  | nil => exact holds
  | cons i is ih => exact ih (step s i) (kept s i holds)

/-- Two conditions on single steps agree on whole runs, if they agree in the states of an
invariant that the steps which meet the first one keep. -/
theorem always_iff (agree : ∀ s i, G s → (P s i ↔ Q s i))
    (kept : ∀ s i, G s → P s i → G (step s i)) (s : σ) (is : List ι) (holds : G s) :
    Always step P s is ↔ Always step Q s is := by
  induction is generalizing s with
  | nil => rfl
  | cons i is ih =>
      refine (and_congr_right (fun first => ih (step s i) (kept s i holds first))).trans ?_
      exact and_congr_left (fun _ => agree s i holds)

/-- The last step of a run is made in the state that the others lead to. -/
theorem always_concat (s : σ) (is : List ι) (i : ι) :
    Always step P s (is ++ [i]) ↔ Always step P s is ∧ P (is.foldl step s) i := by
  induction is generalizing s with
  | nil => simp [Always]
  | cons j is ih => simp [Always, ih, and_assoc]

end Runs
