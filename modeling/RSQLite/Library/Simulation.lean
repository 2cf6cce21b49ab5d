import Mathlib.Order.Basic

/-!
Two states of a machine that no sequence of requests can tell apart, and orders that the
states of one machine climb.
-/
namespace Simulation

variable {Request Reply σ : Type} (answer : Request → σ → Reply × σ)

/-- The replies to a list of requests, and the state after them. -/
def answers : List Request → σ → List Reply × σ
  | [], s => ([], s)
  | request :: requests, s =>
      ((answer request s).1 :: (answers requests (answer request s).2).1,
        (answers requests (answer request s).2).2)

/-- A relation that every request preserves, with the same reply on both sides. -/
def Simulates (R : σ → σ → Prop) : Prop :=
  ∀ request s t, R s t →
    (answer request s).1 = (answer request t).1 ∧ R (answer request s).2 (answer request t).2

theorem answers_of_simulates (R : σ → σ → Prop) (simulates : Simulates answer R)
    (requests : List Request) (s t : σ) (related : R s t) :
    (answers answer requests s).1 = (answers answer requests t).1 ∧
      R (answers answer requests s).2 (answers answer requests t).2 := by
  induction requests generalizing s t with
  | nil => exact ⟨rfl, related⟩
  | cons request requests ih =>
      obtain ⟨same, related'⟩ := simulates request s t related
      obtain ⟨rest, related''⟩ := ih _ _ related'
      refine ⟨?_, related''⟩
      rw [answers, answers, same, rest]

/-- What every request moves along a preorder, a list of requests moves along it too. -/
theorem related_answers (R : σ → σ → Prop) (refl : ∀ s, R s s)
    (trans : ∀ s t u, R s t → R t u → R s u) (moves : ∀ request s, R s (answer request s).2)
    (requests : List Request) (s : σ) : R s (answers answer requests s).2 := by
  induction requests generalizing s with
  | nil => exact refl s
  | cons request requests ih => exact trans _ _ _ (moves request s) (ih (answer request s).2)

theorem invariant_answers (G : σ → Prop) (kept : ∀ request s, G s → G (answer request s).2)
    (requests : List Request) (s : σ) (holds : G s) : G (answers answer requests s).2 :=
  related_answers answer (fun s t => G s → G t) (fun _ => id) (fun _ _ _ h h' g => h' (h g)) kept
    requests s holds

end Simulation
