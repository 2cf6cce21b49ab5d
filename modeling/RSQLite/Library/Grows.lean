import Mathlib.Order.Basic

/-!
A measure of the state that no run of a program decreases, whether the run
returns or throws. The rules follow the program's syntax.
-/
namespace Measured

variable {ε σ α β γ : Type}

/-- The state in which a run ends. -/
def endState : EStateM.Result ε σ α → σ
  | .ok _ s => s
  | .error _ s => s

variable [Preorder γ] (measure : σ → γ)

def Grows (x : EStateM ε σ α) : Prop := ∀ s, measure s ≤ measure (endState (x.run s))

variable {measure}

theorem grows_pure (a : α) : Grows measure (pure a : EStateM ε σ α) := fun _ => le_refl _

theorem grows_get : Grows measure (get : EStateM ε σ σ) := fun _ => le_refl _

theorem grows_modify (f : σ → σ) (h : ∀ s, measure s ≤ measure (f s)) :
    Grows measure (modify f : EStateM ε σ PUnit) := h

/-- A first part that ends in `s'` leaves the rest to grow from there. -/
theorem le_run_bind (x : EStateM ε σ α) (f : α → EStateM ε σ β) (hf : ∀ a, Grows measure (f a))
    (s : σ) : measure (endState (x.run s)) ≤ measure (endState ((x >>= f).run s)) := by
  rw [EStateM.run_bind]
  cases x.run s with
  | ok a s' => exact hf a s'
  | error e s' => exact le_refl _

theorem grows_bind (x : EStateM ε σ α) (f : α → EStateM ε σ β) (hx : Grows measure x)
    (hf : ∀ a, Grows measure (f a)) : Grows measure (x >>= f) := fun s =>
  le_trans (hx s) (le_run_bind x f hf s)

theorem grows_ite (c : Prop) [Decidable c] (x y : EStateM ε σ α) (hx : Grows measure x)
    (hy : Grows measure y) : Grows measure (if c then x else y) := by
  split
  · exact hx
  · exact hy

end Measured
