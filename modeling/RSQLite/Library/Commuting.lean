import Mathlib.Order.Basic

/-!
A map of the states that a program does not notice: the program returns or throws the
same, and the state that it leaves is mapped. The rules follow the program's syntax.
-/
namespace Commuting

variable {ε σ α β : Type}

def mapState (φ : σ → σ) : EStateM.Result ε σ α → EStateM.Result ε σ α
  | .ok a s => .ok a (φ s)
  | .error e s => .error e (φ s)

def Commutes (φ : σ → σ) (x : EStateM ε σ α) : Prop := ∀ s, x.run (φ s) = mapState φ (x.run s)

variable {φ : σ → σ}

theorem commutes_pure (a : α) : Commutes φ (pure a : EStateM ε σ α) := fun _ => rfl

theorem commutes_modify (f : σ → σ) (h : ∀ s, f (φ s) = φ (f s)) :
    Commutes φ (modify f : EStateM ε σ PUnit) := fun s => congrArg (EStateM.Result.ok PUnit.unit) (h s)

theorem commutes_bind (x : EStateM ε σ α) (f : α → EStateM ε σ β) (hx : Commutes φ x)
    (hf : ∀ a, Commutes φ (f a)) : Commutes φ (x >>= f) := by
  intro s
  rw [EStateM.run_bind, EStateM.run_bind, hx s]
  cases x.run s with
  | ok a s' => exact hf a s'
  | error e s' => rfl

/-- What the program reads of the state is the same in the mapped one. -/
theorem commutes_get (f : σ → EStateM ε σ β) (same : ∀ s, f (φ s) = f s)
    (hf : ∀ s, Commutes φ (f s)) : Commutes φ (get >>= f) := by
  intro s
  rw [EStateM.run_bind, EStateM.run_get, EStateM.run_bind, EStateM.run_get]
  simp only [same]
  exact hf s s

theorem commutes_ite (c : Prop) [Decidable c] (x y : EStateM ε σ α) (hx : Commutes φ x)
    (hy : Commutes φ y) : Commutes φ (if c then x else y) := by
  split
  · exact hx
  · exact hy

end Commuting
