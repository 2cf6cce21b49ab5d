import RSQLite.Library.Ending

/-!
A property of the state that a program keeps as long as it returns, and a weaker one
that holds where it throws. The rules follow the program's syntax.
-/
namespace Invariant

open Ending

variable {ε σ α β : Type}

def Kept (P E : σ → Prop) (x : EStateM ε σ α) : Prop := ∀ s, P s → Ends P E (ending (x.run s))

variable {P E : σ → Prop}

theorem Kept.ok {x : EStateM ε σ α} (kept : Kept P E x) (s s' : σ) (a : α) (holds : P s)
    (run : x.run s = .ok a s') : P s' := by
  have held := kept s holds
  rw [run] at held
  exact held

/-- Where nothing is asked of a state in which the program throws. -/
theorem kept_of_ok (x : EStateM ε σ α) (h : ∀ s a s', P s → x.run s = .ok a s' → P s') :
    Kept P (fun _ => True) x := by
  intro s holds
  cases run : x.run s with
  | ok a s' => exact h s a s' holds run
  | error e s' => trivial

theorem kept_pure (a : α) : Kept P E (pure a : EStateM ε σ α) := fun _ holds => holds

theorem kept_get : Kept P E (get : EStateM ε σ σ) := fun _ holds => holds

theorem kept_modify (f : σ → σ) (h : ∀ s, P s → P (f s)) :
    Kept P E (modify f : EStateM ε σ PUnit) := h

theorem kept_throw (e : ε) (h : ∀ s, P s → E s) : Kept P E (throw e : EStateM ε σ α) := h

theorem kept_bind (x : EStateM ε σ α) (f : α → EStateM ε σ β) (hx : Kept P E x)
    (hf : ∀ a, Kept P E (f a)) : Kept P E (x >>= f) := by
  intro s holds
  have first := hx s holds
  rw [EStateM.run_bind]
  cases run : x.run s with
  | ok a s' =>
      rw [run] at first
      exact hf a s' first
  | error e s' =>
      rw [run] at first
      exact first

theorem kept_ite (c : Prop) [Decidable c] (x y : EStateM ε σ α) (hx : Kept P E x)
    (hy : Kept P E y) : Kept P E (if c then x else y) := by
  split
  · exact hx
  · exact hy

theorem kept_discard (x : EStateM ε σ α) (hx : Kept P E x) : Kept P E (discard x) := by
  intro s holds
  rw [ending_discard]
  exact hx s holds

end Invariant
