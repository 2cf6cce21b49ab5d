import Mathlib.Order.Basic

/-!
How a run ends: with or without an error, and in which state. A handler that is to run
on exit does so where the body throws; its own error replaces that of the body.
-/
namespace Ending

variable {ε σ α β : Type}

def ending : EStateM.Result ε σ α → Option ε × σ
  | .ok _ s => (none, s)
  | .error e s => (some e, s)

theorem ending_ok (result : EStateM.Result ε σ α) (s : σ) (h : ending result = (none, s)) :
    ∃ a, result = .ok a s := by
  cases result with
  | ok a s' =>
      obtain rfl := congrArg Prod.snd h
      exact ⟨a, rfl⟩
  | error e s' => cases h

theorem ending_error (result : EStateM.Result ε σ α) (e : ε) (s : σ)
    (h : ending result = (some e, s)) : result = .error e s := by
  cases result with
  | ok a s' => cases h
  | error e' s' =>
      cases h
      rfl

/-- What holds of the state where a run returns, and where it throws. -/
def Ends (P E : σ → Prop) : Option ε × σ → Prop
  | (none, s) => P s
  | (some _, s) => E s

/-- The rest of a run, where its end does not depend on the value that is passed on. -/
theorem ending_bind (x : EStateM ε σ α) (f : α → EStateM ε σ β) (s s' : σ) (r : Option ε × σ)
    (first : ending (x.run s) = (none, s')) (rest : ∀ a, ending ((f a).run s') = r) :
    ending ((x >>= f).run s) = r := by
  obtain ⟨a, run⟩ := ending_ok _ _ first
  rw [EStateM.run_bind, run]
  exact rest a

theorem ending_bind_error (x : EStateM ε σ α) (f : α → EStateM ε σ β) (s s' : σ) (e : ε)
    (first : ending (x.run s) = (some e, s')) : ending ((x >>= f).run s) = (some e, s') := by
  rw [EStateM.run_bind, ending_error _ _ _ first]
  rfl

theorem ending_discard (x : EStateM ε σ α) (s : σ) :
    ending ((discard x).run s) = ending (x.run s) := by
  change ending (EStateM.map (fun _ => ()) x s) = ending (x s)
  rw [EStateM.map]
  cases x s <;> rfl

def onExit (handler : EStateM ε σ Unit) (body : EStateM ε σ α) : EStateM ε σ α := fun s =>
  match body.run s with
  | .ok a s' => .ok a s'
  | .error e s' =>
      match handler.run s' with
      | .ok _ s'' => .error e s''
      | .error e' s'' => .error e' s''

theorem onExit_ok (handler : EStateM ε σ Unit) (body : EStateM ε σ α) (s s' : σ)
    (returns : ending (body.run s) = (none, s')) :
    ending ((onExit handler body).run s) = (none, s') := by
  obtain ⟨a, run⟩ := ending_ok _ _ returns
  simp only [onExit, EStateM.run] at run ⊢
  rw [run]
  rfl

theorem onExit_error (handler : EStateM ε σ Unit) (body : EStateM ε σ α) (s s' : σ) (e : ε)
    (throws : ending (body.run s) = (some e, s')) :
    ending ((onExit handler body).run s) =
      (some ((ending (handler.run s')).1.getD e), (ending (handler.run s')).2) := by
  have run := ending_error _ _ _ throws
  simp only [onExit, EStateM.run] at run ⊢
  rw [run]
  simp only
  cases handler s' <;> rfl

end Ending
