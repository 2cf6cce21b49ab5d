import RSQLite.Library.Ending

/-!
What a program with a state and exceptions asks of the state it starts in: `Q` is to hold
where it returns, and `E` where it throws. The rules follow the program's syntax, and each
of them is an equivalence, so that they also tell when a program does not do what is asked.
-/
namespace Weakest

open Ending

variable {ε σ α β : Type}

def wp (x : EStateM ε σ α) (Q : α → σ → Prop) (E : ε → σ → Prop) (s : σ) : Prop :=
  match x.run s with
  | .ok a s' => Q a s'
  | .error e s' => E e s'

variable {Q Q' : α → σ → Prop} {E E' : ε → σ → Prop}

@[simp] theorem wp_pure (a : α) (s : σ) : wp (pure a : EStateM ε σ α) Q E s ↔ Q a s := Iff.rfl

@[simp] theorem wp_throw (e : ε) (s : σ) : wp (throw e : EStateM ε σ α) Q E s ↔ E e s := Iff.rfl

@[simp] theorem wp_get (Q : σ → σ → Prop) (E : ε → σ → Prop) (s : σ) :
    wp (get : EStateM ε σ σ) Q E s ↔ Q s s := Iff.rfl

@[simp] theorem wp_modify (f : σ → σ) (Q : PUnit → σ → Prop) (E : ε → σ → Prop) (s : σ) :
    wp (modify f : EStateM ε σ PUnit) Q E s ↔ Q ⟨⟩ (f s) := Iff.rfl

@[simp] theorem wp_bind (x : EStateM ε σ β) (f : β → EStateM ε σ α) (s : σ) :
    wp (x >>= f) Q E s ↔ wp x (fun b => wp (f b) Q E) E s := by
  rw [wp, wp, EStateM.run_bind]
  cases x.run s <;> rfl

@[simp] theorem wp_ite (c : Prop) [Decidable c] (x y : EStateM ε σ α) (s : σ) :
    wp (if c then x else y) Q E s ↔ if c then wp x Q E s else wp y Q E s := by
  split <;> rfl

@[simp] theorem wp_discard (x : EStateM ε σ α) (Q : Unit → σ → Prop) (s : σ) :
    wp (discard x) Q E s ↔ wp x (fun _ => Q ()) E s := by
  change wp (EStateM.map (fun _ => ()) x) Q E s ↔ wp x (fun _ => Q ()) E s
  unfold wp
  rw [EStateM.run, EStateM.run, EStateM.map]
  cases x s <;> rfl

/-- The handler runs where the body throws, and its own error replaces that of the body. -/
@[simp] theorem wp_onExit (handler : EStateM ε σ Unit) (body : EStateM ε σ α) (s : σ) :
    wp (onExit handler body) Q E s ↔
      wp body Q (fun e => wp handler (fun _ => E e) E) s := by
  unfold wp
  rw [EStateM.run, onExit]
  cases body.run s with
  | ok a s' => rfl
  | error e s' =>
      simp only
      cases handler.run s' <;> rfl

theorem wp_mono (x : EStateM ε σ α) (s : σ) (holds : wp x Q E s) (returns : ∀ a s', Q a s' → Q' a s')
    (throws : ∀ e s', E e s' → E' e s') : wp x Q' E' s := by
  unfold wp at holds ⊢
  cases run : x.run s with
  | ok a s' =>
      rw [run] at holds
      exact returns a s' holds
  | error e s' =>
      rw [run] at holds
      exact throws e s' holds

theorem wp_returns {x : EStateM ε σ α} {s : σ} (holds : wp x Q E s)
    (returns : ∀ a s', Q a s' → Q' a s') : wp x Q' E s :=
  wp_mono x s holds returns (fun _ _ raised => raised)

theorem wp_error (x : EStateM ε σ α) (s s' : σ) (e : ε) (holds : wp x Q E s)
    (run : x.run s = .error e s') : E e s' := by
  unfold wp at holds
  rw [run] at holds
  exact holds

end Weakest
