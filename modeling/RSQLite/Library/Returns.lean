/-!
How a fallible computation may end: `Q` holds of what it returns, or `E` of its error. The rules
follow the syntax of the computation.
-/
namespace Returning

variable {ε α β : Type}

def Returns (x : Except ε α) (Q : α → Prop) (E : ε → Prop) : Prop :=
  match x with
  | .ok a => Q a
  | .error e => E e

variable {Q Q' : α → Prop} {E E' : ε → Prop}

@[simp] theorem returns_ok (a : α) : Returns (.ok a : Except ε α) Q E ↔ Q a := Iff.rfl

@[simp] theorem returns_error (e : ε) : Returns (.error e : Except ε α) Q E ↔ E e := Iff.rfl

@[simp] theorem returns_bind (x : Except ε β) (f : β → Except ε α) :
    Returns (x >>= f) Q E ↔ Returns x (fun b => Returns (f b) Q E) E := by
  cases x <;> rfl

@[simp] theorem returns_ite (c : Prop) [Decidable c] (x y : Except ε α) :
    Returns (if c then x else y) Q E ↔ if c then Returns x Q E else Returns y Q E := by
  split <;> rfl

theorem Returns.mono {x : Except ε α} (holds : Returns x Q E) (results : ∀ a, Q a → Q' a)
    (errors : ∀ e, E e → E' e) : Returns x Q' E' := by
  cases x with
  | ok a => exact results a holds
  | error e => exact errors e holds

theorem Returns.imp {x : Except ε α} (holds : Returns x Q E) (results : ∀ a, Q a → Q' a) :
    Returns x Q' E :=
  holds.mono results fun _ error => error

theorem Returns.bind {x : Except ε β} {f : β → Except ε α} {P : β → Prop} (first : Returns x P E)
    (rest : ∀ b, P b → Returns (f b) Q E) : Returns (x >>= f) Q E :=
  (returns_bind x f).mpr (first.imp rest)

theorem Returns.cases {x : Except ε α} (holds : Returns x Q E) :
    (∃ a, x = .ok a ∧ Q a) ∨ ∃ e, x = .error e ∧ E e := by
  cases x with
  | ok a => exact .inl ⟨a, rfl, holds⟩
  | error e => exact .inr ⟨e, rfl, holds⟩

end Returning
