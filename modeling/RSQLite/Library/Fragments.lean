import Mathlib.Logic.Relation
import Mathlib.Order.Basic
import Mathlib.Data.Nat.Basic
import RSQLite.Library.Lockstep

/-!
Parts of a machine that stand for relations between places in the text. A place is viewed as the
rounds that are left there. The runs from `s` lead to `t`, and from where to where is what the
relation says. Parts are put together as relations are.
-/
namespace Machine

variable {σ γ π : Type} {m : Machine σ γ} {view : π → List γ}

structure Leads (m : Machine σ γ) (view : π → List γ) (s t : σ) (R : π → π → Prop) : Prop where
  sound : ∀ {n : Nat} {p : π}, m.AcceptsIn n (view p) s →
    ∃ k q, k ≤ n ∧ R p q ∧ m.AcceptsIn k (view q) t
  complete : ∀ {p q : π}, R p q → m.Accepts (view q) t → m.Accepts (view p) s

section Rules

variable {s t u : σ} {R S : π → π → Prop}

theorem Leads.refl : m.Leads view s s Eq where
  sound := fun accepts => ⟨_, _, le_rfl, rfl, accepts⟩
  complete := fun same accepts => same ▸ accepts

theorem Leads.comp (first : m.Leads view s t R) (second : m.Leads view t u S) :
    m.Leads view s u (Relation.Comp R S) where
  sound := by
    intro n p accepts
    obtain ⟨k, q, le, step, rest⟩ := first.sound accepts
    obtain ⟨j, r, le', step', rest'⟩ := second.sound rest
    exact ⟨j, r, le'.trans le, ⟨q, step, step'⟩, rest'⟩
  complete := by
    rintro p r ⟨q, step, step'⟩ accepts
    exact first.complete step (second.complete step' accepts)

theorem Leads.congr (leads : m.Leads view s t R) (same : ∀ p q, R p q ↔ S p q) :
    m.Leads view s t S := by
  have equal : R = S := funext fun p => funext fun q => propext (same p q)
  rwa [equal] at leads

variable (rounds : ∀ p, view p ≠ [])
include rounds

/-- The first step of a run from a state that does not stop it. -/
theorem AcceptsIn.step {n : Nat} {p : π} (goes : m.halts s = false)
    (accepts : m.AcceptsIn n (view p) s) :
    ∃ k g gs, n = k + 1 ∧ view p = g :: gs ∧
      ((∃ t ∈ m.still g s, m.AcceptsIn k (view p) t) ∨ ∃ t ∈ m.moves g s, m.AcceptsIn k gs t) := by
  obtain ⟨g, gs, here⟩ := List.exists_cons_of_ne_nil (rounds p)
  rw [here] at accepts ⊢
  cases accepts with
  | halt halts => exact absurd (goes.symm.trans halts) (by decide)
  | still step rest => exact ⟨_, g, gs, rfl, rfl, .inl ⟨_, step, rest⟩⟩
  | moves step rest => exact ⟨_, g, gs, rfl, rfl, .inr ⟨_, step, rest⟩⟩

theorem still_accepts {p : π} (step : ∀ g, t ∈ m.still g s) (accepts : m.Accepts (view p) t) :
    m.Accepts (view p) s := by
  obtain ⟨g, gs, here⟩ := List.exists_cons_of_ne_nil (rounds p)
  rw [here] at accepts ⊢
  exact accepts.still (step g)

theorem Leads.jump (goes : m.halts s = false) (still : ∀ g, m.still g s = [t])
    (moves : ∀ g, m.moves g s = []) (rest : m.Leads view t u R) : m.Leads view s u R where
  sound := by
    intro n p accepts
    obtain ⟨k, g, gs, rfl, here, ⟨a, step, accepts⟩ | ⟨a, step, _⟩⟩ := accepts.step rounds goes
    · rw [still, List.mem_singleton] at step
      subst step
      obtain ⟨j, q, le, related, final⟩ := rest.sound accepts
      exact ⟨j, q, le.trans (Nat.le_succ k), related, final⟩
    · rw [moves] at step
      exact absurd step List.not_mem_nil
  complete := fun related accepts =>
    still_accepts rounds (fun g => by rw [still]; exact List.mem_singleton_self t)
      (rest.complete related accepts)

theorem Leads.fork {a b : σ} (goes : m.halts s = false) (still : ∀ g, m.still g s = [a, b])
    (moves : ∀ g, m.moves g s = []) (left : m.Leads view a u R) (right : m.Leads view b u S) :
    m.Leads view s u (fun p q => R p q ∨ S p q) where
  sound := by
    intro n p accepts
    obtain ⟨k, g, gs, rfl, here, ⟨c, step, accepts⟩ | ⟨c, step, _⟩⟩ := accepts.step rounds goes
    · rw [still, List.mem_cons, List.mem_singleton] at step
      rcases step with rfl | rfl
      · obtain ⟨j, q, le, related, final⟩ := left.sound accepts
        exact ⟨j, q, le.trans (Nat.le_succ k), .inl related, final⟩
      · obtain ⟨j, q, le, related, final⟩ := right.sound accepts
        exact ⟨j, q, le.trans (Nat.le_succ k), .inr related, final⟩
    · rw [moves] at step
      exact absurd step List.not_mem_nil
  complete := by
    rintro p q (related | related) accepts
    · exact still_accepts rounds (fun g => by rw [still]; simp) (left.complete related accepts)
    · exact still_accepts rounds (fun g => by rw [still]; simp) (right.complete related accepts)

/-- A fork back to the start of a part repeats it. -/
theorem Leads.loop {a : σ} (goes : m.halts s = false) (still : ∀ g, m.still g s = [a, t])
    (moves : ∀ g, m.moves g s = []) (body : m.Leads view a s R) :
    m.Leads view s t (Relation.ReflTransGen R) where
  sound := by
    intro n
    induction n using Nat.strong_induction_on with
    | _ n ih =>
        intro p accepts
        obtain ⟨k, g, gs, rfl, here, ⟨c, step, accepts⟩ | ⟨c, step, _⟩⟩ :=
          accepts.step rounds goes
        · rw [still, List.mem_cons, List.mem_singleton] at step
          rcases step with rfl | rfl
          · obtain ⟨j, q, le, related, rest⟩ := body.sound accepts
            obtain ⟨i, r, le', more, final⟩ := ih j (Nat.lt_succ_of_le le) rest
            exact ⟨i, r, le'.trans (le.trans (Nat.le_succ k)), .head related more, final⟩
          · exact ⟨k, p, Nat.le_succ k, .refl, accepts⟩
        · rw [moves] at step
          exact absurd step List.not_mem_nil
  complete := by
    intro p q related accepts
    have leave : m.Accepts (view q) s := still_accepts rounds (fun g => by rw [still]; simp) accepts
    induction related using Relation.ReflTransGen.head_induction_on with
    | refl => exact leave
    | head first _ rest =>
        exact still_accepts rounds (fun g => by rw [still]; simp) (body.complete first rest)

theorem Leads.guard {C : γ → Prop} [DecidablePred C] (goes : m.halts s = false)
    (still : ∀ g, m.still g s = if C g then [t] else []) (moves : ∀ g, m.moves g s = []) :
    m.Leads view s t (fun p q => (∃ g gs, view p = g :: gs ∧ C g) ∧ p = q) where
  sound := by
    intro n p accepts
    obtain ⟨k, g, gs, rfl, here, ⟨c, step, accepts⟩ | ⟨c, step, _⟩⟩ := accepts.step rounds goes
    · rw [still] at step
      split at step
      · next holds =>
          rw [List.mem_singleton] at step
          subst step
          exact ⟨k, p, Nat.le_succ k, ⟨⟨g, gs, here, holds⟩, rfl⟩, accepts⟩
      · exact absurd step List.not_mem_nil
    · rw [moves] at step
      exact absurd step List.not_mem_nil
  complete := by
    rintro p q ⟨⟨g, gs, here, holds⟩, rfl⟩ accepts
    rw [here] at accepts ⊢
    exact accepts.still (by rw [still, if_pos holds]; exact List.mem_singleton_self t)

/-- A round is taken, if it meets a condition. `C` is not to hold of the last round. -/
theorem Leads.read {C : γ → Prop} [DecidablePred C] (goes : m.halts s = false)
    (still : ∀ g, m.still g s = []) (moves : ∀ g, m.moves g s = if C g then [t] else [])
    (next : ∀ p g gs, view p = g :: gs → C g → ∃ q, view q = gs) :
    m.Leads view s t (fun p q => ∃ g, C g ∧ view p = g :: view q) where
  sound := by
    intro n p accepts
    obtain ⟨k, g, gs, rfl, here, ⟨c, step, _⟩ | ⟨c, step, accepts⟩⟩ := accepts.step rounds goes
    · rw [still] at step
      exact absurd step List.not_mem_nil
    · rw [moves] at step
      split at step
      · next holds =>
          rw [List.mem_singleton] at step
          subst step
          obtain ⟨q, rfl⟩ := next p g gs here holds
          exact ⟨k, q, Nat.le_succ k, ⟨g, holds, here⟩, accepts⟩
      · exact absurd step List.not_mem_nil
  complete := by
    rintro p q ⟨g, holds, here⟩ accepts
    rw [here]
    exact accepts.moves (by rw [moves, if_pos holds]; exact List.mem_singleton_self t)

/-- A state that is kept from round to round. `C` holds of all of them but the last one, and no
run ends in the state. -/
theorem Leads.wait {C : γ → Prop} (goes : m.halts s = false) (stays : m.final s = false)
    (still : ∀ g, m.still g s = [t]) (moves : ∀ g, m.moves g s = [s])
    (next : ∀ p g gs, view p = g :: gs → (C g ∧ ∃ q, view q = gs) ∨ gs = []) :
    m.Leads view s t (Relation.ReflTransGen fun p q => ∃ g, C g ∧ view p = g :: view q) where
  sound := by
    intro n
    induction n with
    | zero =>
        intro p accepts
        obtain ⟨k, g, gs, more, _⟩ := accepts.step rounds goes
        omega
    | succ n ih =>
        intro p accepts
        obtain ⟨k, g, gs, more, here, ⟨c, step, accepts⟩ | ⟨c, step, accepts⟩⟩ :=
          accepts.step rounds goes
        · obtain rfl := Nat.succ.inj more
          rw [still, List.mem_singleton] at step
          subst step
          exact ⟨n, p, Nat.le_succ n, .refl, accepts⟩
        · obtain rfl := Nat.succ.inj more
          rw [moves, List.mem_singleton] at step
          subst step
          rcases next p g gs here with ⟨holds, q, rfl⟩ | rfl
          · obtain ⟨j, r, le, related, final⟩ := ih accepts
            exact ⟨j, r, le.trans (Nat.le_succ n), .head ⟨g, holds, here⟩ related, final⟩
          · cases accepts with
            | final final => exact absurd (stays.symm.trans final) (by decide)
  complete := by
    intro p q related accepts
    have leave : m.Accepts (view q) s :=
      still_accepts rounds (fun g => by rw [still]; exact List.mem_singleton_self t) accepts
    induction related using Relation.ReflTransGen.head_induction_on with
    | refl => exact leave
    | head first _ rest =>
        obtain ⟨g, _, here⟩ := first
        rw [here]
        exact rest.moves (by rw [moves]; exact List.mem_singleton_self s)

end Rules

/-- The relation is gone through `n` times. -/
def iterated (R : π → π → Prop) : Nat → π → π → Prop
  | 0 => Eq
  | n + 1 => Relation.Comp R (iterated R n)

theorem iterated_add {R : π → π → Prop} (n k : Nat) :
    iterated R (n + k) = Relation.Comp (iterated R n) (iterated R k) := by
  induction n with
  | zero => rw [Nat.zero_add, iterated, Relation.eq_comp]
  | succ n ih => rw [Nat.add_right_comm, iterated, iterated, ih, Relation.comp_assoc]

/-- What may be left out `n` times is gone through at most as often. -/
theorem iterated_optional {R : π → π → Prop} (n : Nat) (p q : π) :
    iterated (fun p q => p = q ∨ R p q) n p q ↔ ∃ k ≤ n, iterated R k p q := by
  induction n generalizing p with
  | zero =>
      constructor
      · exact fun same => ⟨0, le_rfl, same⟩
      · rintro ⟨k, le, related⟩
        obtain rfl := Nat.le_zero.mp le
        exact related
  | succ n ih =>
      constructor
      · rintro ⟨r, rfl | step, rest⟩
        · obtain ⟨k, le, related⟩ := (ih _).mp rest
          exact ⟨k, le.trans (Nat.le_succ n), related⟩
        · obtain ⟨k, le, related⟩ := (ih r).mp rest
          exact ⟨k + 1, Nat.succ_le_succ le, r, step, related⟩
      · rintro ⟨k, le, related⟩
        cases k with
        | zero =>
            exact ⟨p, .inl rfl, (ih p).mpr ⟨0, Nat.zero_le n, related⟩⟩
        | succ k =>
            obtain ⟨r, step, rest⟩ := related
            exact ⟨r, .inr step, (ih r).mpr ⟨k, Nat.le_of_succ_le_succ le, rest⟩⟩

end Machine
