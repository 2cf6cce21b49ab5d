import RSQLite.Regexp.Automaton

/-!
What each opcode does, as steps of the machine.
-/
namespace RSQLite.Regexp

section Code

/-- The opcodes `code` stand in the program from `x` on. -/
def CodeAt (ops : ReProgram) (x : Nat) (code : ReProgram) : Prop :=
  ∀ (k : Nat) i, code[k]? = some i → ops[x + k]? = some i

variable {ops code a b : ReProgram} {x : Nat} {i : Instr}

theorem CodeAt.head (at_ : CodeAt ops x (i :: code)) : ops[x]? = some i := at_ 0 i rfl

theorem CodeAt.tail (at_ : CodeAt ops x (i :: code)) : CodeAt ops (x + 1) code := by
  intro k j found
  rw [Nat.add_assoc, Nat.add_comm 1 k]
  exact at_ (k + 1) j found

theorem CodeAt.left (at_ : CodeAt ops x (a ++ b)) : CodeAt ops x a := by
  intro k i found
  have inside := (List.getElem?_eq_some_iff.mp found).1
  exact at_ k i (by rw [List.getElem?_append_left inside, found])

theorem CodeAt.right (at_ : CodeAt ops x (a ++ b)) : CodeAt ops (x + a.length) b := by
  intro k i found
  rw [Nat.add_assoc]
  refine at_ (a.length + k) i ?_
  rw [List.getElem?_append_right (Nat.le_add_right _ _), Nat.add_sub_cancel_left, found]

theorem CodeAt.whole (ops : ReProgram) : CodeAt ops 0 ops := by
  intro k i found
  rwa [Nat.zero_add]

end Code

variable {ops : ReProgram} {x : Nat} {arg : Int}

theorem goes_of {i : Instr} (here : ops[x]? = some i) (goes : i.op ≠ .accept) :
    (reMachine ops).halts x = false := by
  rw [halts_of here]
  simpa using goes

theorem final_of {i : Instr} (here : ops[x]? = some i) (stays : i.op ≠ .goto) :
    (reMachine ops).final x = (i.op == .accept) := by
  obtain ⟨op, arg⟩ := i
  simp only [reMachine, endsAccepted, here, if_neg (show op ≠ .goto from stays)]
  cases op <;> rfl

/-- The characters that an opcode lets pass. At the end there is none. -/
def passes (op : ReOp) (arg : Int) (c : Nat) : Option Bool :=
  match op with
  | .matchChar => some (arg == c)
  | .any => some (c != 0)
  | .word => some (reWordChar c)
  | .notWord => some (!reWordChar c && c != 0)
  | .digit => some (reDigitChar c)
  | .notDigit => some (!reDigitChar c && c != 0)
  | .space => some (reSpaceChar c)
  | .notSpace => some (!reSpaceChar c && c != 0)
  | _ => none

theorem passes_ops {op : ReOp} {c : Nat} {b : Bool} (passes_ : passes op arg c = some b) :
    op ≠ .accept ∧ op ≠ .goto := by
  cases op <;> simp [passes] at passes_ <;> simp

theorem read_steps {op : ReOp} (here : ops[x]? = some ⟨op, arg⟩) {g : Nat × Nat} {b : Bool}
    (passes_ : passes op arg g.2 = some b) :
    (reMachine ops).still g x = [] ∧ (reMachine ops).moves g x = if b then [x + 1] else [] := by
  simp only [reMachine, visit, here]
  cases op <;> simp only [passes, reduceCtorEq, Option.some.injEq] at passes_
  all_goals
    subst passes_
    exact ⟨rfl, rfl⟩

theorem atStart_steps (here : ops[x]? = some ⟨.atStart, arg⟩) (g : Nat × Nat) :
    (reMachine ops).still g x = (if g.1 = reStart then [x + 1] else []) ∧
      (reMachine ops).moves g x = [] := by
  constructor <;> simp only [reMachine, visit, here]

theorem boundary_steps (here : ops[x]? = some ⟨.boundary, arg⟩) (g : Nat × Nat) :
    (reMachine ops).still g x = (if reWordChar g.2 ≠ reWordChar g.1 then [x + 1] else []) ∧
      (reMachine ops).moves g x = [] := by
  constructor <;> simp only [reMachine, visit, here]

theorem anyStar_steps (here : ops[x]? = some ⟨.anyStar, arg⟩) (g : Nat × Nat) :
    (reMachine ops).still g x = [x + 1] ∧ (reMachine ops).moves g x = [x] := by
  constructor <;> simp only [reMachine, visit, here]

theorem jump_of {t : Nat} (target : (t : Int) = x + arg) : jump x arg = .ok t := by
  rw [jump, if_pos (by omega), ← target, Int.toNat_natCast]

theorem fork_steps (here : ops[x]? = some ⟨.fork, arg⟩) {t : Nat} (target : (t : Int) = x + arg)
    (g : Nat × Nat) :
    (reMachine ops).still g x = [t, x + 1] ∧ (reMachine ops).moves g x = [] := by
  simp only [reMachine, visit, here, jump_of target]
  exact ⟨rfl, rfl⟩

theorem goto_steps (here : ops[x]? = some ⟨.goto, arg⟩) {t : Nat} (target : (t : Int) = x + arg)
    (g : Nat × Nat) :
    (reMachine ops).still g x = [t] ∧ (reMachine ops).moves g x = [] := by
  simp only [reMachine, visit, here, jump_of target]
  exact ⟨rfl, rfl⟩

/-- More than enough jumps do not change where they lead. -/
theorem endsAccepted_mono {n k : Nat} {b : Bool} (le : n ≤ k) :
    ∀ {x : Nat}, endsAccepted ops n x = .ok b → endsAccepted ops k x = .ok b := by
  induction n generalizing k with
  | zero =>
      intro x ends
      cases ends
  | succ n ih =>
      intro x ends
      obtain ⟨k, rfl⟩ : ∃ j, k = j + 1 := ⟨k - 1, by omega⟩
      rw [endsAccepted] at ends ⊢
      cases here : ops[x]? with
      | none =>
          rw [here] at ends
          cases ends
      | some i =>
          rw [here] at ends
          obtain ⟨op, arg⟩ := i
          simp only at ends ⊢
          split at ends
          · next goto =>
              rw [if_pos goto]
              cases jumped : jump x arg with
              | error e =>
                  rw [jumped] at ends
                  cases ends
              | ok t =>
                  rw [jumped] at ends
                  exact ih (Nat.le_of_succ_le_succ le) ends
          · next goto =>
              rw [if_neg goto]
              exact ends

theorem goto_final (complete : ReComplete ops) (here : ops[x]? = some ⟨.goto, arg⟩) {t : Nat}
    (target : (t : Int) = x + arg) : (reMachine ops).final x = (reMachine ops).final t := by
  have inside := (List.getElem?_eq_some_iff.mp here).1
  obtain ⟨further, bounds⟩ := complete.instr here
  simp only [Instr.InBounds] at bounds
  obtain ⟨b, ends⟩ := endsAccepted_ok complete ops.length t (by omega) (by omega)
  have there : endsAccepted ops (ops.length + 1) t = .ok b :=
    endsAccepted_mono (Nat.le_succ _) ends
  have first : endsAccepted ops (ops.length + 1) x = .ok b := by
    simp only [endsAccepted, here, jump_of target]
    exact ends
  simp only [reMachine, there, first]

end RSQLite.Regexp
