import RSQLite.Regexp.Match

/-!
What `re_match()` decides. A program whose jumps stay inside of it is a nondeterministic machine
over the characters of the text, each seen together with the one before. The two arrays of states
never overflow, and a match is reported if and only if the machine has an accepting run.
-/
namespace RSQLite.Regexp

/-- The opcode stands at `x`, and leads to none behind `size`. -/
def Instr.InBounds (size x : Nat) (i : Instr) : Prop :=
  match i.op with
  | .fork => 0 ≤ x + i.arg ∧ x + i.arg ≤ size
  | .goto => 0 < i.arg ∧ x + i.arg ≤ size
  | .ccInc | .ccExc => 0 ≤ i.arg ∧ x + i.arg ≤ size
  | _ => True

/-- The opcodes from `x` on lead to none behind `size`. -/
def ReClosed (size x : Nat) (ops : ReProgram) : Prop :=
  ∀ (k : Nat) i, ops[k]? = some i → i.InBounds size (x + k)

/-- A program that is ready to be run. -/
def ReComplete (ops : ReProgram) : Prop :=
  ∃ body : ReProgram, ops = body ++ [⟨.accept, 0⟩] ∧ ReClosed body.length 0 body

theorem ReComplete.instr {ops : ReProgram} (complete : ReComplete ops) {x : Nat} {i : Instr}
    (here : ops[x]? = some i) :
    (i.op ≠ .accept → x + 1 < ops.length) ∧ i.InBounds (ops.length - 1) x := by
  obtain ⟨body, rfl, closed⟩ := complete
  have size : (body ++ [(⟨.accept, 0⟩ : Instr)]).length = body.length + 1 := by simp
  rw [size, Nat.add_sub_cancel]
  by_cases inside : x < body.length
  · rw [List.getElem?_append_left inside] at here
    exact ⟨fun _ => by omega, by simpa using closed x i here⟩
  · rw [List.getElem?_append_right (by omega), List.getElem?_singleton] at here
    split at here
    · obtain rfl := Option.some.inj here
      exact ⟨fun other => absurd rfl other, trivial⟩
    · exact absurd here (by simp)

/-- `re_match()` as a machine. A round is a character and the one in front of it. -/
def reMachine (ops : ReProgram) : Machine Nat (Nat × Nat) where
  still g x :=
    match visit ops g.1 g.2 x with
    | .ok (.goes this _) => this
    | _ => []
  moves g x :=
    match visit ops g.1 g.2 x with
    | .ok (.goes _ next) => next
    | _ => []
  halts x := ops[x]?.map Instr.op == some .accept
  final x := endsAccepted ops (ops.length + 1) x == .ok true

/-- The rounds of a text behind the character `c`. The last one reads its end. -/
def rounds (c : Nat) : List Nat → List (Nat × Nat)
  | [] => [(c, reEof)]
  | d :: rest => (c, d) :: rounds d rest

/-- The characters that are read from at most `n` bytes, up to a NUL. -/
def decoded (noCase : Bool) : Nat → Bytes → List Nat
  | 0, _ => []
  | n + 1, z =>
      let (c, rest) := nextChar noCase z
      if c = 0 then [] else c :: decoded noCase n rest

def textChars (noCase : Bool) (z : Bytes) : List Nat := decoded noCase z.length z

theorem jump_ok {x : Nat} {arg : Int} {size : Nat} (low : 0 ≤ x + arg) (high : x + arg ≤ size) :
    ∃ t, jump x arg = .ok t ∧ t ≤ size ∧ (t : Int) = x + arg := by
  refine ⟨((x : Int) + arg).toNat, if_pos low, ?_, Int.toNat_of_nonneg low⟩
  omega

theorem ccHit_ok {ops : ReProgram} {x c n : Nat} (inside : x + n < ops.length) (fuel : Nat) :
    ∀ j, j ≤ n + 1 → n + 2 ≤ fuel + j → ∃ b, ccHit ops x c n fuel j = .ok b := by
  induction fuel with
  | zero =>
      intro j within enough
      omega
  | succ fuel ih =>
      intro j within enough
      rw [ccHit]
      split
      · next more =>
          rw [List.getElem?_eq_getElem (by omega : x + j < ops.length),
            List.getElem?_eq_getElem (by omega : x + j + 1 < ops.length)]
          simp only
          split
          · split
            · exact ⟨true, rfl⟩
            · exact ih (j + 1) (by omega) (by omega)
          · split
            · split
              · exact ⟨true, rfl⟩
              · exact ih (j + 2) (by omega) (by omega)
            · exact ih (j + 2) (by omega) (by omega)
      · exact ⟨false, rfl⟩

/-- What the visit of a state does that is not the last one. -/
theorem visit_goes {ops : ReProgram} (complete : ReComplete ops) (cPrev c : Nat) {x : Nat}
    {i : Instr} (here : ops[x]? = some i) (goes : i.op ≠ .accept) :
    ∃ this next, visit ops cPrev c x = .ok (.goes this next) ∧
      (∀ t ∈ this, t < ops.length) ∧ ∀ t ∈ next, t < ops.length := by
  obtain ⟨further, bounds⟩ := complete.instr here
  have further := further goes
  have reads (hit : Prop) [Decidable hit] :
      ∀ t ∈ (if hit then [x + 1] else []), t < ops.length := by
    split <;> simp [further]
  have none_ : ∀ t ∈ ([] : List Nat), t < ops.length := fun _ member => nomatch member
  have targets {t : Nat} (le : t ≤ ops.length - 1) : ∀ s ∈ [t], s < ops.length := by
    intro s member
    have := List.mem_singleton.mp member
    omega
  obtain ⟨op, arg⟩ := i
  have class_ (low : 0 ≤ arg) (high : x + arg ≤ ((ops.length - 1 : Nat) : Int)) :
      ∃ b, ccHit ops x c arg.toNat (arg.toNat + 1) 1 = .ok b :=
    ccHit_ok (by omega) _ 1 (by omega) (by omega)
  cases op with
  | accept => exact absurd rfl goes
  | matchChar | any | word | notWord | digit | notDigit | space | notSpace =>
      rw [visit, here]
      exact ⟨_, _, rfl, none_, reads _⟩
  | atStart | boundary =>
      rw [visit, here]
      exact ⟨_, _, rfl, reads _, none_⟩
  | anyStar =>
      refine ⟨[x + 1], [x], ?_, by simp [further], by simp; omega⟩
      rw [visit, here]
  | fork =>
      obtain ⟨t, jumps, le, _⟩ := jump_ok bounds.1 bounds.2
      refine ⟨[t, x + 1], [], ?_, by simp; omega, none_⟩
      rw [visit, here]
      simp only [jumps]
      rfl
  | goto =>
      obtain ⟨t, jumps, le, _⟩ := jump_ok (by have := bounds.1; omega) bounds.2
      refine ⟨[t], [], ?_, targets le, none_⟩
      rw [visit, here]
      simp only [jumps]
      rfl
  | ccInc =>
      obtain ⟨t, jumps, le, _⟩ := jump_ok (by have := bounds.1; omega) bounds.2
      obtain ⟨b, hit⟩ := class_ bounds.1 bounds.2
      refine ⟨[], if b then [t] else [], ?_, none_, by cases b <;> simp; omega⟩
      rw [visit, here]
      simp only [jumps, hit]
      rfl
  | ccExc =>
      obtain ⟨t, jumps, le, _⟩ := jump_ok (by have := bounds.1; omega) bounds.2
      obtain ⟨b, hit⟩ := class_ bounds.1 bounds.2
      rw [visit, here]
      simp only [jumps, hit]
      split
      · exact ⟨[], [], rfl, none_, none_⟩
      · exact ⟨[], if !b then [t] else [], rfl, none_, by cases b <;> simp; omega⟩
  | ccValue | ccRange =>
      refine ⟨[], [], ?_, none_, none_⟩
      rw [visit, here]

theorem visit_accept {ops : ReProgram} {x : Nat} {i : Instr} (here : ops[x]? = some i)
    (accept : i.op = .accept) (cPrev c : Nat) : visit ops cPrev c x = .ok .accepted := by
  obtain ⟨op, arg⟩ := i
  obtain rfl : op = .accept := accept
  rw [visit, here]

theorem halts_of {ops : ReProgram} {x : Nat} {i : Instr} (here : ops[x]? = some i) :
    (reMachine ops).halts x = (i.op == .accept) := by
  simp [reMachine, here]

theorem visit_machine {ops : ReProgram} (complete : ReComplete ops) (g : Nat × Nat) {x : Nat}
    (inside : x < ops.length) :
    visit ops g.1 g.2 x = .ok (if (reMachine ops).halts x then .accepted
      else .goes ((reMachine ops).still g x) ((reMachine ops).moves g x)) := by
  have here := List.getElem?_eq_getElem inside
  rw [halts_of here]
  by_cases accept : ops[x].op = .accept
  · rw [visit_accept here accept, accept]
    rfl
  · obtain ⟨this, next, visited, _⟩ := visit_goes complete g.1 g.2 here accept
    simp only [visited, beq_iff_eq, accept, ite_false, reMachine]

theorem reMachine_closed {ops : ReProgram} (complete : ReComplete ops) :
    (reMachine ops).ClosedIn (List.range ops.length) := by
  intro g x inside
  have here := List.getElem?_eq_getElem (List.mem_range.mp inside)
  simp only [reMachine]
  by_cases accept : (ops.get ⟨x, List.mem_range.mp inside⟩).op = .accept
  · rw [visit_accept here accept]
    exact ⟨List.nil_subset _, List.nil_subset _⟩
  · obtain ⟨this, next, visited, stays, moves⟩ := visit_goes complete g.1 g.2 here accept
    rw [visited]
    exact ⟨fun t member => List.mem_range.mpr (stays t member),
      fun t member => List.mem_range.mpr (moves t member)⟩

def StateSet (n : Nat) (set : List Nat) : Prop := set.Nodup ∧ set ⊆ List.range n

theorem StateSet.nil (n : Nat) : StateSet n [] := ⟨List.nodup_nil, List.nil_subset _⟩

theorem StateSet.add {n t : Nat} {set : List Nat} (states : StateSet n set) (inside : t < n) :
    StateSet n (Machine.add set t) := by
  refine ⟨Machine.add_nodup states.1 t, fun s member => ?_⟩
  rcases Machine.mem_add.mp member with old | rfl
  · exact states.2 old
  · exact List.mem_range.mpr inside

theorem reAddState_ok {n t : Nat} {set : List Nat} (states : StateSet n set) (inside : t < n)
    (small : n ≤ 2 ^ 16) : reAddState n set t = .ok (Machine.add set t) := by
  rw [reAddState, Machine.add]
  split
  · rfl
  · next new =>
      have room : (t :: set).length ≤ (List.range n).length := by
        refine (List.Nodup.subperm (List.nodup_cons.mpr ⟨new, states.1⟩) ?_).length_le
        exact List.cons_subset.mpr ⟨List.mem_range.mpr inside, states.2⟩
      rw [List.length_range, List.length_cons] at room
      rw [if_pos (by omega), Nat.mod_eq_of_lt (by omega)]

theorem foldlM_reAddState {n : Nat} (small : n ≤ 2 ^ 16) (ts : List Nat) :
    ∀ set : List Nat, StateSet n set → ts ⊆ List.range n →
      ts.foldlM (reAddState n) set = (Except.ok (Machine.addAll set ts) : Outcome _) ∧
        StateSet n (Machine.addAll set ts) := by
  induction ts with
  | nil => exact fun set states _ => ⟨rfl, states⟩
  | cons t ts ih =>
      intro set states within
      obtain ⟨here, rest⟩ := List.cons_subset.mp within
      have inside := List.mem_range.mp here
      obtain ⟨folded, after⟩ := ih (Machine.add set t) (states.add inside) rest
      refine ⟨?_, after⟩
      rw [List.foldlM_cons, reAddState_ok states inside small]
      exact folded

variable {ops : ReProgram}

theorem visitStates_machine (complete : ReComplete ops) (small : ops.length ≤ 2 ^ 16)
    (g : Nat × Nat) (fuel : Nat) :
    ∀ (i : Nat) (this next : List Nat), StateSet ops.length this → StateSet ops.length next →
      visitStates ops g.1 g.2 fuel i this next =
        match (reMachine ops).visits g fuel i this next with
        | none => .error .unfinished
        | some ends => .ok ends := by
  induction fuel with
  | zero => exact fun i this next _ _ => rfl
  | succ fuel ih =>
      intro i this next these nexts
      rw [visitStates, Machine.visits]
      cases here : this[i]? with
      | none => rfl
      | some x =>
          have member := these.2 (List.mem_of_getElem? here)
          obtain ⟨stays, moves⟩ := reMachine_closed complete g x member
          obtain ⟨foldThis, these⟩ := foldlM_reAddState small _ this these stays
          obtain ⟨foldNext, nexts⟩ := foldlM_reAddState small _ next nexts moves
          simp only [visit_machine complete g (List.mem_range.mp member)]
          cases (reMachine ops).halts x with
          | true => rfl
          | false =>
              have rest := ih (i + 1) _ _ these nexts
              simpa only [bind, Except.bind, Bool.false_eq_true, ite_false, foldThis, foldNext]
                using rest

/-- Jumps go forward, so that their end is found. -/
theorem endsAccepted_ok (complete : ReComplete ops) (fuel : Nat) :
    ∀ x, x < ops.length → ops.length < fuel + x → ∃ b, endsAccepted ops fuel x = .ok b := by
  induction fuel with
  | zero =>
      intro x inside enough
      omega
  | succ fuel ih =>
      intro x inside enough
      have here := List.getElem?_eq_getElem inside
      obtain ⟨further, bounds⟩ := complete.instr here
      rw [endsAccepted, here]
      obtain ⟨op, arg⟩ := ops.get ⟨x, inside⟩
      simp only
      split
      · next goto =>
          simp only [Instr.InBounds, goto] at bounds
          obtain ⟨t, jumps, le, value⟩ := jump_ok (by omega) bounds.2
          rw [jumps]
          exact ih t (by omega) (by omega)
      · exact ⟨_, rfl⟩

theorem anyM_ends (complete : ReComplete ops) (states : List Nat)
    (within : states ⊆ List.range ops.length) :
    states.anyM (endsAccepted ops (ops.length + 1)) =
      (Except.ok (states.any (reMachine ops).final) : Outcome Bool) := by
  induction states with
  | nil => rfl
  | cons x states ih =>
      obtain ⟨here, rest⟩ := List.cons_subset.mp within
      have inside := List.mem_range.mp here
      obtain ⟨b, ends⟩ := endsAccepted_ok complete (ops.length + 1) x inside (by omega)
      have final : (reMachine ops).final x = b := by
        simp only [reMachine, ends]
        cases b <;> rfl
      rw [List.anyM, ends, List.any_cons, final]
      cases b with
      | true => rfl
      | false => exact ih rest

theorem run_nil (n : Nat) (gs : List (Nat × Nat)) :
    (reMachine ops).run n gs [] = some false := by
  induction gs with
  | nil => rfl
  | cons g gs ih => exact ih

theorem rounds_next (noCase : Bool) (c : Nat) {k : Nat} {input : Bytes}
    (within : input.length ≤ k) :
    let d := (nextChar noCase input).1
    let rest := (nextChar noCase input).2
    (d = 0 ∧ rounds c (decoded noCase k input) = [(c, reEof)]) ∨
      (d ≠ 0 ∧ rest.length < input.length ∧
        rounds c (decoded noCase k input) = (c, d) :: rounds d (decoded noCase (k - 1) rest)) := by
  intro d rest
  cases k with
  | zero =>
      obtain rfl := List.length_eq_zero_iff.mp (Nat.le_zero.mp within)
      exact .inl ⟨congrArg Prod.fst (nextChar_nil noCase), rfl⟩
  | succ k =>
      have unfolded : decoded noCase (k + 1) input =
          if d = 0 then [] else d :: decoded noCase k rest := rfl
      by_cases ends : d = 0
      · exact .inl ⟨ends, by rw [unfolded, if_pos ends, rounds]⟩
      · refine .inr ⟨ends, ?_, by rw [unfolded, if_neg ends, rounds, Nat.add_sub_cancel]⟩
        cases input with
        | nil => exact absurd (congrArg Prod.fst (nextChar_nil noCase)) ends
        | cons b input => exact Nat.lt_succ_of_le (nextChar_length noCase b input)

/-- The rounds of `re_match()` are those of the machine. -/
theorem matchLoop_run (complete : ReComplete ops) (small : ops.length ≤ 2 ^ 16) (noCase : Bool)
    (fuel : Nat) :
    ∀ (k c : Nat) (input : Bytes) (states : List Nat), StateSet ops.length states → c ≠ 0 →
      input.length ≤ k → input.length + 2 ≤ fuel →
      matchLoop ops noCase fuel c input states =
        match (reMachine ops).run ops.length (rounds c (decoded noCase k input)) states with
        | none => .error .unfinished
        | some b => .ok b := by
  induction fuel with
  | zero =>
      intro k c input states _ _ _ enough
      omega
  | succ fuel ih =>
      intro k c input states these more within enough
      rw [matchLoop]
      by_cases empty : states = []
      · subst empty
        rw [run_nil, if_neg (by simp)]
        rfl
      have goOn : c ≠ reEof ∧ states ≠ [] := ⟨more, empty⟩
      obtain ⟨r, visits, ends⟩ := Machine.visits_end (reMachine_closed complete)
        (ops.length + 1) 0 states [] (.start (c, (nextChar noCase input).1) these.1 these.2)
        (by simp) (Nat.zero_le _)
      have same := visitStates_machine complete small (c, (nextChar noCase input).1)
        (ops.length + 1) 0 states [] these (.nil _)
      rw [visits] at same
      simp only [if_pos goOn, same, bind, Except.bind]
      have round := Machine.run_cons visits
      cases ends with
      | halted =>
          rcases rounds_next noCase c within with ⟨last, rest⟩ | ⟨_, _, rest⟩
          · rw [rest, ← show (nextChar noCase input).1 = reEof from last, round]
            rfl
          · rw [rest, round]
            rfl
      | next this next i visited all =>
          have nexts : StateSet ops.length next := ⟨visited.nextNodup, visited.nextWithin⟩
          rcases rounds_next noCase c within with ⟨last, rest⟩ | ⟨goes, shorter, rest⟩
          · obtain ⟨fuel, rfl⟩ : ∃ k, fuel = k + 1 := ⟨fuel - 1, by omega⟩
            rw [rest, ← show (nextChar noCase input).1 = reEof from last, round, last]
            simp only [matchLoop, reEof, ne_eq, not_true, false_and, ite_false]
            rw [anyM_ends complete next nexts.2]
            rfl
          · rw [rest, round]
            exact ih (k - 1) _ _ next nexts goes (by omega) (by omega)

theorem matchLoop_accepts (complete : ReComplete ops) (small : ops.length ≤ 2 ^ 16)
    (noCase : Bool) {c : Nat} (more : c ≠ 0) (z : Bytes) :
    ∃ b, matchLoop ops noCase (z.length + 2) c z [0] = .ok b ∧
      (b = true ↔ (reMachine ops).Accepts (rounds c (textChars noCase z)) 0) := by
  have inside : 0 < ops.length := by
    obtain ⟨body, rfl, _⟩ := complete
    simp
  have start : StateSet ops.length [0] :=
    ⟨List.nodup_singleton 0, by simpa using inside⟩
  obtain ⟨b, ran, decides⟩ := Machine.run_iff (reMachine_closed complete)
    (rounds c (textChars noCase z)) [0] start.1 start.2
  have loop := matchLoop_run complete small noCase _ z.length c z [0] start more le_rfl le_rfl
  rw [List.length_range] at ran
  rw [← textChars, ran] at loop
  exact ⟨b, loop, decides.trans (by simp)⟩

end RSQLite.Regexp
