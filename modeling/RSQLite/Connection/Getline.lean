import RSQLite.Connection.ImportFile
import RSQLite.Library.Delimited

/-!
The loop of `RS_sqlite_getline()`. A byte that is the last one of `eol` makes it compare what
has been read with `eol`; where too few bytes have been read, the comparison leaves the buffer.
-/
namespace RSQLite

open Delimited

/-- The last bytes are compared from the index `j` down. -/
def LastBytes (buf eol : Bytes) (j : Nat) : Prop :=
  ∀ k, 1 ≤ k → k ≤ j → k ≤ buf.length - 1 ∧
    buf[buf.length - 1 - k]? = eol[eol.length - 1 - k]?

theorem lastBytes_succ (buf eol : Bytes) (j : Nat) :
    LastBytes buf eol (j + 1) ↔ (j + 1 ≤ buf.length - 1 ∧
      buf[buf.length - 1 - (j + 1)]? = eol[eol.length - 1 - (j + 1)]?) ∧ LastBytes buf eol j := by
  constructor
  · intro last
    exact ⟨last (j + 1) (Nat.succ_pos j) (Nat.le_refl _),
      fun k positive below => last k positive (Nat.le_succ_of_le below)⟩
  · rintro ⟨here, before⟩ k positive below
    rcases Nat.lt_or_ge k (j + 1) with less | equal
    · exact before k positive (Nat.le_of_lt_succ less)
    · cases Nat.le_antisymm below equal
      exact here

theorem matchesEol_ok (buf eol : Bytes) (j : Nat) (found : Bool)
    (compared : matchesEol buf eol j = .ok found) : found = true ↔ LastBytes buf eol j := by
  induction j with
  | zero =>
      cases compared
      exact iff_of_true rfl (fun k positive below => by omega)
  | succ j ih =>
      rw [matchesEol] at compared
      rw [lastBytes_succ]
      split at compared
      · cases compared
      · next inside =>
          split at compared
          · next differ =>
              cases compared
              exact iff_of_false Bool.false_ne_true (fun both => differ both.1.2)
          · next same =>
              rw [ih compared]
              exact (and_iff_right ⟨Nat.le_of_not_lt inside, not_not.mp same⟩).symm

/-- After a byte that is the last one of `eol`, the comparison finds out whether what has
been read ends with `eol`. -/
theorem lastBytes_iff (buf eol : Bytes) (ceol : UInt8) (last : eol.getLast? = some ceol) :
    LastBytes (buf ++ [ceol]) eol (eol.length - 1) ↔ eol <:+ buf ++ [ceol] := by
  obtain ⟨init, rfl⟩ := List.getLast?_eq_some_iff.mp last
  have length : (init ++ [ceol]).length - 1 = init.length := by simp
  have length' : (buf ++ [ceol]).length - 1 = buf.length := by simp
  rw [List.suffix_append_self_iff, List.suffix_iff_getElem?, LastBytes, length, length']
  -- the byte at `i` of `eol` is the one `k` bytes before its last one
  have here : ∀ k, 1 ≤ k → k ≤ init.length → k ≤ buf.length →
      ((buf ++ [ceol])[buf.length - k]? = (init ++ [ceol])[init.length - k]? ↔
        buf[buf.length - k]? = init[init.length - k]?) := by
    intro k positive below inside
    rw [List.getElem?_append_left (by omega), List.getElem?_append_left (by omega)]
  constructor
  · intro last
    have shorter : init.length ≤ buf.length := by
      rcases Nat.eq_zero_or_pos init.length with zero | positive
      · omega
      · exact (last init.length positive (Nat.le_refl _)).1
    refine ⟨shorter, fun i h => ?_⟩
    have same := (last (init.length - i) (by omega) (by omega)).2
    rw [here _ (by omega) (by omega) (by omega), show init.length - (init.length - i) = i by omega,
      show buf.length - (init.length - i) = i + buf.length - init.length by omega] at same
    rw [same, List.getElem?_eq_getElem h]
  · rintro ⟨shorter, same⟩ k positive below
    have there := same (init.length - k) (by omega)
    rw [show init.length - k + buf.length - init.length = buf.length - k by omega] at there
    refine ⟨by omega, ?_⟩
    rw [here k positive below (by omega), there, List.getElem?_eq_getElem (by omega)]

section Compared

variable {buf eol : Bytes} {ceol : UInt8}

theorem matchesEol_total (buf eol : Bytes) (j : Nat) (inside : j ≤ buf.length - 1) :
    ∃ found, matchesEol buf eol j = .ok found := by
  induction j with
  | zero => exact ⟨true, rfl⟩
  | succ j ih =>
      rw [matchesEol, if_neg (Nat.not_lt.mpr inside)]
      split
      · exact ⟨false, rfl⟩
      · exact ih (Nat.le_of_succ_le inside)

theorem matchesEol_inside (last : eol.getLast? = some ceol) (inside : eol.length ≤ buf.length + 1) :
    matchesEol (buf ++ [ceol]) eol (eol.length - 1) = .ok (decide (eol <:+ buf ++ [ceol])) := by
  obtain ⟨found, compared⟩ := matchesEol_total (buf ++ [ceol]) eol (eol.length - 1)
    (by rw [List.length_append, List.length_singleton]; omega)
  have ends := (matchesEol_ok _ _ _ _ compared).trans (lastBytes_iff buf eol ceol last)
  rw [compared]
  exact congrArg Except.ok (Bool.eq_iff_iff.mpr (ends.trans decide_eq_true_iff.symm))

theorem matchesEol_outside (short : buf.length + 1 < eol.length) :
    matchesEol (buf ++ [ceol]) eol (eol.length - 1) = .error .outOfBounds := by
  obtain ⟨j, length⟩ : ∃ j, eol.length - 1 = j + 1 := ⟨eol.length - 2, by omega⟩
  rw [length, matchesEol, if_pos (by rw [List.length_append, List.length_singleton]; omega)]

end Compared

section Narrow

variable {memory : Nat → UInt8} {eol : Bytes} {ceol : UInt8}

/-- One byte of the loop: what has been read ends with `eol`, or the loop goes on. -/
theorem getlineLoop_next (last : eol.getLast? = some ceol) (narrow : ceol < 128) (c : UInt8)
    (file buf : Bytes) (nc : Nat) (inside : c = ceol → eol.length ≤ buf.length + 1) :
    getlineLoop memory eol ceol (c :: file) buf nc =
      if eol <:+ buf ++ [c] then
        .ok (nonempty (cString ((buf ++ [c]).take ((buf ++ [c]).length - eol.length))), file)
      else getlineLoop memory eol ceol file (buf ++ [c]) (if buf.length = nc then 2 * nc else nc) := by
  rw [getlineLoop]
  by_cases reached : c = ceol
  · subst reached
    rw [if_pos ⟨rfl, narrow⟩, matchesEol_inside last (inside rfl)]
    by_cases ended : eol <:+ buf ++ [c]
    · rw [if_pos ended, decide_eq_true ended]
      rfl
    · rw [if_neg ended, decide_eq_false ended]
      rfl
  · have unended : ¬ eol <:+ buf ++ [c] := by
      intro ended
      obtain ⟨front, split⟩ := ended
      have final := congrArg List.getLast? split
      rw [List.getLast?_append_of_ne_nil front (by rintro rfl; cases last), last,
        List.getLast?_concat] at final
      exact reached (Option.some.inj final).symm
    rw [if_neg (fun both => reached both.1), if_neg unended]

/-- No byte is compared before there are enough of them: none among the first ones is the
last byte of `eol`. `i` bytes have been read. -/
def NotEarly (eol : Bytes) (ceol : UInt8) (i : Nat) (todo : Bytes) : Prop :=
  ceol ∉ todo.take (eol.length - 1 - i)

instance (eol : Bytes) (ceol : UInt8) (i : Nat) (todo : Bytes) :
    Decidable (NotEarly eol ceol i todo) :=
  inferInstanceAs (Decidable (ceol ∉ todo.take (eol.length - 1 - i)))

theorem NotEarly.cons {i : Nat} {c : UInt8} {todo : Bytes}
    (notEarly : NotEarly eol ceol i (c :: todo)) :
    (c = ceol → eol.length ≤ i + 1) ∧ NotEarly eol ceol (i + 1) todo := by
  rw [NotEarly] at notEarly ⊢
  cases room : eol.length - 1 - i with
  | zero =>
      rw [show eol.length - 1 - (i + 1) = 0 by omega, List.take_zero]
      exact ⟨fun _ => by omega, List.not_mem_nil⟩
  | succ more =>
      rw [room, List.take_succ_cons, List.mem_cons, not_or] at notEarly
      rw [show eol.length - 1 - (i + 1) = more by omega]
      exact ⟨fun same => absurd same.symm notEarly.1, notEarly.2⟩

/-- At a byte that is compared too early, the comparison leaves the buffer. -/
theorem getlineLoop_early (narrow : ceol < 128) (todo buf : Bytes) (nc : Nat)
    (last : eol.getLast? = some ceol) (early : ¬ NotEarly eol ceol buf.length todo) :
    getlineLoop memory eol ceol todo buf nc = .error .outOfBounds := by
  induction todo generalizing buf nc with
  | nil => exact absurd List.not_mem_nil (by rwa [NotEarly, List.take_nil] at early)
  | cons c todo ih =>
      cases room : eol.length - 1 - buf.length with
      | zero =>
          rw [NotEarly, room, List.take_zero] at early
          exact absurd List.not_mem_nil early
      | succ more =>
          by_cases reached : c = ceol
          · subst reached
            rw [getlineLoop, if_pos ⟨rfl, narrow⟩, matchesEol_outside (by omega)]
            rfl
          · have unended : ¬ eol <:+ buf ++ [c] := by
              intro ended
              have shorter := ended.length_le
              rw [List.length_append, List.length_singleton] at shorter
              omega
            rw [getlineLoop_next last narrow c todo buf nc (fun same => absurd same reached),
              if_neg unended]
            apply ih
            rw [NotEarly, room, List.take_succ_cons, List.mem_cons] at early
            rw [NotEarly, List.length_append, List.length_singleton,
              show eol.length - 1 - (buf.length + 1) = more by omega]
            exact fun none_ => early (not_or.mpr ⟨fun same => reached same.symm, none_⟩)

/-- The first line, up to its `eol`. -/
theorem getlineLoop_first (last : eol.getLast? = some ceol) (narrow : ceol < 128)
    (line rest todo buf : Bytes) (nc : Nat) (here : First eol (buf ++ todo) line rest)
    (before : buf.length < (line ++ eol).length) (notEarly : NotEarly eol ceol buf.length todo) :
    getlineLoop memory eol ceol todo buf nc = .ok (nonempty (cString line), rest) := by
  induction todo generalizing buf nc with
  | nil =>
      have whole := congrArg List.length here.split
      simp only [List.length_append, List.length_nil] at whole before
      omega
  | cons c todo ih =>
      obtain ⟨inside, later⟩ := notEarly.cons
      have split : buf ++ c :: todo = buf ++ [c] ++ todo := by rw [List.append_assoc]; rfl
      rw [split] at here
      rw [getlineLoop_next last narrow c todo buf nc inside]
      by_cases ended : eol <:+ buf ++ [c]
      · -- it is the first one, so that the line stands before it
        obtain ⟨front, same⟩ := ended
        have most := here.unended (show buf ++ [c] ++ todo = front ++ eol ++ todo by rw [same])
        have length := congrArg List.length same
        simp only [List.length_append, List.length_singleton] at length before
        have whole := here.split
        rw [← same, List.append_assoc, List.append_assoc] at whole
        obtain ⟨rfl, tails⟩ := List.append_inj whole (by omega)
        rw [if_pos ⟨front, same⟩, ← same, List.length_append, Nat.add_sub_cancel, List.take_left,
          List.append_cancel_left tails]
      · rw [if_neg ended]
        refine ih (buf ++ [c]) _ here ?_ (by rwa [List.length_append])
        -- had the whole of the line and its `eol` been read, it would end there
        by_contra full
        rw [List.length_append, List.length_singleton] at full
        have whole := here.split
        have same : buf ++ [c] = line ++ eol := by
          refine (List.append_inj whole ?_).1
          rw [List.length_append, List.length_singleton]
          omega
        exact ended (same ▸ List.suffix_append line eol)

/-- Whatever it returns while an `eol` is still to come, it is the first line. -/
theorem getlineLoop_line (memory : Nat → UInt8) (eol : Bytes) (ceol : UInt8)
    (last : eol.getLast? = some ceol) (narrow : ceol < 128) (file line rest : Bytes)
    (here : First eol file line rest) (read : Option Bytes × Bytes)
    (found : getlineLoop memory eol ceol file [] 1024 = .ok read) :
    read = (nonempty (cString line), rest) := by
  by_cases notEarly : NotEarly eol ceol 0 file
  · rw [getlineLoop_first last narrow line rest file [] 1024 here ?_ notEarly] at found
    · exact (Except.ok.inj found).symm
    · have positive := List.length_pos_of_ne_nil (List.ne_nil_of_mem (List.mem_of_getLast? last))
      rw [List.length_append]
      exact Nat.add_pos_right _ positive
  · rw [getlineLoop_early narrow file [] 1024 last notEarly] at found
    cases found

end Narrow

/-- The size of a buffer that holds `i` bytes and grows while it is filled. -/
def grownTo : Nat → Nat → Nat → Nat
  | 0, i, nc => if i = nc then 2 * nc else nc
  | more + 1, i, nc => grownTo more (i + 1) (if i = nc then 2 * nc else nc)

theorem getlineLoop_wide (memory : Nat → UInt8) (eol : Bytes) (ceol : UInt8)
    (wide : ¬ ceol < 128) (file : Bytes) :
    ∀ (buf : Bytes) (nc : Nat), getlineLoop memory eol ceol file buf nc =
      if buf ++ file = [] then .ok (none, [])
      else (bufferString memory (buf ++ file) (grownTo file.length buf.length nc)).map
        (fun line => (nonempty line, [])) := by
  induction file with
  | nil =>
      intro buf nc
      rw [getlineLoop, List.append_nil]
      split
      · rfl
      · rw [List.length_nil, grownTo]
        cases bufferString memory buf (if buf.length = nc then 2 * nc else nc) <;> rfl
  | cons c file ih =>
      intro buf nc
      rw [getlineLoop, if_neg (fun reached : c = ceol ∧ c < 128 => wide (reached.1 ▸ reached.2)),
        ih,
        List.append_assoc, List.singleton_append, List.length_append, List.length_cons,
        List.length_cons, grownTo]
      rfl

end RSQLite
