import Mathlib.Data.List.TakeWhile
import Mathlib.Data.Nat.Find

/-!
Sequences of records, each ended by a delimiter that is searched from left to right. A
reader that stops at the first bad record reads all good ones exactly if none of them
comes after a bad one.
-/
namespace Delimited

section Records

variable {α : Type} [DecidableEq α]

/-- The records of a sequence; `skip` elements of a delimiter are still to be passed. A last
record that is not ended is an error. -/
def recordsFrom (eol : List α) : List α → Nat → List α → Option (List (List α))
  | [], _, record => if record = [] then some [] else none
  | _ :: xs, skip + 1, record => recordsFrom eol xs skip record
  | x :: xs, 0, record =>
      if eol.isPrefixOf (x :: xs) then
        (recordsFrom eol xs (eol.length - 1) []).map (List.cons record)
      else recordsFrom eol xs 0 (record ++ [x])

def records (eol xs : List α) : Option (List (List α)) := recordsFrom eol xs 0 []

/-- `record` is what stands before the first delimiter, and `rest` what follows it. -/
structure First (eol xs record rest : List α) : Prop where
  split : xs = record ++ eol ++ rest
  first : ∀ i, i < record.length → ¬ eol <+: xs.drop i

theorem recordsFrom_skip (eol passed xs record : List α) :
    recordsFrom eol (passed ++ xs) passed.length record = recordsFrom eol xs 0 record := by
  induction passed with
  | nil => rfl
  | cons x passed ih => exact ih

/-- A delimiter that begins here: it is passed over, and a new record begins. -/
theorem recordsFrom_eol (e : α) (eol rest record : List α) :
    recordsFrom (e :: eol) (e :: eol ++ rest) 0 record =
      (records (e :: eol) rest).map (List.cons record) := by
  have found : (e :: eol).isPrefixOf (e :: (eol ++ rest)) = true :=
    List.isPrefixOf_iff_prefix.mpr (List.prefix_append (e :: eol) rest)
  rw [List.cons_append, recordsFrom, if_pos found, List.length_cons, Nat.add_sub_cancel,
    recordsFrom_skip, records]

theorem recordsFrom_some (e : α) (eol : List α) (xs : List α) :
    ∀ (record : List α) (rs : List (List α)), recordsFrom (e :: eol) xs 0 record = some rs →
      (xs = [] ∧ record = [] ∧ rs = []) ∨
        ∃ front rest later, First (e :: eol) xs front rest ∧ rs = (record ++ front) :: later ∧
          records (e :: eol) rest = some later := by
  induction xs with
  | nil =>
      intro record rs found
      rw [recordsFrom] at found
      split at found
      · next empty =>
          cases found
          exact .inl ⟨rfl, empty, rfl⟩
      · cases found
  | cons x xs ih =>
      intro record rs found
      refine .inr ?_
      by_cases here : (e :: eol).isPrefixOf (x :: xs) = true
      · obtain ⟨rest, split⟩ := List.isPrefixOf_iff_prefix.mp here
        rw [← split, recordsFrom_eol] at found
        obtain ⟨later, rest', rfl⟩ := Option.map_eq_some_iff.mp found
        exact ⟨[], rest, later, ⟨split.symm, fun i short => absurd short (Nat.not_lt_zero i)⟩,
          by rw [List.append_nil], rest'⟩
      · rw [recordsFrom, if_neg here] at found
        rcases ih _ rs found with ⟨_, empty, _⟩ | ⟨front, rest, later, first, rfl, found'⟩
        · exact absurd empty (List.append_ne_nil_of_right_ne_nil record (List.cons_ne_nil x []))
        · refine ⟨x :: front, rest, later, ⟨?_, ?_⟩, by rw [List.append_assoc]; rfl, found'⟩
          · rw [first.split]
            rfl
          · intro i short
            cases i with
            | zero => exact fun pre => here (List.isPrefixOf_iff_prefix.mpr pre)
            | succ i => exact first.first i (Nat.lt_of_succ_lt_succ short)

theorem records_some (e : α) (eol xs : List α) (rs : List (List α))
    (found : records (e :: eol) xs = some rs) :
    (xs = [] ∧ rs = []) ∨ ∃ record rest later, First (e :: eol) xs record rest ∧
      rs = record :: later ∧ records (e :: eol) rest = some later := by
  rcases recordsFrom_some e eol xs [] rs found with ⟨empty, _, none⟩ | some
  · exact .inl ⟨empty, none⟩
  · exact .inr some

omit [DecidableEq α] in
theorem First.unended {eol xs record rest front after : List α} (here : First eol xs record rest)
    (split : xs = front ++ eol ++ after) : record.length ≤ front.length := by
  by_contra early
  refine here.first front.length (Nat.lt_of_not_le early) ?_
  rw [split, List.append_assoc, List.drop_left]
  exact List.prefix_append eol after

/-- What stands before the first delimiter, or everything if there is none, and what follows. -/
def firstRecord (eol : List α) : List α → List α × List α
  | [] => ([], [])
  | x :: xs =>
      if eol.isPrefixOf (x :: xs) then ([], (x :: xs).drop eol.length)
      else (x :: (firstRecord eol xs).1, (firstRecord eol xs).2)

theorem firstRecord_none (eol xs : List α) (none : ¬ eol <:+: xs) :
    firstRecord eol xs = (xs, []) := by
  induction xs with
  | nil => rfl
  | cons x xs ih =>
      have here : ¬ eol.isPrefixOf (x :: xs) = true :=
        fun found => none (List.isPrefixOf_iff_prefix.mp found).isInfix
      have later : ¬ eol <:+: xs := fun inside => none (List.infix_cons inside)
      rw [firstRecord, if_neg here, ih later]

theorem firstRecord_first (eol xs : List α) (some : eol <:+: xs) (nonempty : eol ≠ []) :
    First eol xs (firstRecord eol xs).1 (firstRecord eol xs).2 := by
  induction xs with
  | nil => exact absurd (List.infix_nil.mp some) nonempty
  | cons x xs ih =>
      rw [firstRecord]
      split
      · next here =>
          refine ⟨?_, fun i short => absurd short (Nat.not_lt_zero i)⟩
          exact List.prefix_iff_eq_append.mp (List.isPrefixOf_iff_prefix.mp here) |>.symm
      · next here =>
          have notHere : ¬ eol <+: x :: xs := fun found =>
            here (List.isPrefixOf_iff_prefix.mpr found)
          have later := ih ((List.infix_cons_iff.mp some).resolve_left notHere)
          refine ⟨congrArg (List.cons x) later.split, fun i short => ?_⟩
          cases i with
          | zero => exact notHere
          | succ i => exact later.first i (Nat.lt_of_succ_lt_succ short)

theorem First.unique {eol xs record rest : List α} (here : First eol xs record rest)
    (nonempty : eol ≠ []) : firstRecord eol xs = (record, rest) := by
  have inside : eol <:+: xs := by
    rw [here.split]
    exact List.infix_append record eol rest
  have first := firstRecord_first eol xs inside nonempty
  have before := here.unended first.split
  have after := first.unended here.split
  have whole := first.split.symm.trans here.split
  rw [List.append_assoc, List.append_assoc] at whole
  obtain ⟨same, tails⟩ := List.append_inj whole (Nat.le_antisymm after before)
  exact Prod.ext same (List.append_cancel_left tails)

/-- What follows the first delimiter does not matter to the record before it. -/
theorem firstRecord_append (eol xs more : List α) (some : eol <:+: xs) (nonempty : eol ≠ []) :
    firstRecord eol (xs ++ more) = ((firstRecord eol xs).1, (firstRecord eol xs).2 ++ more) := by
  induction xs with
  | nil => exact absurd (List.infix_nil.mp some) nonempty
  | cons x xs ih =>
      by_cases here : eol <+: x :: xs
      · have found : eol.isPrefixOf (x :: xs) = true := List.isPrefixOf_iff_prefix.mpr here
        have found' : eol.isPrefixOf (x :: (xs ++ more)) = true :=
          List.isPrefixOf_iff_prefix.mpr (here.trans (List.prefix_append (x :: xs) more))
        rw [List.cons_append, firstRecord, if_pos found', firstRecord, if_pos found,
          ← List.cons_append, List.drop_append_of_le_length here.length_le]
      · have later := (List.infix_cons_iff.mp some).resolve_left here
        have notFound : ¬ eol.isPrefixOf (x :: xs) = true := fun found =>
          here (List.isPrefixOf_iff_prefix.mp found)
        -- a delimiter that begins here would end before the one that comes later does
        have notFound' : ¬ eol.isPrefixOf (x :: (xs ++ more)) = true := fun found =>
          here (List.prefix_of_prefix_length_le (List.isPrefixOf_iff_prefix.mp found)
            (List.prefix_append (x :: xs) more) (Nat.le_succ_of_le later.length_le))
        rw [List.cons_append, firstRecord, if_neg notFound', firstRecord, if_neg notFound, ih later]

end Records

section Ends

variable {α : Type}

/-- The first `n` elements are the fewest that end with the delimiter. -/
structure EndsFirst (eol xs : List α) (n : Nat) : Prop where
  inside : n ≤ xs.length
  ends : eol <:+ xs.take n
  first : ∀ m, m < n → ¬ eol <:+ xs.take m

variable {eol xs : List α} {n m : Nat}

theorem EndsFirst.unique (here : EndsFirst eol xs n) (there : EndsFirst eol xs m) : n = m := by
  rcases Nat.lt_trichotomy n m with before | same | behind
  · exact absurd here.ends (there.first n before)
  · exact same
  · exact absurd there.ends (here.first m behind)

theorem EndsFirst.isInfix (here : EndsFirst eol xs n) : eol <:+: xs :=
  here.ends.isInfix.trans (List.take_prefix n xs).isInfix

theorem exists_endsFirst (inside : eol <:+: xs) : ∃ n, EndsFirst eol xs n := by
  classical
  obtain ⟨front, rest, split⟩ := inside
  have ended : eol <:+ xs.take (front ++ eol).length := by
    rw [← split, List.take_left]
    exact List.suffix_append front eol
  have some_ : ∃ n, eol <:+ xs.take n := ⟨_, ended⟩
  have most : (front ++ eol).length ≤ xs.length := by
    rw [← split]
    exact (List.prefix_append (front ++ eol) rest).length_le
  exact ⟨Nat.find some_, Nat.le_trans (Nat.find_min' some_ ended) most, Nat.find_spec some_,
    fun m before => Nat.find_min some_ before⟩

end Ends

variable {α β : Type}

/-- The elements that are accepted by their number; the first one has the number `n`. -/
def acceptedFrom (accepted : Nat → Bool) : Nat → List α → List α
  | _, [] => []
  | n, x :: xs =>
      if accepted n then x :: acceptedFrom accepted (n + 1) xs
      else acceptedFrom accepted (n + 1) xs

/-- After the first `skip` elements, no good one comes after a bad one, and all good ones
are accepted. -/
def Unbroken (good : α → Bool) (accepted : Nat → Bool) (skip : Nat) (xs : List α) : Prop :=
  ∀ j (h : j < xs.length), skip ≤ j → good xs[j] = true →
    accepted j = true ∧ ∀ i (h' : i < j), good xs[i] = true

instance (good : α → Bool) (accepted : Nat → Bool) (skip : Nat) (xs : List α) :
    Decidable (Unbroken good accepted skip xs) :=
  inferInstanceAs (Decidable (∀ j (h : j < xs.length), skip ≤ j → good xs[j] = true →
    accepted j = true ∧ ∀ i (h' : i < j), good xs[i] = true))

theorem acceptedFrom_length (accepted : Nat → Bool) (n : Nat) (xs : List α) :
    (acceptedFrom accepted n xs).length ≤ xs.length := by
  induction xs generalizing n with
  | nil => exact Nat.le_refl 0
  | cons x xs ih =>
      have later := ih (n + 1)
      rw [acceptedFrom]
      split
      · exact Nat.succ_le_succ later
      · exact Nat.le_succ_of_le later

theorem takeWhile_length_le_filter (good : α → Bool) (xs : List α) :
    (xs.takeWhile good).length ≤ (xs.filter good).length := by
  induction xs with
  | nil => exact Nat.le_refl 0
  | cons x xs ih =>
      cases h : good x with
      | false => simp only [List.takeWhile_cons, h]; exact Nat.zero_le _
      | true =>
          simp only [List.takeWhile_cons, List.filter_cons, h, if_true, List.length_cons]
          omega

/-- `Unbroken` where the first element has the number `n`. -/
def UnbrokenFrom (good : α → Bool) (accepted : Nat → Bool) (skip n : Nat) (xs : List α) : Prop :=
  ∀ j (h : j < xs.length), skip ≤ n + j → good xs[j] = true →
    accepted (n + j) = true ∧ ∀ i (h' : i < j), good xs[i] = true

theorem unbrokenFrom_cons (good : α → Bool) (accepted : Nat → Bool) (skip n : Nat) (x : α)
    (xs : List α) (first : good x = true) :
    UnbrokenFrom good accepted skip n (x :: xs) ↔
      (skip ≤ n → accepted n = true) ∧ UnbrokenFrom good accepted skip (n + 1) xs := by
  constructor
  · intro unbroken
    refine ⟨fun reached => (unbroken 0 (Nat.succ_pos _) reached first).1, ?_⟩
    intro j h reached here
    have there := unbroken (j + 1) (Nat.succ_lt_succ h) (by omega) here
    rw [show n + 1 + j = n + (j + 1) by omega]
    exact ⟨there.1, fun i h' => there.2 (i + 1) (Nat.succ_lt_succ h')⟩
  · rintro ⟨start, unbroken⟩ j h reached here
    cases j with
    | zero => exact ⟨start reached, fun i h' => absurd h' (Nat.not_lt_zero i)⟩
    | succ j =>
        have there := unbroken j (Nat.lt_of_succ_lt_succ h) (by omega) here
        rw [show n + (j + 1) = n + 1 + j by omega]
        refine ⟨there.1, fun i h' => ?_⟩
        cases i with
        | zero => exact first
        | succ i => exact there.2 i (Nat.lt_of_succ_lt_succ h')

/-- After a bad element, no good one may come. -/
theorem unbrokenFrom_bad (good : α → Bool) (accepted : Nat → Bool) (skip n : Nat) (x : α)
    (xs : List α) (bad : good x = false) :
    UnbrokenFrom good accepted skip n (x :: xs) ↔
      ((x :: xs).drop (skip - n)).filter good = [] := by
  rw [List.filter_eq_nil_iff]
  constructor
  · intro unbroken y member here
    obtain ⟨i, h, rfl⟩ := List.mem_iff_getElem.mp member
    rw [List.getElem_drop] at here
    have h' : skip - n + i < (x :: xs).length := by
      rw [List.length_drop] at h
      omega
    have before := (unbroken _ h' (by omega) here).2
    cases zero : skip - n + i with
    | zero =>
        simp only [zero, List.getElem_cons_zero, bad] at here
        cases here
    | succ k =>
        have start := before 0 (by omega)
        rw [List.getElem_cons_zero, bad] at start
        cases start
  · intro none j h reached here
    have inside : j - (skip - n) < ((x :: xs).drop (skip - n)).length := by
      rw [List.length_drop]
      omega
    have member := List.getElem_mem inside
    rw [List.getElem_drop] at member
    simp only [Nat.add_sub_cancel' (show skip - n ≤ j by omega)] at member
    exact absurd here (none _ member)

theorem acceptedFrom_takeWhile (good : α → Bool) (accepted : Nat → Bool) (skip : Nat)
    (late : ∀ j, accepted j = true → skip ≤ j) (f : α → β) (xs : List α) :
    ∀ n, (acceptedFrom accepted n (xs.takeWhile good)).map f =
        ((xs.drop (skip - n)).filter good).map f ↔ UnbrokenFrom good accepted skip n xs := by
  induction xs with
  | nil =>
      intro n
      simp [acceptedFrom, UnbrokenFrom]
  | cons x xs ih =>
      intro n
      cases first : good x with
      | false =>
          rw [unbrokenFrom_bad good accepted skip n x xs first, List.takeWhile_cons, first]
          simp only [Bool.false_eq_true, if_false, acceptedFrom, List.map_nil]
          exact eq_comm.trans List.map_eq_nil_iff
      | true =>
          rw [unbrokenFrom_cons good accepted skip n x xs first, List.takeWhile_cons, first,
            if_pos rfl, acceptedFrom]
          by_cases reached : skip ≤ n
          · have later := ih (n + 1)
            rw [Nat.sub_eq_zero_of_le reached, List.drop_zero, List.filter_cons_of_pos first]
            rw [Nat.sub_eq_zero_of_le (Nat.le_succ_of_le reached), List.drop_zero] at later
            cases here : accepted n with
            | true =>
                rw [if_pos rfl, List.map_cons, List.map_cons, List.cons_inj_right, later]
                exact (and_iff_right (fun _ => rfl)).symm
            | false =>
                -- one element fewer than the good ones
                refine iff_of_false (fun same => ?_) (fun both => Bool.noConfusion (both.1 reached))
                have fewer := congrArg List.length same
                rw [if_neg Bool.false_ne_true, List.length_map, List.length_map,
                  List.length_cons] at fewer
                have := acceptedFrom_length accepted (n + 1) (xs.takeWhile good)
                have := takeWhile_length_le_filter good xs
                omega
          · have early : accepted n = false := by
              cases here : accepted n with
              | true => exact absurd (late n here) reached
              | false => rfl
            rw [early, if_neg Bool.false_ne_true, show skip - n = skip - (n + 1) + 1 by omega,
              List.drop_succ_cons, ih (n + 1)]
            exact (and_iff_right (fun h => absurd h reached)).symm

/-- Reading stops at the first bad element: nothing that should be accepted is lost exactly
if no such element comes later. -/
theorem accepted_takeWhile_iff (good : α → Bool) (accepted : Nat → Bool) (skip : Nat)
    (late : ∀ j, accepted j = true → skip ≤ j) (f : α → β) (xs : List α) :
    (acceptedFrom accepted 0 (xs.takeWhile good)).map f = ((xs.drop skip).filter good).map f ↔
      Unbroken good accepted skip xs := by
  have from0 := acceptedFrom_takeWhile good accepted skip late f xs 0
  rw [Nat.sub_zero] at from0
  rw [from0]
  simp only [UnbrokenFrom, Unbroken, Nat.zero_add]

end Delimited
