import RSQLite.Connection.ImportSplit
import RSQLite.Library.Weakest

/-!
`RS_sqlite_getline()` cell by cell, with a record of the accesses to the line buffer. All of
them are inside exactly if the comparison with `eol` is not made too early, and if something
ends the string.
-/
namespace RSQLite

open Delimited Weakest

/-- What a cell is accessed for: `buf[i++] = c`, the comparison with `eol`, the terminator in
the place of `eol`, and `strlen()`. -/
inductive AccessKind
  | stored
  | compared
  | cut
  | counted
deriving DecidableEq, Repr

/-- An access to a cell of the line buffer, after `i` bytes have been read and with room for
`nc`. C computes the index as a `size_t`; a negative one is that of the cell it wraps to. -/
structure CellAccess where
  kind : AccessKind
  index : Int
  i : Nat
  nc : Nat
deriving DecidableEq, Repr

/-- Cells are read among the first `i`, and written among the first `nc`. -/
def CellAccess.InBuffer (a : CellAccess) : Prop :=
  match a.kind with
  | .stored | .cut => 0 ≤ a.index ∧ a.index < a.nc
  | .compared | .counted => 0 ≤ a.index ∧ a.index < a.i

abbrev Traced := EStateM Fault (List CellAccess)

def readCell (cells : Bytes) (a : CellAccess) : Traced UInt8 := do
  modify (· ++ [a])
  if a.index < 0 then throw .outOfBounds
  else match cells[a.index.toNat]? with
    | none => throw .outOfBounds
    | some b => pure b

def writeCell (cells : Bytes) (a : CellAccess) (b : UInt8) : Traced Bytes := do
  modify (· ++ [a])
  if 0 ≤ a.index ∧ a.index < cells.length then pure (cells.set a.index.toNat b)
  else throw .outOfBounds

/-- `for (j = neol - 1; j > 0; j--)`. -/
def compareCells (cells eol : Bytes) (i : Nat) : Nat → Traced Bool
  | 0 => pure true
  | j + 1 => do
      let b ← readCell cells ⟨.compared, (i : Int) - 1 - (j + 1), i, cells.length⟩
      if some b ≠ eol[eol.length - 1 - (j + 1)]? then pure false else compareCells cells eol i j

/-- `strlen(buf)`, from the `k`-th cell on. -/
def countCells (i nc : Nat) : Bytes → Nat → Traced Nat
  | [], k => do
      modify (· ++ [⟨.counted, k, i, nc⟩])
      throw .outOfBounds
  | b :: cells, k => do
      modify (· ++ [⟨.counted, k, i, nc⟩])
      if b = 0 then pure k else countCells i nc cells (k + 1)

/-- `if (i == 0 || strlen(buf) == 0)`. -/
def finishLine (cells : Bytes) (i : Nat) (rest : Bytes) : Traced (Option Bytes × Bytes) :=
  if i = 0 then pure (none, rest)
  else do
    let n ← countCells i cells.length cells 0
    pure (if n = 0 then none else some (cells.take n), rest)

/-- `if (i == nc)`: the cells are doubled, and the memory gives the new ones. -/
def grownCells (memory : Nat → UInt8) (cells : Bytes) (i : Nat) : Bytes :=
  if i = cells.length then cells ++ (List.range' cells.length cells.length).map memory else cells

/-- `while (TRUE)`. -/
def lineCells (memory : Nat → UInt8) (eol : Bytes) (ceol : UInt8) :
    Bytes → Bytes → Nat → Traced (Option Bytes × Bytes)
  | [], cells, i => finishLine (grownCells memory cells i) i []
  | c :: file, cells, i => do
      let cells := grownCells memory cells i
      let cells ← writeCell cells ⟨.stored, i, i, cells.length⟩ c
      if c = ceol ∧ c < 128 then do
        let foundEol ← compareCells cells eol (i + 1) (eol.length - 1)
        if foundEol then do
          let cells ← writeCell cells
            ⟨.cut, ((i + 1 : Nat) : Int) - eol.length, i + 1, cells.length⟩ 0
          finishLine cells (i + 1) file
        else lineCells memory eol ceol file cells (i + 1)
      else lineCells memory eol ceol file cells (i + 1)

/-- `RS_sqlite_getline()`. -/
def getlineCells (memory : Nat → UInt8) (eol file : Bytes) : Traced (Option Bytes × Bytes) :=
  match eol.getLast? with
  | none => throw .outOfBounds
  | some ceol => lineCells memory eol ceol file ((List.range' 0 1024).map memory) 0

section Accesses

/-- No access has been outside. -/
def AllInBuffer (log : List CellAccess) : Prop := ∀ a ∈ log, a.InBuffer

/-- Where a line has been cut, and after how many bytes. -/
def cuts (log : List CellAccess) : List (Int × Nat) :=
  (log.filter (fun a => decide (a.kind = .cut))).map (fun a => (a.index, a.i))

@[simp] theorem allInBuffer_concat (log : List CellAccess) (a : CellAccess) :
    AllInBuffer (log ++ [a]) ↔ AllInBuffer log ∧ a.InBuffer := by
  simp [AllInBuffer, or_imp, forall_and]

theorem cuts_concat (log : List CellAccess) (a : CellAccess) :
    cuts (log ++ [a]) = if a.kind = .cut then cuts log ++ [(a.index, a.i)] else cuts log := by
  by_cases cut : a.kind = .cut
  · simp [cuts, List.filter_append, cut]
  · simp [cuts, List.filter_append, cut]

variable {cells buf : Bytes} (eol : Bytes) (log : List CellAccess)

/-- The cells hold the bytes that have been read. -/
def Holding (cells buf : Bytes) : Prop := ∀ k, k < buf.length → cells[k]? = buf[k]?

/-- The comparison is made on the bytes that have been read, or leaves them. -/
theorem compareCells_matches (holding : Holding cells buf) (j : Nat) :
    wp (compareCells cells eol buf.length j)
      (fun found log' => matchesEol buf eol j = .ok found ∧
        (AllInBuffer log' ↔ AllInBuffer log) ∧ cuts log' = cuts log)
      (fun f log' => matchesEol buf eol j = .error f ∧ ¬ AllInBuffer log') log := by
  induction j generalizing log with
  | zero => exact ⟨rfl, Iff.rfl, rfl⟩
  | succ j ih =>
      rw [compareCells, readCell, matchesEol]
      simp only [wp_bind, wp_modify]
      by_cases outside : (buf.length : Int) - 1 - (j + 1) < 0
      · rw [if_pos outside, wp_throw, if_pos (by omega)]
        refine ⟨rfl, fun all => ?_⟩
        have here := ((allInBuffer_concat _ _).mp all).2
        exact absurd here.1 (Int.not_le.mpr outside)
      · have index : ((buf.length : Int) - 1 - (j + 1)).toNat = buf.length - 1 - (j + 1) := by
          omega
        have inside : buf.length - 1 - (j + 1) < buf.length := by omega
        rw [if_neg outside, index, holding _ inside, List.getElem?_eq_getElem inside,
          if_neg (show ¬ buf.length - 1 < j + 1 by omega)]
        simp only [wp_pure, wp_ite]
        have here : CellAccess.InBuffer
            ⟨.compared, (buf.length : Int) - 1 - (j + 1), buf.length, cells.length⟩ :=
          ⟨Int.not_lt.mp outside, show (buf.length : Int) - 1 - (j + 1) < buf.length by omega⟩
        split
        · exact ⟨rfl, by simp [here], by simp [cuts_concat]⟩
        · have rest := @ih (log ++
            [⟨.compared, (buf.length : Int) - 1 - (j + 1), buf.length, cells.length⟩])
          refine wp_returns rest (fun found log' same => ⟨same.1, ?_, ?_⟩)
          · rw [same.2.1, allInBuffer_concat, and_iff_left here]
          · rw [same.2.2, cuts_concat, if_neg (by simp)]

/-- `strlen()` reads up to the first zero. -/
theorem countCells_zero (i nc k : Nat) :
    wp (countCells i nc cells k)
      (fun n log' => 0 ∈ cells ∧ n = k + (cString cells).length ∧
        (AllInBuffer log' ↔ AllInBuffer log ∧ n < i) ∧ cuts log' = cuts log)
      (fun f log' => 0 ∉ cells ∧ f = .outOfBounds ∧ cuts log' = cuts log ∧
        (i ≤ k + cells.length → ¬ AllInBuffer log')) log := by
  induction cells generalizing k log with
  | nil =>
      refine ⟨List.not_mem_nil, rfl, by simp [cuts_concat], fun reached all => ?_⟩
      have here := ((allInBuffer_concat _ _).mp all).2.2
      simp only [List.length_nil] at reached here
      omega
  | cons b cells ih =>
      rw [countCells]
      simp only [wp_bind, wp_modify, wp_ite, wp_pure]
      split
      · next zero =>
          subst zero
          refine ⟨List.mem_cons_self, by simp [cString], ?_, by simp [cuts_concat]⟩
          simp [CellAccess.InBuffer]
      · next nonzero =>
          have string : (cString (b :: cells)).length = (cString cells).length + 1 := by
            simp [cString, nonzero]
          refine wp_mono _ _ (ih _ (k + 1)) ?_ ?_
          · rintro n log' ⟨zero, rfl, inside, same⟩
            refine ⟨List.mem_cons_of_mem _ zero, by rw [string]; omega, ?_, ?_⟩
            · rw [inside, allInBuffer_concat, and_assoc]
              simp only [CellAccess.InBuffer]
              exact and_congr_right (fun _ => by omega)
            · rw [same, cuts_concat, if_neg (by simp)]
          · rintro f log' ⟨zero, rfl, same, outside⟩
            refine ⟨by simp [zero, Ne.symm nonzero], rfl, ?_, fun reached => outside ?_⟩
            · rw [same, cuts_concat, if_neg (by simp)]
            · simp only [List.length_cons] at reached
              omega

theorem take_cString (cells : Bytes) : cells.take (cString cells).length = cString cells :=
  (List.prefix_iff_eq_take.mp (List.takeWhile_prefix _)).symm

theorem finishLine_string (i : Nat) (rest : Bytes) (positive : i ≠ 0) (room : i ≤ cells.length) :
    wp (finishLine cells i rest)
      (fun r log' => 0 ∈ cells ∧ r = (nonempty (cString cells), rest) ∧
        (AllInBuffer log' ↔ AllInBuffer log ∧ (cString cells).length < i) ∧ cuts log' = cuts log)
      (fun f log' => 0 ∉ cells ∧ f = .outOfBounds ∧ cuts log' = cuts log ∧
        ¬ AllInBuffer log') log := by
  rw [finishLine, if_neg positive, wp_bind]
  refine wp_mono _ _ (countCells_zero log i cells.length 0) ?_ ?_
  · rintro n log' ⟨zero, rfl, inside, same⟩
    rw [Nat.zero_add] at inside ⊢
    refine ⟨zero, ?_, inside, same⟩
    by_cases empty : cString cells = []
    · simp [nonempty, empty]
    · rw [nonempty, if_neg empty, if_neg (by simpa using empty), take_cString]
  · rintro f log' ⟨zero, rfl, same, outside⟩
    exact ⟨zero, rfl, same, outside (by omega)⟩

end Accesses

section Filled

variable (memory : Nat → UInt8)

/-- A buffer of `nc` cells with these bytes at its start. -/
def filledCells (memory : Nat → UInt8) (buf : Bytes) (nc : Nat) : Bytes :=
  buf ++ (List.range' buf.length (nc - buf.length)).map memory

theorem filledCells_length {buf : Bytes} {nc : Nat} (holds : buf.length ≤ nc) :
    (filledCells memory buf nc).length = nc := by
  simp only [filledCells, List.length_append, List.length_map, List.length_range']
  omega

theorem filledCells_holding (buf : Bytes) (nc : Nat) :
    Holding (filledCells memory buf nc) buf :=
  fun _ inside => List.getElem?_append_left inside

theorem filledCells_grown {buf : Bytes} {nc : Nat} (holds : buf.length ≤ nc) :
    grownCells memory (filledCells memory buf nc) buf.length =
      filledCells memory buf (if buf.length = nc then 2 * nc else nc) := by
  rw [grownCells, filledCells_length memory holds]
  split
  · next full =>
      subst full
      rw [filledCells, filledCells, Nat.sub_self, List.range'_zero, List.map_nil, List.append_nil,
        show 2 * buf.length - buf.length = buf.length by omega]
  · rfl

theorem filledCells_stored {buf : Bytes} {nc : Nat} (room : buf.length < nc) (c : UInt8) :
    (filledCells memory buf nc).set buf.length c = filledCells memory (buf ++ [c]) nc := by
  obtain ⟨k, size⟩ : ∃ k, nc - buf.length = k + 1 := ⟨nc - buf.length - 1, by omega⟩
  rw [filledCells, filledCells, size, List.length_append, List.length_singleton,
    show nc - (buf.length + 1) = k by omega, List.range'_succ, List.map_cons,
    List.set_append_right _ _ (Nat.le_refl _), Nat.sub_self, List.set_cons_zero,
    List.append_assoc, List.singleton_append]

theorem filledCells_cut {buf : Bytes} (nc : Nat) {n : Nat} (inside : n < buf.length) :
    0 ∈ (filledCells memory buf nc).set n 0 ∧
      cString ((filledCells memory buf nc).set n 0) = cString (buf.take n) := by
  have split : (filledCells memory buf nc).set n 0 = buf.take n ++
      0 :: (filledCells memory buf nc).drop (n + 1) := by
    have within : n < (filledCells memory buf nc).length := by
      rw [filledCells, List.length_append]
      omega
    rw [List.set_eq_take_append_cons_drop, if_pos within, filledCells,
      List.take_append_of_le_length (Nat.le_of_lt inside)]
  rw [split]
  refine ⟨by simp, ?_⟩
  by_cases ended : 0 ∈ buf.take n
  · exact cString_append ended _
  · rw [cString_nul ended, cString_of_no_nul _ ended]

/-- The string ends among the bytes that have been read, if one of them is zero. -/
theorem filledCells_ended (buf : Bytes) (nc : Nat) :
    (cString (filledCells memory buf nc)).length < buf.length ↔ 0 ∈ buf := by
  rw [filledCells]
  by_cases zero : 0 ∈ buf
  · refine iff_of_true ?_ zero
    rw [cString_append zero]
    refine Nat.lt_of_le_of_ne (List.takeWhile_prefix _).length_le (fun whole => ?_)
    have same := (List.takeWhile_prefix _).eq_of_length whole
    exact absurd zero (fun member => by simpa using List.takeWhile_eq_self_iff.mp same 0 member)
  · refine iff_of_false (Nat.not_lt.mpr ?_) zero
    have filled : ∀ c ∈ buf, decide (c ≠ 0) = true := fun c member =>
      decide_eq_true (fun same => zero (same ▸ member))
    rw [cString, List.takeWhile_append_of_pos filled, List.length_append]
    exact Nat.le_add_right _ _

end Filled

section Run

variable {memory : Nat → UInt8} {eol : Bytes} {ceol : UInt8}

/-- How a call ends: a comparison leaves the buffer, the line is cut at the first `eol`, or the
file ends first. -/
inductive CallEnds (eol : Bytes) (ceol : UInt8) (file : Bytes) :
    Outcome (Option Bytes × Bytes) → List CellAccess → Prop
  | early (log : List CellAccess) (narrow : ceol < 128) (early : ¬ NotEarly eol ceol 0 file)
      (outside : ¬ AllInBuffer log) : CallEnds eol ceol file (.error .outOfBounds) log
  | cut (n : Nat) (log : List CellAccess) (narrow : ceol < 128)
      (notEarly : NotEarly eol ceol 0 file) (first : EndsFirst eol file n)
      (all : AllInBuffer log) (once : cuts log = [((n : Int) - eol.length, n)]) :
      CallEnds eol ceol file
        (.ok (nonempty (cString (file.take (n - eol.length))), file.drop n)) log
  | rest (result : Outcome (Option Bytes × Bytes)) (log : List CellAccess) (uncut : cuts log = [])
      (unended : ceol < 128 → NotEarly eol ceol 0 file ∧ ¬ eol <:+: file)
      (inside : AllInBuffer log ↔ file = [] ∨ 0 ∈ file) : CallEnds eol ceol file result log

/-- The file ends. -/
theorem lineCells_eof {buf : Bytes} {nc : Nat} {log : List CellAccess} (holds : buf.length ≤ nc)
    (unended : ceol < 128 → NotEarly eol ceol 0 buf ∧ ¬ eol <:+: buf) (all : AllInBuffer log)
    (uncut : cuts log = []) :
    wp (lineCells memory eol ceol [] (filledCells memory buf nc) buf.length)
      (fun r log' => getlineLoop memory eol ceol [] buf nc = .ok r ∧
        CallEnds eol ceol buf (.ok r) log')
      (fun f log' => getlineLoop memory eol ceol [] buf nc = .error f ∧
        CallEnds eol ceol buf (.error f) log') log := by
  rw [lineCells, filledCells_grown memory holds, getlineLoop]
  by_cases empty : buf = []
  · subst empty
    exact ⟨rfl, .rest _ _ uncut unended (iff_of_true all (.inl rfl))⟩
  · have size : buf.length ≤ if buf.length = nc then 2 * nc else nc := by split <;> omega
    generalize (if buf.length = nc then 2 * nc else nc) = nc' at size
    have positive : buf.length ≠ 0 := by simpa using empty
    have ended := filledCells_ended memory buf nc'
    rw [if_neg empty]
    refine wp_mono _ _ (finishLine_string log buf.length [] positive
      (by rwa [filledCells_length memory size])) ?_ ?_
    · rintro r log' ⟨zero, rfl, inside, same⟩
      have string : bufferString memory buf nc' = .ok (cString (filledCells memory buf nc')) :=
        if_pos zero
      refine ⟨by rw [string]; rfl, .rest _ _ (same.trans uncut) unended ?_⟩
      rw [inside, ended, and_iff_right all, or_iff_right empty]
    · rintro f log' ⟨zero, rfl, same, outside⟩
      have string : bufferString memory buf nc' = .error .outOfBounds := if_neg zero
      refine ⟨by rw [string]; rfl, .rest _ _ (same.trans uncut) unended ?_⟩
      refine iff_of_false outside (not_or.mpr ⟨empty, fun member => zero ?_⟩)
      exact List.mem_append_left _ member

theorem wp_writeCell {cells : Bytes} {a : CellAccess} {b : UInt8} {log : List CellAccess}
    {Q : Bytes → List CellAccess → Prop} {E : Fault → List CellAccess → Prop}
    (inside : 0 ≤ a.index ∧ a.index < cells.length) :
    wp (writeCell cells a b) Q E log ↔ Q (cells.set a.index.toNat b) (log ++ [a]) := by
  rw [writeCell]
  simp only [wp_bind, wp_modify, wp_ite, wp_pure]
  rw [if_pos inside]

/-- The line is cut. -/
theorem cutLine_ends {buf todo : Bytes} {nc : Nat} {log : List CellAccess}
    (holds : buf.length ≤ nc) (narrow : ceol < 128)
    (notEarly : NotEarly eol ceol 0 (buf ++ todo)) (filled : eol ≠ [])
    (first : EndsFirst eol (buf ++ todo) buf.length) (all : AllInBuffer log)
    (uncut : cuts log = []) :
    wp (do
        let cells ← writeCell (filledCells memory buf nc)
          ⟨.cut, (buf.length : Int) - eol.length, buf.length, (filledCells memory buf nc).length⟩ 0
        finishLine cells buf.length todo)
      (fun r log' => r = (nonempty (cString (buf.take (buf.length - eol.length))), todo) ∧
        CallEnds eol ceol (buf ++ todo) (.ok r) log')
      (fun _ _ => False) log := by
  have positive := List.length_pos_of_ne_nil filled
  have fits : eol.length ≤ buf.length := by
    have shorter := first.ends.length_le
    rwa [List.take_left] at shorter
  have size := filledCells_length memory holds
  have index : ((buf.length : Int) - eol.length).toNat = buf.length - eol.length := by omega
  obtain ⟨ended, string⟩ := filledCells_cut memory nc
    (show buf.length - eol.length < buf.length by omega)
  rw [wp_bind, wp_writeCell (by simp only [size]; omega), index]
  have here : CellAccess.InBuffer
      ⟨.cut, (buf.length : Int) - eol.length, buf.length, (filledCells memory buf nc).length⟩ := by
    simp only [CellAccess.InBuffer, size]
    omega
  refine wp_mono _ _ (finishLine_string _ buf.length todo (by omega)
    (by rw [List.length_set, size]; exact holds)) ?_ ?_
  · rintro r log' ⟨_, rfl, inside, same⟩
    rw [string] at inside ⊢
    have short : (cString (buf.take (buf.length - eol.length))).length < buf.length := by
      have most : (cString (buf.take (buf.length - eol.length))).length ≤ _ :=
        (List.takeWhile_prefix _).length_le
      rw [List.length_take] at most
      exact Nat.lt_of_le_of_lt most (by omega)
    refine ⟨rfl, ?_⟩
    have ends := CallEnds.cut buf.length log' narrow notEarly first
      (inside.mpr ⟨(allInBuffer_concat _ _).mpr ⟨all, here⟩, short⟩)
      (by rw [same, cuts_concat, if_pos rfl, uncut, List.nil_append])
    rwa [List.take_append_of_le_length (Nat.sub_le _ _), List.drop_left] at ends
  · rintro f log' ⟨zero, -⟩
    exact zero ended

/-- What is true of a call before it ends: nothing has been compared too early, and no `eol`
has been read. -/
structure Reading (eol : Bytes) (ceol : UInt8) (buf : Bytes) (log : List CellAccess) : Prop where
  notEarly : ceol < 128 → ceol ∉ buf.take (eol.length - 1)
  unended : ceol < 128 → ∀ m, m ≤ buf.length → ¬ eol <:+ buf.take m
  all : AllInBuffer log
  uncut : cuts log = []

/-- One byte more. -/
theorem Reading.next {buf : Bytes} {log log' : List CellAccess} {c : UInt8}
    (reading : Reading eol ceol buf log)
    (late : ceol < 128 → c = ceol → eol.length ≤ buf.length + 1)
    (unended : ceol < 128 → ¬ eol <:+ buf ++ [c]) (all : AllInBuffer log')
    (uncut : cuts log' = []) :
    Reading eol ceol (buf ++ [c]) log' where
  notEarly narrow member := by
    rw [List.take_append, List.mem_append] at member
    refine member.elim (reading.notEarly narrow) (fun last => ?_)
    have same : ceol = c := List.mem_singleton.mp (List.mem_of_mem_take last)
    have room := late narrow same.symm
    rw [show eol.length - 1 - buf.length = 0 by omega, List.take_zero] at last
    cases last
  unended narrow m most := by
    rw [List.length_append, List.length_singleton] at most
    rcases Nat.lt_or_ge buf.length m with whole | part
    · obtain rfl : m = (buf ++ [c]).length := by
        rw [List.length_append, List.length_singleton]
        omega
      rw [List.take_length]
      exact unended narrow
    · rw [List.take_append_of_le_length part]
      exact reading.unended narrow m part
  all := all
  uncut := uncut

theorem Reading.stored {buf : Bytes} {nc : Nat} {log : List CellAccess}
    (reading : Reading eol ceol buf log) (room : buf.length < nc) :
    AllInBuffer (log ++ [⟨.stored, buf.length, buf.length, nc⟩]) ∧
      cuts (log ++ [⟨.stored, buf.length, buf.length, nc⟩]) = [] := by
  constructor
  · refine (allInBuffer_concat _ _).mpr ⟨reading.all, ?_⟩
    simp only [CellAccess.InBuffer]
    omega
  · rw [cuts_concat, if_neg (by simp), reading.uncut]

theorem Reading.notEarly_append {buf : Bytes} {log : List CellAccess}
    (reading : Reading eol ceol buf log) (narrow : ceol < 128)
    (enough : eol.length - 1 ≤ buf.length) (behind : Bytes) : NotEarly eol ceol 0 (buf ++ behind) := by
  rw [NotEarly, Nat.sub_zero, List.take_append_of_le_length enough]
  exact reading.notEarly narrow

theorem Reading.endsFirst {buf : Bytes} {log : List CellAccess} {c : UInt8}
    (reading : Reading eol ceol buf log) (narrow : ceol < 128) (ended : eol <:+ buf ++ [c])
    (todo : Bytes) : EndsFirst eol (buf ++ [c] ++ todo) (buf ++ [c]).length := by
  refine ⟨(List.prefix_append _ todo).length_le, by rwa [List.take_left], ?_⟩
  intro m before
  rw [List.length_append, List.length_singleton] at before
  rw [List.append_assoc, List.take_append_of_le_length (Nat.le_of_lt_succ before)]
  exact reading.unended narrow m (Nat.le_of_lt_succ before)

/-- A byte that is not taken for the last of `eol` does not end a line. -/
theorem not_ended_of_unreached (last : eol.getLast? = some ceol) {c : UInt8}
    (unreached : ¬ (c = ceol ∧ c < 128)) (buf : Bytes) :
    ceol < 128 → ¬ eol <:+ buf ++ [c] := by
  intro narrow ended
  have filled : eol ≠ [] := by
    rintro rfl
    cases last
  obtain ⟨front, split⟩ := ended
  have final := congrArg List.getLast? split
  rw [List.getLast?_append_of_ne_nil front filled, last, List.getLast?_concat] at final
  exact unreached ⟨(Option.some.inj final).symm, Option.some.inj final ▸ narrow⟩

theorem early_ends {c : UInt8} (last : eol.getLast? = some c) (narrow : c < 128) {buf : Bytes}
    (short : buf.length + 1 < eol.length) (todo : Bytes) (nc : Nat) {log : List CellAccess}
    (outside : ¬ AllInBuffer log) :
    getlineLoop memory eol c (c :: todo) buf nc = .error .outOfBounds ∧
      CallEnds eol c (buf ++ c :: todo) (.error .outOfBounds) log := by
  have early : ¬ NotEarly eol c buf.length (c :: todo) := fun notEarly =>
    absurd (notEarly.cons.1 rfl) (Nat.not_le.mpr short)
  refine ⟨getlineLoop_early narrow (c :: todo) buf nc last early,
    .early log narrow (fun notEarly => early (fun member => notEarly ?_)) outside⟩
  rw [Nat.sub_zero, List.take_append]
  exact List.mem_append_right _ member

theorem lineCells_ends (last : eol.getLast? = some ceol) (todo : Bytes) :
    ∀ (buf : Bytes) (nc : Nat) (log : List CellAccess), buf.length ≤ nc → 0 < nc →
      Reading eol ceol buf log →
      wp (lineCells memory eol ceol todo (filledCells memory buf nc) buf.length)
        (fun r log' => getlineLoop memory eol ceol todo buf nc = .ok r ∧
          CallEnds eol ceol (buf ++ todo) (.ok r) log')
        (fun f log' => getlineLoop memory eol ceol todo buf nc = .error f ∧
          CallEnds eol ceol (buf ++ todo) (.error f) log') log := by
  have filled : eol ≠ [] := by
    rintro rfl
    cases last
  induction todo with
  | nil =>
      intro buf nc log holds _ reading
      rw [List.append_nil]
      refine lineCells_eof holds (fun narrow => ⟨reading.notEarly narrow, fun inside => ?_⟩)
        reading.all reading.uncut
      obtain ⟨n, first⟩ := exists_endsFirst inside
      exact reading.unended narrow n first.inside first.ends
  | cons c todo ih =>
      intro buf nc log holds positive reading
      obtain ⟨nc', grown, room⟩ : ∃ nc', (if buf.length = nc then 2 * nc else nc) = nc' ∧
          buf.length < nc' := ⟨_, rfl, by split <;> omega⟩
      have whole : buf ++ c :: todo = buf ++ [c] ++ todo := List.append_cons buf c todo
      have length : (buf ++ [c]).length = buf.length + 1 := by simp
      have size := filledCells_length memory (Nat.le_of_lt room)
      -- the byte is stored
      rw [lineCells, filledCells_grown memory holds, grown]
      rw [wp_bind, wp_writeCell (by simp only [size]; omega), Int.toNat_natCast,
        filledCells_stored memory room, size, ← length]
      obtain ⟨all, uncut⟩ := reading.stored room
      generalize log ++ [(⟨.stored, buf.length, buf.length, nc'⟩ : CellAccess)] = stored
        at all uncut
      rw [wp_ite]
      by_cases reached : c = ceol ∧ c < 128
      · obtain ⟨rfl, narrow⟩ := reached
        rw [if_pos ⟨rfl, narrow⟩, wp_bind]
        have compared := compareCells_matches eol stored
          (filledCells_holding memory (buf ++ [c]) nc') (eol.length - 1)
        by_cases enough : eol.length ≤ buf.length + 1
        · rw [matchesEol_inside last enough] at compared
          refine wp_mono _ _ compared ?_ (fun f log' impossible => by cases impossible.1)
          rintro found log' ⟨same, inside, uncut'⟩
          obtain rfl := Except.ok.inj same
          rw [wp_ite, whole,
            getlineLoop_next last narrow c todo buf nc (fun _ => enough), grown]
          by_cases ended : eol <:+ buf ++ [c]
          · have notEarly : NotEarly eol c 0 (buf ++ [c] ++ todo) :=
              whole ▸ reading.notEarly_append narrow (by omega) (c :: todo)
            rw [if_pos (decide_eq_true ended), if_pos ended]
            refine wp_mono _ _ (cutLine_ends (by rwa [length]) narrow notEarly filled
              (reading.endsFirst narrow ended todo) (inside.mpr all) (uncut'.trans uncut)) ?_
              (fun _ _ impossible => impossible.elim)
            rintro r log'' ⟨rfl, ends⟩
            exact ⟨rfl, ends⟩
          · rw [if_neg (by simpa using ended), if_neg ended]
            exact ih (buf ++ [c]) nc' log' (by rwa [length]) (Nat.zero_lt_of_lt room)
              (reading.next (fun _ _ => enough) (fun _ => ended) (inside.mpr all)
                (uncut'.trans uncut))
        · have short : buf.length + 1 < eol.length := Nat.lt_of_not_le enough
          rw [matchesEol_outside short] at compared
          refine wp_mono _ _ compared (fun found log' impossible => by cases impossible.1) ?_
          rintro f log' ⟨same, outside⟩
          obtain rfl := Except.error.inj same
          exact early_ends last narrow short todo nc outside
      · rw [if_neg reached]
        have unended := not_ended_of_unreached last reached buf
        have next := ih (buf ++ [c]) nc' stored (by rwa [length]) (Nat.zero_lt_of_lt room)
          (reading.next (fun narrow same => absurd ⟨same, same ▸ narrow⟩ reached) unended all uncut)
        rw [← whole] at next
        have loop : getlineLoop memory eol ceol (c :: todo) buf nc =
            getlineLoop memory eol ceol todo (buf ++ [c]) nc' := by
          rw [getlineLoop, if_neg reached, grown]
        rwa [loop]

end Run

def accesses (memory : Nat → UInt8) (eol file : Bytes) : List CellAccess :=
  match (getlineCells memory eol file).run [] with
  | .ok _ log | .error _ log => log

theorem getlineCells_ends (memory : Nat → UInt8) (eol : Bytes) (ceol : UInt8)
    (last : eol.getLast? = some ceol) (file : Bytes) :
    wp (getlineCells memory eol file)
      (fun r log => getline memory eol file = .ok r ∧ CallEnds eol ceol file (.ok r) log)
      (fun f log => getline memory eol file = .error f ∧ CallEnds eol ceol file (.error f) log)
      [] := by
  have start : (List.range' 0 1024).map memory = filledCells memory [] 1024 := by
    rw [filledCells, List.nil_append]
    rfl
  have unended : ∀ m, m ≤ ([] : Bytes).length → ¬ eol <:+ ([] : Bytes).take m := by
    intro m _ ended
    rw [List.take_nil, List.suffix_nil] at ended
    rw [ended] at last
    cases last
  rw [getlineCells, getline, last, start]
  exact lineCells_ends last file [] 1024 [] (Nat.zero_le _) (by decide)
    ⟨fun _ => by simp, fun _ => unended, fun _ member => absurd member List.not_mem_nil, rfl⟩

/-- Cell by cell, the same line is returned. -/
theorem getlineCells_refines (memory : Nat → UInt8) (eol file : Bytes) :
    wp (getlineCells memory eol file) (fun r _ => getline memory eol file = .ok r)
      (fun f _ => getline memory eol file = .error f) [] := by
  cases last : eol.getLast? with
  | none =>
      rw [getlineCells, getline, last]
      exact rfl
  | some ceol =>
      exact wp_mono _ _ (getlineCells_ends memory eol ceol last file) (fun _ _ both => both.1)
        (fun _ _ both => both.1)

theorem accesses_end (memory : Nat → UInt8) (eol : Bytes) (ceol : UInt8)
    (last : eol.getLast? = some ceol) (file : Bytes) :
    CallEnds eol ceol file (getline memory eol file) (accesses memory eol file) := by
  have ends := getlineCells_ends memory eol ceol last file
  rw [accesses]
  unfold wp at ends
  cases run : (getlineCells memory eol file).run [] with
  | ok r log =>
      rw [run] at ends
      rw [ends.1]
      exact ends.2
  | error f log =>
      rw [run] at ends
      rw [ends.1]
      exact ends.2

/-- All accesses are inside the buffer, and the line is cut where what has been read ends with
`eol` for the first time. -/
structure StaysInBuffer (memory : Nat → UInt8) (eol file : Bytes) : Prop where
  inside : ∀ a ∈ accesses memory eol file, a.InBuffer
  cut : ∀ k i, (k, i) ∈ cuts (accesses memory eol file) ↔
    k = (i : Int) - eol.length ∧ EndsFirst eol file i
  line : ∀ i, EndsFirst eol file i → getline memory eol file =
    .ok (nonempty (cString (file.take (i - eol.length))), file.drop i)

/-- The last byte of `eol` is not too early and can be recognized, unless there is no `eol`;
and what is read is empty, or it has an `eol` or a zero to end the string. -/
def Matchable (eol file : Bytes) : Prop :=
  match eol.getLast? with
  | none => False
  | some ceol =>
      if ceol < 128 then NotEarly eol ceol 0 file ∧ (eol <:+: file ∨ file = [] ∨ 0 ∈ file)
      else ¬ eol <:+: file ∧ (file = [] ∨ 0 ∈ file)

theorem CallEnds.stays {memory : Nat → UInt8} {eol file : Bytes} {ceol : UInt8}
    (ends : CallEnds eol ceol file (getline memory eol file) (accesses memory eol file))
    (met : if ceol < 128 then NotEarly eol ceol 0 file ∧ (eol <:+: file ∨ file = [] ∨ 0 ∈ file)
      else ¬ eol <:+: file ∧ (file = [] ∨ 0 ∈ file)) : StaysInBuffer memory eol file := by
  generalize result : getline memory eol file = r at ends
  generalize trace : accesses memory eol file = log at ends
  cases ends with
  | early _ narrow early outside =>
      rw [if_pos narrow] at met
      exact absurd met.1 early
  | cut n _ narrow notEarly first all once =>
      refine ⟨trace ▸ all, fun k i => ?_, fun i here => ?_⟩
      · rw [trace, once, List.mem_singleton, Prod.mk.injEq]
        constructor
        · rintro ⟨rfl, rfl⟩
          exact ⟨rfl, first⟩
        · rintro ⟨rfl, here⟩
          obtain rfl := first.unique here
          exact ⟨rfl, rfl⟩
      · obtain rfl := first.unique here
        exact result
  | rest _ _ uncut unended inside =>
      have none_ : ¬ eol <:+: file := by
        split at met
        · next narrow => exact (unended narrow).2
        · exact met.1
      have ended : file = [] ∨ 0 ∈ file := by
        split at met
        · exact met.2.resolve_left none_
        · exact met.2
      refine ⟨trace ▸ inside.mpr ended, fun k i => ?_, fun i here => absurd here.isInfix none_⟩
      rw [trace, uncut]
      exact iff_of_false List.not_mem_nil (fun both => none_ both.2.isInfix)

/-- When the matching of `eol` stays inside the line buffer. -/
theorem staysInBuffer_iff (memory : Nat → UInt8) (eol file : Bytes) :
    StaysInBuffer memory eol file ↔ Matchable eol file := by
  rw [Matchable]
  cases last : eol.getLast? with
  | none =>
      obtain rfl := List.getLast?_eq_none_iff.mp last
      refine iff_of_false (fun stays => ?_) not_false
      have cut := (stays.cut 0 0).mpr
        ⟨rfl, ⟨Nat.zero_le _, List.nil_suffix, fun m below => absurd below (Nat.not_lt_zero m)⟩⟩
      cases cut
  | some ceol =>
      have ends := accesses_end memory eol ceol last file
      refine ⟨fun stays => ?_, ends.stays⟩
      have all := stays.inside
      have cut := stays.cut
      generalize getline memory eol file = r at ends
      generalize accesses memory eol file = log at ends all cut
      cases ends with
      | early _ narrow early outside => exact absurd all outside
      | cut n _ narrow notEarly first all once =>
          simp only
          rw [if_pos narrow]
          exact ⟨notEarly, .inl first.isInfix⟩
      | rest _ _ uncut unended inside =>
          have ended := inside.mp all
          simp only
          split
          · next narrow => exact ⟨(unended narrow).1, .inr ended⟩
          · refine ⟨fun found => ?_, ended⟩
            obtain ⟨n, first⟩ := exists_endsFirst found
            have here := (cut _ n).mpr ⟨rfl, first⟩
            rw [uncut] at here
            cases here

/-- The file begins with the last byte of `eol`, which is compared with the cell in front of
the buffer. -/
theorem compared_before :
    accesses (fun _ => 0) [13, 10] [10, 13, 10] =
      [⟨.stored, 0, 0, 1024⟩, ⟨.compared, -1, 1, 1024⟩] ∧
    ¬ StaysInBuffer (fun _ => 0) [13, 10] [10, 13, 10] := by
  have trace : accesses (fun _ => 0) [13, 10] [10, 13, 10] =
      [⟨.stored, 0, 0, 1024⟩, ⟨.compared, -1, 1, 1024⟩] := by decide +kernel
  refine ⟨trace, fun stays => ?_⟩
  have here := stays.inside ⟨.compared, -1, 1, 1024⟩ (by rw [trace]; simp)
  exact absurd here.1 (by decide)

end RSQLite
