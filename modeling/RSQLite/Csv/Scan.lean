import RSQLite.Csv.Records
import RSQLite.Library.CString

/-!
Scans of a table of CSV text, however its fields and lines are written: each row is delivered once,
in order, with one value for each column.
-/
namespace RSQLite.Csv

open Returning

/-- The fields of a row, with commas between them. -/
def rowBytes : List Cell → Bytes
  | [] => []
  | [cell] => cell.bytes
  | cell :: cells => cell.bytes ++ comma :: rowBytes cells

def RowFits : List Cell → Ending → Prop
  | [], _ => False
  | [cell], ending => cell.Fits ending
  | cell :: cells, ending => cell.Fits .comma ∧ RowFits cells ending

/-- A text: lines, each with its end, and a last row that has no end. -/
structure Document where
  mark : Bool
  lines : List (List Cell × Bool)
  last : List Cell

def linesBytes (lines : List (List Cell × Bool)) : Bytes :=
  lines.flatMap fun line => rowBytes line.1 ++ (Ending.line line.2).bytes

def Document.bytes (d : Document) : Bytes :=
  (if d.mark then byteOrderMark else []) ++ (linesBytes d.lines ++ rowBytes d.last)

def Document.rows (d : Document) : List (List Cell) :=
  d.lines.map Prod.fst ++ if d.last = [] then [] else [d.last]

/-- The last row has some text. Another mark at the start is text, but only behind the first. -/
structure Document.Fits (d : Document) : Prop where
  lines : ∀ line ∈ d.lines, RowFits line.1 (.line line.2)
  last : d.last ≠ [] → RowFits d.last .last ∧ rowBytes d.last ≠ []

/-- What a column shows: a value ends at the first zero, and is empty where the row is short. -/
def shown (cells : List Cell) (k : Nat) : Bytes :=
  ((cells[k]?.elim [] Cell.text).takeWhile (· ≠ 0))

def columns (t : CsvTable) (cells : List Cell) : List (Option Bytes) :=
  (List.range t.nCol).map fun k => some (shown cells k)

/-- The rows, numbered from `n` on. -/
def numbered (t : CsvTable) : Int → List (List Cell) → List (Int × List (Option Bytes))
  | _, [] => []
  | n, cells :: rows => (n, columns t cells) :: numbered t (n + 1) rows

variable {t : CsvTable} {p q : CsvCursor}

/-- The block of a column has this value. -/
def Shows (p : CsvCursor) (k : Nat) (value : Bytes) : Prop :=
  ∃ b, p.azVal[k]? = some (some b) ∧ 0 ∈ b ∧ b.takeWhile (· ≠ 0) = value

theorem storeField_shows (valid : Valid t p) (inside : p.rdr.z.length < p.rdr.nAlloc) {i : Nat}
    (column : i < t.nCol) :
    ∃ q k, storeField always p i = .ok (true, q) ∧ Valid t q ∧
      q.rdr = { p.rdr with attempts := k } ∧ q.iRowid = p.iRowid ∧
      Shows q i (p.rdr.z.takeWhile (· ≠ 0)) ∧ ∀ k, k ≠ i → q.azVal[k]? = p.azVal[k]? := by
  rcases @storeField_spec _ _ always valid inside _ column with
    ⟨⟨_, _, no⟩, _⟩ | ⟨tail, len, k, small, stored⟩
  · cases no
  · have lt : i < p.azVal.length := valid.values.symm ▸ column
    refine ⟨_, k, stored, stored_valid valid i k small, rfl, rfl,
      ⟨_, List.getElem?_set_self lt, by simp, CString.takeWhile_before _ _ _⟩,
      fun k other => ?_⟩
    exact List.getElem?_set_ne (Ne.symm other)

theorem read_cell {cell : Cell} {ending : Ending} {rest : Bytes} (valid : Valid t p)
    (some_ : p.rdr.nAlloc ≠ 0) (ahead : p.rdr.ahead = cell.bytes ++ (ending.bytes ++ rest))
    (fine : Fine t.source p.rdr.ahead) (fits : cell.Fits ending)
    (whole : ending = .last → rest = []) (more : ending = .last → cell.bytes ≠ [])
    (unmarked : p.rdr.bNotFirst = true ∨ ¬ byteOrderMark <+: cell.bytes) :
    ∃ rdr, csvReadOneField always p.rdr = .ok (true, rdr) ∧ Valid t { p with rdr := rdr } ∧
      rdr.z.length < rdr.nAlloc ∧ rdr.z = cell.text ∧ rdr.cTerm = ending.term ∧
      rdr.ahead = rest ∧ rdr.bNotFirst = true := by
  obtain ⟨rdr, run, z, term, rest_, first⟩ :=
    csvReadOneField_cell valid.reader some_ ahead fine fits whole more unmarked
  have safe := csvReadOneField_safe always valid.reader
  rw [run] at safe
  exact ⟨rdr, run, ⟨safe.1.reached.sound, valid.values, valid.lengths, valid.blocks⟩,
    safe.1.inside rfl, z, term, rest_, first⟩

theorem shown_cons (cell : Cell) (cells : List Cell) (k : Nat) :
    shown (cell :: cells) (k + 1) = shown cells k := rfl

/-- What the fields of a row have done to a cursor, whose columns from `i` to `j` they gave values
to. -/
structure Filled (t : CsvTable) (p q : CsvCursor) (cells : List Cell) (rest : Bytes) (i j : Nat) :
    Prop where
  valid : Valid t q
  some_ : q.rdr.nAlloc ≠ 0
  ahead : q.rdr.ahead = rest
  first : q.rdr.bNotFirst = true ∨ rest = []
  rowid : q.iRowid = p.iRowid
  columns : i ≤ j ∧ j ≤ t.nCol
  before : ∀ k, k < i → q.azVal[k]? = p.azVal[k]?
  shows : ∀ k, i + k < j → Shows q (i + k) (shown cells k)
  empty : ∀ k, j ≤ i + k → i + k < t.nCol → shown cells k = []

theorem Filled.cons {o : CsvCursor} {cell : Cell} {cells : List Cell} {rest : Bytes} {i j : Nat}
    (filled : Filled t q o cells rest (i + 1) j)
    (value : Shows q i (shown (cell :: cells) 0)) (rowid : q.iRowid = p.iRowid)
    (same : ∀ k, k ≠ i → q.azVal[k]? = p.azVal[k]?) : Filled t p o (cell :: cells) rest i j := by
  obtain ⟨le, bound⟩ := filled.columns
  refine ⟨filled.valid, filled.some_, filled.ahead, filled.first, filled.rowid.trans rowid,
    ⟨by omega, bound⟩, fun k lt => ?_, fun k lt => ?_, fun k ge lt => ?_⟩
  · rw [filled.before k (by omega), same k (by omega)]
  · cases k with
    | zero =>
      obtain ⟨b, here, shows⟩ := value
      exact ⟨b, (filled.before i (by omega)).trans here, shows⟩
    | succ k =>
      have := filled.shows k (by omega)
      rw [show i + (k + 1) = i + 1 + k by omega, shown_cons]
      exact this
  · cases k with
    | zero => omega
    | succ k =>
      rw [shown_cons]
      exact filled.empty k (by omega) (by omega)

theorem Filled.skip {o : CsvCursor} {cells : List Cell} {rest : Bytes} {j : Nat}
    (filled : Filled t q o cells rest t.nCol j) (rowid : q.iRowid = p.iRowid)
    (same : q.azVal = p.azVal) (others : List Cell) : Filled t p o others rest t.nCol j := by
  obtain ⟨le, bound⟩ := filled.columns
  refine ⟨filled.valid, filled.some_, filled.ahead, filled.first, filled.rowid.trans rowid,
    ⟨le, bound⟩, fun k lt => ?_, fun k lt => ?_, fun k ge lt => ?_⟩
  · rw [filled.before k lt, same]
  · omega
  · omega

theorem shown_last (cell : Cell) (k : Nat) : shown [cell] (k + 1) = [] := rfl

theorem text_of_bytes {cell : Cell} (empty : cell.bytes = []) : cell.text = [] := by
  cases cell with
  | bare text => exact empty
  | quoted text => cases empty

theorem Filled.of {o : CsvCursor} {cells : List Cell} {rest : Bytes} {i j : Nat}
    (filled : Filled t q o cells rest i j) (rowid : q.iRowid = p.iRowid)
    (same : q.azVal = p.azVal) : Filled t p o cells rest i j :=
  ⟨filled.valid, filled.some_, filled.ahead, filled.first, filled.rowid.trans rowid,
    filled.columns, fun k lt => same ▸ filled.before k lt, filled.shows, filled.empty⟩

theorem Filled.nothing {cells : List Cell} {rest : Bytes} {i : Nat} (valid : Valid t q)
    (some_ : q.rdr.nAlloc ≠ 0) (ahead : q.rdr.ahead = rest)
    (first : q.rdr.bNotFirst = true ∨ rest = []) (columns : i ≤ t.nCol)
    (empty : ∀ k, i + k < t.nCol → shown cells k = []) : Filled t q q cells rest i i :=
  ⟨valid, some_, ahead, first, rfl, ⟨le_rfl, columns⟩, fun _ _ => rfl,
    fun k lt => absurd lt (by omega), fun k _ lt => empty k lt⟩

theorem rowFields_nothing {cell : Cell} {fuel i : Nat} (valid : Valid t p)
    (some_ : p.rdr.nAlloc ≠ 0) (none_ : p.rdr.ahead = []) (empty : cell.bytes = [])
    (columns : i ≤ t.nCol) :
    ∃ q, rowFields always t (fuel + 1) p i = .ok (false, q, i) ∧ Filled t p q [cell] [] i i := by
  obtain ⟨rdr, run, sound, ahead, nAlloc⟩ := csvReadOneField_nil valid.reader none_
  refine ⟨{ p with rdr := rdr }, ?_, ?_⟩
  · rw [rowFields, run]
    rfl
  · have read : Valid t { p with rdr := rdr } :=
      ⟨sound, valid.values, valid.lengths, valid.blocks⟩
    have nothing : Filled t { p with rdr := rdr } _ [cell] [] i i := .nothing read
      (nAlloc ▸ some_) ahead (.inr rfl) columns (fun k _ => by
        cases k with
        | zero => simp [shown, text_of_bytes empty]
        | succ k => exact shown_last cell k)
    exact nothing.of rfl rfl

/-- The last field of a row. -/
theorem rowFields_cell {cell : Cell} {ending : Ending} {rest : Bytes} {fuel i : Nat}
    (valid : Valid t p) (some_ : p.rdr.nAlloc ≠ 0)
    (ahead : p.rdr.ahead = cell.bytes ++ (ending.bytes ++ rest))
    (fine : Fine t.source p.rdr.ahead) (fits : cell.Fits ending) (line : ending ≠ .comma)
    (whole : ending = .last → rest = []) (more : ending = .last → cell.bytes ≠ [])
    (unmarked : p.rdr.bNotFirst = true ∨ ¬ byteOrderMark <+: cell.bytes) (columns : i ≤ t.nCol) :
    ∃ q j, rowFields always t (fuel + 1) p i = .ok (true, q, j) ∧
      Filled t p q [cell] rest i j := by
  obtain ⟨rdr, run, read, inside, z, term, ahead', first⟩ :=
    read_cell valid some_ ahead fine fits whole more unmarked
  have notComma : rdr.cTerm ≠ 44 := by
    rw [term]
    cases ending with
    | comma => exact absurd rfl line
    | line cr => exact (by decide : (10 : Int) ≠ 44)
    | last => decide
  have buffer : rdr.nAlloc ≠ 0 := Nat.ne_zero_of_lt inside
  by_cases column : i < t.nCol
  · obtain ⟨q, _, stored, valid', same, rowid, shows, others⟩ :=
      storeField_shows read inside column
    refine ⟨q, i + 1, ?_, ?_⟩
    · rw [rowFields, run]
      dsimp only [bind, Except.bind]
      rw [if_pos rfl, if_pos column, stored]
      dsimp only
      rw [if_pos rfl, if_neg (by rw [same]; exact notComma)]
    · have nothing : Filled t q q [] rest (i + 1) (i + 1) := .nothing valid'
        (by rw [same]; exact buffer) (by rw [same]; exact ahead')
        (.inl (by rw [same]; exact first)) column (fun _ _ => rfl)
      rw [z] at shows
      exact (nothing.cons shows rowid others).of rfl rfl
  · obtain rfl : i = t.nCol := by omega
    refine ⟨{ p with rdr := rdr }, t.nCol, ?_, ?_⟩
    · rw [rowFields, run]
      dsimp only [bind, Except.bind]
      rw [if_pos rfl, if_neg column, if_neg notComma]
    · have nothing : Filled t { p with rdr := rdr } _ [cell] rest t.nCol t.nCol :=
        .nothing read buffer ahead' (.inl first) le_rfl (fun k lt => absurd lt (by omega))
      exact nothing.of rfl rfl

theorem rowFields_cells {cells : List Cell} {ending : Ending} {rest : Bytes} {fuel i : Nat}
    (valid : Valid t p) (some_ : p.rdr.nAlloc ≠ 0)
    (ahead : p.rdr.ahead = rowBytes cells ++ (ending.bytes ++ rest))
    (fine : Fine t.source p.rdr.ahead) (fits : RowFits cells ending)
    (line : ending ≠ .comma) (whole : ending = .last → rest = [])
    (unmarked : p.rdr.bNotFirst = true ∨ ¬ byteOrderMark <+: rowBytes cells)
    (enough : cells.length < fuel) (columns : i ≤ t.nCol) :
    ∃ z q j, rowFields always t fuel p i = .ok (z, q, j) ∧ Filled t p q cells rest i j ∧
      (z = false → ending = .last ∧ (rowBytes cells = [] ∨ i = t.nCol ∨ i < j)) := by
  induction cells generalizing p fuel i with
  | nil => exact fits.elim
  | cons cell cells ih =>
    obtain ⟨fuel, rfl⟩ := Nat.exists_eq_succ_of_ne_zero (Nat.ne_zero_of_lt enough)
    cases cells with
    | nil =>
      by_cases gone : ending = .last ∧ cell.bytes = []
      · obtain ⟨rfl, empty⟩ := gone
        obtain rfl := whole rfl
        have none_ : p.rdr.ahead = [] := by
          rw [ahead, rowBytes, empty]
          rfl
        obtain ⟨q, run, filled⟩ :=
          @rowFields_nothing _ _ cell fuel i valid some_ none_ empty columns
        exact ⟨false, q, i, run, filled, fun _ => ⟨rfl, .inl empty⟩⟩
      · have more : ending = .last → cell.bytes ≠ [] := fun last empty => gone ⟨last, empty⟩
        obtain ⟨q, j, run, filled⟩ := @rowFields_cell _ _ cell ending rest fuel i valid some_ ahead
          fine fits line whole more unmarked columns
        exact ⟨true, q, j, run, filled, fun no => absurd no.symm Bool.false_ne_true⟩
    | cons cell' cells =>
      obtain ⟨fits, fitsRest⟩ := fits
      have ahead₁ : p.rdr.ahead = cell.bytes ++ (Ending.comma.bytes ++
          (rowBytes (cell' :: cells) ++ (ending.bytes ++ rest))) := by
        rw [ahead, rowBytes, List.append_assoc]
        · rfl
        · exact List.cons_ne_nil _ _
      have unmarked' : p.rdr.bNotFirst = true ∨ ¬ byteOrderMark <+: cell.bytes :=
        unmarked.imp_right fun no mark => no (mark.trans (List.prefix_append _ _))
      obtain ⟨rdr, run, read, inside, z, term, ahead', first⟩ :=
        read_cell valid some_ ahead₁ fine fits (fun no => by cases no) (fun no => by cases no)
          unmarked'
      have more : rdr.cTerm = 44 := term
      have buffer : rdr.nAlloc ≠ 0 := Nat.ne_zero_of_lt inside
      have fine' : Fine t.source rdr.ahead := by
        rw [ahead₁] at fine
        exact ahead' ▸ fine.right.right
      by_cases column : i < t.nCol
      · obtain ⟨q, _, stored, valid', same, rowid, shows, others⟩ :=
          storeField_shows read inside column
        obtain ⟨y, o, j, rest_, filled, ends⟩ := @ih q fuel (i + 1) valid'
          (by rw [same]; exact buffer) (by rw [same]; exact ahead') (by rw [same]; exact fine')
          fitsRest (.inl (by rw [same]; exact first)) (Nat.lt_of_succ_lt_succ enough) column
        refine ⟨y, o, j, ?_, ?_, fun no => ⟨(ends no).1, .inr (.inr ?_)⟩⟩
        · rw [rowFields, run]
          dsimp only [bind, Except.bind]
          rw [if_pos rfl, if_pos column, stored]
          dsimp only
          rw [if_pos rfl, if_pos (by rw [same]; exact more)]
          exact rest_
        · rw [z] at shows
          exact (filled.cons shows rowid others).of rfl rfl
        · have := filled.columns
          omega
      · obtain rfl : i = t.nCol := by omega
        obtain ⟨y, o, j, rest_, filled, ends⟩ := @ih { p with rdr := rdr } fuel t.nCol read
          buffer ahead' fine' fitsRest (.inl first) (Nat.lt_of_succ_lt_succ enough) le_rfl
        refine ⟨y, o, j, ?_, ?_, fun no => ⟨(ends no).1, .inr (.inl rfl)⟩⟩
        · rw [rowFields, run]
          dsimp only [bind, Except.bind]
          rw [if_pos rfl, if_neg column, if_pos more]
          exact rest_
        · exact (filled.skip rfl rfl _).of rfl rfl

/-- A cursor that has read its row, and is in front of this text. -/
structure AtRow (t : CsvTable) (q : CsvCursor) (n : Int) (cells : List Cell) (text : Bytes) :
    Prop where
  valid : Valid t q
  some_ : q.rdr.nAlloc ≠ 0
  ahead : q.rdr.ahead = text
  first : q.rdr.bNotFirst = true ∨ text = []
  rowid : q.iRowid = n
  row : csvRow t q = .ok (n, columns t cells)

theorem mapM_ok {ε α β : Type} {f : α → Except ε β} {g : α → β} (l : List α)
    (each : ∀ a ∈ l, f a = .ok (g a)) : l.mapM f = .ok (l.map g) := by
  induction l with
  | nil => rfl
  | cons a l ih =>
    rw [List.mapM_cons, each a (.head _), ih fun b member => each b (.tail _ member)]
    rfl

/-- The columns that a row did not give values to are empty. -/
theorem csvRow_filled {o : CsvCursor} {cells : List Cell} {rest : Bytes} {j : Nat}
    (filled : Filled t p o cells rest 0 j) (n : Int) :
    ∃ q, emptyFrom always (t.nCol - j) { o with iRowid := n } j = .ok q ∧
      AtRow t q n cells rest := by
  obtain ⟨_, bound⟩ := filled.columns
  obtain ⟨q, k, run, valid, reader, rowid, before, later⟩ :=
    @emptyFrom_spec t always (t.nCol - j) _ j
      (filled.valid.reading filled.valid.reader n o.zErrMsg) (by omega)
  refine ⟨q, run, valid, ?_, ?_, ?_, rowid, ?_⟩
  · rw [reader]
    exact filled.some_
  · rw [reader]
    exact filled.ahead
  · rw [reader]
    exact filled.first
  have value (k : Nat) (column : k < t.nCol) : Shows q k (shown cells k) := by
    by_cases given : k < j
    · obtain ⟨b, here, shows⟩ := filled.shows k (by omega)
      rw [Nat.zero_add] at here
      exact ⟨b, (before k given).trans here, shows⟩
    · have nothing := filled.empty k (by omega) (by omega)
      rcases later k (by omega) column with here | ⟨_, _, no⟩
      · exact ⟨[0], here, .head _, by rw [nothing]; rfl⟩
      · cases no
  have each : ∀ k ∈ List.range t.nCol,
      csvtabColumn t q (k : Nat) = .ok (some (shown cells k)) := by
    intro k member
    have column := List.mem_range.mp member
    obtain ⟨b, here, zero, shows⟩ := value k column
    rw [csvtabColumn, if_pos (by omega), Int.toNat_natCast, here]
    dsimp only
    rw [if_pos zero, shows]
  rw [csvRow, mapM_ok _ each, csvtabRowid, rowid]
  rfl

end RSQLite.Csv
