import RSQLite.Csv.Scan

/-!
The runs of a cursor: each scan of a text delivers its rows from the first one on, numbered from 1.
-/
namespace RSQLite.Csv

open Returning

variable {t : CsvTable} {p q : CsvCursor}

theorem length_le_rowBytes (cells : List Cell) : cells.length ≤ (rowBytes cells).length + 1 := by
  induction cells with
  | nil => exact Nat.zero_le _
  | cons cell cells ih =>
    cases cells with
    | nil => exact Nat.le_add_left _ _
    | cons cell' cells =>
      have longer : (rowBytes (cell :: cell' :: cells)).length =
          cell.bytes.length + ((rowBytes (cell' :: cells)).length + 1) := List.length_append
      rw [longer, List.length_cons]
      omega

/-- The next row. The reader may be in front of a byte order mark, and `r` is behind it. -/
theorem csvtabNext_row {cells : List Cell} {ending : Ending} {rest : Bytes} {r : CsvReader}
    (positive : 0 < t.nCol) (valid : Valid t p)
    (same : csvReadOneField always p.rdr = csvReadOneField always r) (sound : Sound t.source r)
    (some_ : r.nAlloc ≠ 0) (ahead : r.ahead = rowBytes cells ++ (ending.bytes ++ rest))
    (behind : r.ahead.length ≤ p.rdr.ahead.length) (fine : Fine t.source r.ahead)
    (fits : RowFits cells ending) (line : ending ≠ .comma) (whole : ending = .last → rest = [])
    (more : ending = .last → rowBytes cells ≠ [])
    (unmarked : r.bNotFirst = true ∨ ¬ byteOrderMark <+: rowBytes cells) :
    ∃ q, csvtabNext always t p = .ok q ∧ AtRow t q (p.iRowid + 1) cells rest := by
  have read : Valid t { p with rdr := r } := ⟨sound, valid.values, valid.lengths, valid.blocks⟩
  have enough : cells.length < p.rdr.ahead.length + 2 := by
    have := length_le_rowBytes cells
    rw [ahead, List.length_append] at behind
    omega
  obtain ⟨z, o, j, run, filled, ends⟩ := @rowFields_cells t { p with rdr := r } cells ending rest
    _ 0 read some_ ahead fine fits line whole unmarked enough (Nat.zero_le _)
  have run' : rowFields always t (p.rdr.ahead.length + 2) p 0 = .ok (z, o, j) := by
    rw [rowFields, same]
    rw [rowFields] at run
    exact run
  have row : ¬ (z = false ∧ j = 0) := by
    rintro ⟨none_, first⟩
    obtain ⟨last, empty | noColumns | given⟩ := ends none_
    · exact more last empty
    · omega
    · omega
  obtain ⟨q, empty, at_⟩ := csvRow_filled filled (o.iRowid + 1)
  refine ⟨q, ?_, ?_⟩
  · rw [csvtabNext, run']
    change (if z = false ∧ j = 0 then _ else _) = _
    rw [if_neg row]
    exact empty
  · rw [← filled.rowid]
    exact at_

theorem csvtabNext_end {r : CsvReader}
    (same : csvReadOneField always p.rdr = csvReadOneField always r) (sound : Sound t.source r)
    (ahead : r.ahead = []) : ∃ q, csvtabNext always t p = .ok q ∧ csvtabEof q = true := by
  obtain ⟨rdr, run, _⟩ := csvReadOneField_nil sound ahead
  refine ⟨{ p with rdr := rdr, iRowid := -1 }, ?_, rfl⟩
  rw [csvtabNext, rowFields, same, run]
  rfl

theorem csvRows_eof (k : Nat) (ended : csvtabEof p = true) : csvRows always t k p = .ok ([], p) := by
  cases k with
  | zero => rfl
  | succ k => rw [csvRows, if_pos ended]

theorem csvRows_row {n : Int} {cells : List Cell} {text : Bytes} (row : AtRow t p n cells text)
    (positive : 0 ≤ n) {rows : List (List Cell)} {next : CsvCursor}
    (run : csvtabNext always t p = .ok next)
    (others : ∀ k, ∃ q, csvRows always t k next = .ok ((numbered t (n + 1) rows).take k, q))
    (k : Nat) : ∃ q, csvRows always t k p = .ok ((numbered t n (cells :: rows)).take k, q) := by
  cases k with
  | zero => exact ⟨p, rfl⟩
  | succ k =>
    obtain ⟨q, rest⟩ := others k
    refine ⟨q, ?_⟩
    have more : ¬ csvtabEof p = true := by
      rw [csvtabEof, row.rowid]
      simpa using positive
    rw [csvRows, if_neg more, row.row]
    change (csvtabNext always t p >>= _) = _
    rw [run]
    change (csvRows always t k next >>= _) = _
    rw [rest]
    rfl

theorem csvRows_last {n : Int} {cells : List Cell} (row : AtRow t p n cells []) (positive : 0 ≤ n)
    (k : Nat) : ∃ q, csvRows always t k p = .ok ((numbered t n [cells]).take k, q) := by
  obtain ⟨next, run, ended⟩ := csvtabNext_end rfl row.valid.reader row.ahead
  refine csvRows_row row positive run (fun k => ⟨next, ?_⟩) k
  rw [csvRows_eof k ended, numbered, List.take_nil]

theorem linesBytes_cons (line : List Cell × Bool) (lines : List (List Cell × Bool)) :
    linesBytes (line :: lines) =
      rowBytes line.1 ++ ((Ending.line line.2).bytes ++ linesBytes lines) := by
  rw [linesBytes, List.flatMap_cons, List.append_assoc]
  rfl

/-- The rows of lines, and of what follows the last of them. -/
def rowsOf (lines : List (List Cell × Bool)) (last : List Cell) : List (List Cell) :=
  lines.map Prod.fst ++ if last = [] then [] else [last]

theorem csvRows_lines {n : Int} {cells last : List Cell} {lines : List (List Cell × Bool)}
    (nonempty : 0 < t.nCol) (row : AtRow t p n cells (linesBytes lines ++ rowBytes last))
    (positive : 0 ≤ n) (fine : Fine t.source (linesBytes lines ++ rowBytes last))
    (fits : ∀ line ∈ lines, RowFits line.1 (.line line.2))
    (fitsLast : last ≠ [] → RowFits last .last ∧ rowBytes last ≠ []) (k : Nat) :
    ∃ q, csvRows always t k p =
      .ok ((numbered t n (cells :: rowsOf lines last)).take k, q) := by
  induction lines generalizing p n cells k with
  | nil =>
    by_cases none_ : last = []
    · subst none_
      exact csvRows_last row positive k
    · obtain ⟨lastFits, some_⟩ := fitsLast none_
      have ahead : p.rdr.ahead = rowBytes last ++ (Ending.last.bytes ++ []) := by
        rw [row.ahead]
        exact (List.append_nil _).symm
      have unmarked : p.rdr.bNotFirst = true := by
        rcases row.first with first | empty
        · exact first
        · exact absurd empty some_
      obtain ⟨next, run, row'⟩ := csvtabNext_row nonempty row.valid rfl row.valid.reader row.some_
        ahead le_rfl (row.ahead ▸ fine) lastFits (by decide) (fun _ => rfl) (fun _ => some_)
        (.inl unmarked)
      rw [row.rowid] at row'
      rw [rowsOf, if_neg none_]
      exact csvRows_row row positive run (fun k => csvRows_last row' (by omega) k) k
  | cons line lines ih =>
    rw [linesBytes_cons, List.append_assoc, List.append_assoc] at row fine
    have unmarked : p.rdr.bNotFirst = true := by
      rcases row.first with first | empty
      · exact first
      · cases end_ : line.2 <;> rw [end_] at empty <;> simp [Ending.bytes] at empty
    obtain ⟨next, run, row'⟩ := csvtabNext_row nonempty row.valid rfl row.valid.reader row.some_
      row.ahead le_rfl (row.ahead ▸ fine) (fits line (.head _)) (by simp) (fun no => by cases no)
      (fun no => by cases no) (.inl unmarked)
    rw [row.rowid] at row'
    exact csvRows_row row positive run (fun k => ih row' (by omega) fine.right.right
      (fun line member => fits line (.tail _ member)) k) k

def CsvTable.text (t : CsvTable) : Bytes :=
  match t.source with
  | .file contents => contents
  | .data zData => zData.takeWhile (· ≠ 0)

theorem rewound_spec {r : CsvReader} (starts : t.Starts) (sound : Sound t.source r) :
    ∃ r', rewound t r = .ok r' ∧ Sound t.source r' ∧ r'.ahead = t.text.drop t.iStart ∧
      r'.nAlloc = r.nAlloc ∧ r'.bNotFirst = r.bNotFirst := by
  obtain ⟨room, source⟩ := sound
  rw [CsvTable.Starts] at starts
  rw [rewound, CsvTable.text]
  cases same : t.source with
  | file contents =>
    rw [same] at source
    obtain ⟨position, input⟩ := source
    rw [input]
    exact ⟨_, rfl, ⟨room, _, rfl⟩, rfl, rfl, rfl⟩
  | data zData =>
    rw [same] at source starts
    obtain ⟨input, zIn⟩ := source
    rw [input]
    dsimp only
    rw [if_pos (by rw [zIn]; exact starts)]
    refine ⟨_, rfl, ⟨room, rfl, zIn⟩, ?_, rfl, rfl⟩
    rw [CsvReader.ahead]
    dsimp only
    rw [zIn]
    exact List.append_nil _

theorem Document.rows_eq (d : Document) : d.rows = rowsOf d.lines d.last := rfl

/-- The first row, behind a byte order mark. -/
theorem csvRows_document {d : Document} {r : CsvReader} (nonempty : 0 < t.nCol)
    (valid : Valid t p) (same : csvReadOneField always p.rdr = csvReadOneField always r)
    (sound : Sound t.source r) (some_ : r.nAlloc ≠ 0) (first : p.iRowid = 0)
    (ahead : r.ahead = linesBytes d.lines ++ rowBytes d.last)
    (behind : r.ahead.length ≤ p.rdr.ahead.length) (fine : Fine t.source r.ahead)
    (fits : d.Fits) (unmarked : r.bNotFirst = true ∨ ¬ byteOrderMark <+: r.ahead) :
    ∃ q, csvtabNext always t p = .ok q ∧ ∀ k, ∃ q', csvRows always t k q =
      .ok ((numbered t 1 d.rows).take k, q') := by
  obtain ⟨mark, lines, last⟩ := d
  obtain ⟨fitsLines, fitsLast⟩ := fits
  rw [Document.rows_eq]
  dsimp only at *
  have noMark {text more : Bytes} (whole : r.ahead = text ++ more) :
      r.bNotFirst = true ∨ ¬ byteOrderMark <+: text :=
    unmarked.imp_right fun no mark => no (whole ▸ mark.trans (List.prefix_append _ _))
  cases lines with
  | nil =>
    by_cases none_ : last = []
    · subst none_
      obtain ⟨q, run, ended⟩ := csvtabNext_end (t := t) same sound ahead
      refine ⟨q, run, fun k => ⟨q, ?_⟩⟩
      rw [csvRows_eof k ended]
      exact congrArg (fun rows => Except.ok (rows, q)) List.take_nil.symm
    · obtain ⟨lastFits, text⟩ := fitsLast none_
      have whole : r.ahead = rowBytes last ++ (Ending.last.bytes ++ []) := by
        rw [ahead]
        exact (List.append_nil _).symm
      obtain ⟨q, run, row⟩ := csvtabNext_row nonempty valid same sound some_ whole behind fine
        lastFits (by decide) (fun _ => rfl) (fun _ => text) (noMark whole)
      rw [first] at row
      refine ⟨q, run, fun k => ?_⟩
      rw [rowsOf, if_neg none_]
      exact csvRows_last row (by decide) k
  | cons line lines =>
    rw [linesBytes_cons, List.append_assoc, List.append_assoc] at ahead
    obtain ⟨q, run, row⟩ := csvtabNext_row nonempty valid same sound some_ ahead behind fine
      (fitsLines line (.head _)) (by simp) (fun no => by cases no) (fun no => by cases no)
      (noMark ahead)
    rw [first] at row
    refine ⟨q, run, fun k => ?_⟩
    rw [ahead] at fine
    exact csvRows_lines nonempty row (by decide) fine.right.right
      (fun line member => fitsLines line (.tail _ member)) fitsLast k

/-- A scan from any state of a cursor delivers the rows of the text, however they are written. A
byte order mark is skipped by the first scan only. -/
theorem csvtabFilter_rows {d : Document} (nonempty : 0 < t.nCol) (starts : t.Starts)
    (valid : Valid t p) (text : t.text.drop t.iStart = d.bytes) (fine : Fine t.source d.bytes)
    (fits : d.Fits) (marked : d.mark = true → p.rdr.bNotFirst = false)
    (unmarked : d.mark = false → p.rdr.bNotFirst = true ∨ ¬ byteOrderMark <+: d.bytes) :
    ∃ q, csvtabFilter always t p = .ok (true, q) ∧ ∀ k, ∃ q', csvRows always t k q =
      .ok ((numbered t 1 d.rows).take k, q') := by
  obtain ⟨rdr, append, sound, _, some_, _, first⟩ := csvAppend_always valid.reader 0
  obtain ⟨r, rewind, sound', ahead, nAlloc, first'⟩ := rewound_spec starts sound
  rw [text] at ahead
  have back : Valid t { p with rdr := r, iRowid := 0 } :=
    ⟨sound', valid.values, valid.lengths, valid.blocks⟩
  have buffer : r.nAlloc ≠ 0 := nAlloc ▸ some_
  have same : r.bNotFirst = p.rdr.bNotFirst := first'.trans first
  have next : ∃ q, csvtabNext always t { p with rdr := r, iRowid := 0 } = .ok q ∧
      ∀ k, ∃ q', csvRows always t k q = .ok ((numbered t 1 d.rows).take k, q') := by
    cases mark : d.mark with
    | false =>
      have whole : r.ahead = linesBytes d.lines ++ rowBytes d.last := by
        rw [ahead, Document.bytes, mark]
        rfl
      refine csvRows_document nonempty back rfl sound' buffer rfl whole le_rfl (ahead ▸ fine) fits ?_
      rw [ahead, same]
      exact unmarked mark
    | true =>
      have whole : r.ahead = byteOrderMark ++ (linesBytes d.lines ++ rowBytes d.last) := by
        rw [ahead, Document.bytes, mark]
        rfl
      obtain ⟨u, skipped, sound'', some', ahead', first''⟩ :=
        csvReadOneField_mark sound' (same.trans (marked mark)) whole (ahead ▸ fine)
      have fine' : Fine t.source u.ahead := by
        rw [← ahead, whole] at fine
        exact ahead' ▸ fine.right
      refine csvRows_document nonempty back skipped sound'' some' rfl ahead' ?_ fine' fits
        (.inl first'')
      change u.ahead.length ≤ r.ahead.length
      rw [ahead', whole]
      exact (List.sublist_append_right _ _).length_le
  obtain ⟨q, run, rows⟩ := next
  refine ⟨q, ?_, rows⟩
  rw [csvtabFilter, append]
  change (rewound t rdr >>= _) = _
  rw [rewind]
  change (csvtabNext always t { p with rdr := r, iRowid := 0 } >>= _) = _
  rw [run]
  rfl

/-- In every run of a cursor, a scan delivers all rows of the text from its start, even if memory
has run out before. -/
theorem csvCalls_filter_rows {d : Document} {memory : Memory} {calls : List CsvCall}
    (small : t.nCol < 32768) (nonempty : 0 < t.nCol) (starts : t.Starts)
    (opened : csvtabOpen memory t = .ok (some p)) (run : csvCalls memory t p calls = .ok q)
    (text : t.text.drop t.iStart = d.bytes) (fine : Fine t.source d.bytes) (fits : d.Fits)
    (marked : d.mark = true → q.rdr.bNotFirst = false)
    (unmarked : d.mark = false → q.rdr.bNotFirst = true ∨ ¬ byteOrderMark <+: d.bytes) :
    ∃ o, csvtabFilter always t q = .ok (true, o) ∧ ∀ k, ∃ o', csvRows always t k o =
      .ok ((numbered t 1 d.rows).take k, o') := by
  have first := @csvtabOpen_safe t memory small
  rw [opened] at first
  have valid := @csvCalls_safe t p memory starts (first p rfl) calls
  rw [run] at valid
  exact csvtabFilter_rows nonempty starts valid text fine fits marked unmarked

/-- A line that ends with a return, a field in quotes, and a row that is short, behind a scan that had
no memory for the second column. -/
theorem csvCalls_filter_rows_file :
    let d : Document := ⟨false, [([.bare [97], .quoted [120, 34, 44, 10]], true),
      ([.bare [], .bare [49]], false)], [.quoted [50]]⟩
    let t : CsvTable := ⟨.file d.bytes, 0, 2⟩
    let memory : Memory := fun attempt _ => decide (attempt < 4)
    ∃ p q o, csvtabOpen memory t = .ok (some p) ∧
      csvCalls memory t p [.filter, .column 0, .next] = .ok q ∧
      csvtabFilter always t q = .ok (true, o) ∧
      ∀ k, ∃ o', csvRows always t k o = .ok ((numbered t 1 d.rows).take k, o') := by
  intro d t memory
  have fits : d.Fits := by
    refine ⟨?_, fun _ => ⟨trivial, by decide⟩⟩
    intro line member
    simp only [d, List.mem_cons, List.not_mem_nil, or_false] at member
    rcases member with rfl | rfl
    · simp [RowFits, Cell.Fits, comma, newline, quote]
    · simp [RowFits, Cell.Fits, comma, newline, quote, return_]
  obtain ⟨o, scan⟩ := @csvCalls_filter_rows t _ _ d memory [.filter, .column 0, .next] (by decide)
    (by decide) trivial rfl rfl rfl (by intro _; decide) fits (fun no => by cases no)
    (fun _ => .inl rfl)
  exact ⟨_, _, o, rfl, rfl, scan⟩

end RSQLite.Csv
