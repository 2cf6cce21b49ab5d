import RSQLite.Connection.ImportSplit

/-!
Which cells of an import become NULL. The marker `\N` is tested as a prefix, so that a text
which goes on behind it is lost.
-/
namespace RSQLite

open Delimited

/-- `azCol[i][0] == '\\' && azCol[i][1] == 'N'`, tested in the buffer of the line. -/
def cellValue (buf : Bytes) (o : Nat) : SqlValue :=
  if buf[o]? = some 0x5C ∧ buf[o + 1]? = some 0x4E then .null else .text (cString (buf.drop o))

/-- The test in the buffer is one of the text, since a NUL ends the text. -/
theorem cellValue_eq (buf : Bytes) (o : Nat) :
    cellValue buf o = importedValue (cString (buf.drop o)) := by
  have marked : buf[o]? = some 0x5C ∧ buf[o + 1]? = some 0x4E ↔
      [0x5C, 0x4E] <+: cString (buf.drop o) := by
    have first : buf[o]? = (buf.drop o)[0]? := by rw [List.getElem?_drop, Nat.add_zero]
    have second : buf[o + 1]? = (buf.drop o)[1]? := by rw [List.getElem?_drop]
    rw [first, second]
    cases buf.drop o with
    | nil => simp [cString]
    | cons c cells =>
        cases cells with
        | nil => by_cases zero : c = 0 <;> simp [cString, zero]
        | cons d cells =>
            by_cases zero : c = 0
            · simp [cString, zero]
            · by_cases zero' : d = 0 <;> simp [cString, zero, zero', eq_comm]
  rw [cellValue, importedValue_eq]
  exact if_congr marked rfl rfl

/-- A line that is accepted is inserted with the values of its columns in the buffer. -/
theorem lineRow_cells {separator line : Bytes} {nCol : Nat} (nonempty : separator ≠ [])
    (noNul : 0 ∉ separator) (noNul' : 0 ∉ line) (columns : 0 < nCol)
    (count : (splitLine separator nCol line 0 0 [] []).1 + 1 = nCol) :
    ∃ s, splitInPlace separator nCol (line.length + 1) 0 (splitStart line) = .ok s ∧
      s.azCol.map (cellValue s.buf) = lineRow separator nCol line := by
  obtain ⟨s, split, _, texts⟩ := splitInPlace_eq nonempty noNul columns line noNul'
  refine ⟨s, split, ?_⟩
  have length := splitLine_count separator nCol line 0 0 [] [] rfl
  rw [List.take_of_length_le (by omega)] at texts
  rw [lineRow, ← texts, Split.texts, List.map_map]
  exact List.map_congr_left (fun o _ => cellValue_eq s.buf o)

variable {DB : Type} {memory : Nat → Nat → UInt8} {eol : Bytes}

theorem Reads.unique {lineno : Nat} {file : Bytes} {read read' : List Bytes}
    (reads : Reads memory eol lineno file read) (reads' : Reads memory eol lineno file read') :
    read = read' := by
  induction reads generalizing read' with
  | ended lineno file rest read =>
      cases reads' with
      | ended _ _ rest' read' => rfl
      | line _ _ line' rest' later' read' reads' => cases read.symm.trans read'
  | line lineno file line rest later read reads ih =>
      cases reads' with
      | ended _ _ rest' read' => cases read.symm.trans read'
      | line _ _ line' rest' later' read' reads' =>
          cases read.symm.trans read'
          rw [ih reads']

end RSQLite
