import RSQLite.Column.Copy

/-!
Which elements of a fetched vector are missing and which hold the value of their
cell. The types seen by a column decide it: a cell that is read under a type
other than its own, or than a wider number, leaves a conflict.
-/
namespace RSQLite

open DbColumnStorage SqliteColumnDataSource

variable (cv : Conversions) (source : SqliteColumnDataSource)

/-- The element is the value of the cell: as a number, bit for bit, or byte for byte. -/
def holdsValue (rclass : List String) (v : Slot) : SqlValue → Prop
  | .null => v.isNA rclass = true
  | .integer i => v.number? rclass = some (i.toInt : ℚ)
  | .real r => rclass = [] ∧ v = .word r.value.bits
  | .text b => v = .string (some b)
  | .blob b => v = .raw (some b)

/-- Cells that a column of an R vector can hold: not the two integers that stand
for a missing value, and no text with a NUL in it. -/
def Fetchable : SqlValue → Prop
  | .integer v => v.toInt ≠ Int32.minValue.toInt ∧ v ≠ naInteger64
  | .text b => 0 ∉ b
  | _ => True

instance : DecidablePred Fetchable
  | .integer v =>
      inferInstanceAs (Decidable (v.toInt ≠ Int32.minValue.toInt ∧ v ≠ naInteger64))
  | .text b => inferInstanceAs (Decidable (0 ∉ b))
  | .null | .real _ | .blob _ => .isTrue trivial

theorem defaultSlot_isNA (dt : DataType) :
    (defaultSlot dt).isNA (classFromDatatype dt) = true := by
  cases dt <;> decide

theorem isNA_of_number (rclass : List String) (v : Slot) (q : ℚ)
    (h : v.number? rclass = some q) : v.isNA rclass = false := by
  cases na : v.isNA rclass with
  | false => rfl
  | true => simp [Slot.number?, na] at h

theorem toInt32_ne_naInteger (v : Int64) (narrow : needs64Bit v = false)
    (h : v.toInt ≠ Int32.minValue.toInt) : v.toInt32 ≠ naInteger := by
  intro same
  apply h
  rw [← toInt32_of_not_needs64Bit v narrow, same]
  rfl

theorem number_integer64 (v : Int64) (h : v ≠ naInteger64) :
    (Slot.word v.toBitVec).number? ["integer64"] = some (v.toInt : ℚ) := by
  have regular : (v.toBitVec == naInteger64.toBitVec) = false := by
    rw [beq_eq_false_iff_ne]
    exact fun same => h (Int64.toBitVec_inj.mp same)
  simp only [Slot.number?, Slot.isNA, ite_true, regular, Bool.false_eq_true, ite_false,
    Int64.ofBitVec_toBitVec]

theorem number_real (n : Int) (h : n.natAbs < 2 ^ 53) :
    (Slot.word (Binary64.ofInt n).bits).number? [] = some (n : ℚ) := by
  have notNaN := Binary64.isNaN_ofInt n (by omega)
  have value := Binary64.toRat?_ofInt n h
  simp [Slot.number?, Slot.isNA, notNaN, value]

/-- A 32-bit integer that is not the missing one keeps its value under every
promotion. -/
theorem number_promoteSlot (dt : DataType) (w : Int32) (h : w ≠ naInteger)
    (hdt : dt = .int ∨ dt = .int64 ∨ dt = .real) :
    (promoteSlot dt (.integer w)).number? (classFromDatatype dt) = some (w.toInt : ℚ) := by
  have lower := w.le_toInt
  have upper := w.toInt_lt
  obtain rfl | rfl | rfl := hdt
  · simp [promoteSlot, Slot.number?, Slot.isNA, h]
  · have regular : w.toInt64 ≠ naInteger64 := by
      intro same
      have value := congrArg Int64.toInt same
      rw [Int32.toInt_toInt64] at value
      have least : naInteger64.toInt = -2 ^ 63 := rfl
      omega
    rw [promoteSlot, if_neg h, ← Int32.toInt_toInt64]
    exact number_integer64 _ regular
  · rw [promoteSlot, if_neg h]
    exact number_real _ (by omega)

theorem promoteSlot_missing (dt : DataType) (hdt : dt = .int ∨ dt = .int64 ∨ dt = .real) :
    (promoteSlot dt (.integer naInteger)).isNA (classFromDatatype dt) = true := by
  obtain rfl | rfl | rfl := hdt <;> decide

theorem elementOf_value (dt T : DataType) (cell : SqlValue) (typed : T ≠ .unknown)
    (value : cell.isNull = false) :
    elementOf cv dt T cell = promoteSlot dt (fetchSlot cv T cell).1 := by
  simp only [elementOf, typed, ite_false, slotOf, value, Bool.false_eq_true]

/-- A column that took `cell` while it had type `T`, and ends with type `dt`. -/
theorem elementOf_integer_narrow (dt T : DataType) (v : Int64) (narrow : needs64Bit v = false)
    (sentinel : v.toInt ≠ Int32.minValue.toInt)
    (h : T = .int ∧ (dt = .int ∨ dt = .int64 ∨ dt = .real) ∨
      T = dt ∧ (dt = .int64 ∨ dt = .real)) :
    (elementOf cv dt T (.integer v)).number? (classFromDatatype dt) = some (v.toInt : ℚ) := by
  have fits := toInt32_of_not_needs64Bit v narrow
  have lower := v.toInt32.le_toInt
  have upper := v.toInt32.toInt_lt
  obtain ⟨rfl, hdt⟩ | ⟨rfl, rfl | rfl⟩ := h
  · rw [elementOf_value cv dt _ _ (by decide) rfl, ← fits]
    exact number_promoteSlot dt _ (toInt32_ne_naInteger v narrow sentinel) hdt
  · rw [elementOf_value cv _ _ _ (by decide) rfl]
    refine number_integer64 v ?_
    intro least
    have value : v.toInt = -2 ^ 63 := congrArg Int64.toInt least
    omega
  · rw [elementOf_value cv _ _ _ (by decide) rfl]
    exact number_real v.toInt (by omega)

theorem elementOf_integer_wide (v : Int64) (h : v ≠ naInteger64) :
    (elementOf cv .int64 .int64 (.integer v)).number? (classFromDatatype .int64) =
      some (v.toInt : ℚ) := by
  rw [elementOf_value cv _ _ _ (by decide) rfl]
  exact number_integer64 v h

/-- The cell was read under the column's final type, or as an INT that a wider
number promoted later on. -/
theorem typeTrace_read (T : DataType) (cells : List SqlValue) (S : DataType) (cell : SqlValue)
    (h : (S, cell) ∈ typeTrace source T cells) (value : cell.isNull = false) :
    S = vectorType source T cells ∨
      S = .int ∧ (vectorType source T cells = .int64 ∨ vectorType source T cells = .real) := by
  have typed := typeTrace_ne_unknown source T cells S cell h value
  exact (promotes_vectorType source T cells S cell h).resolve_left typed

theorem cellDataType_ne_bool (cell : SqlValue) : cellDataType cell ≠ .bool := by
  cases cell with
  | integer v => simp only [cellDataType]; split <;> decide
  | null | real r | text b | blob b => simp [cellDataType]

/-- `warn_type_conflicts` stays silent for a cell if its own type is the final
one, or INT under a wider number. -/
theorem conflicts_empty {I : Type} [Counter I] (c : DbColumn I) (h : c.conflicts = ∅) (D : DataType)
    (seen : D ∈ c.dataTypesSeen) (typed : D ≠ .unknown) (notBool : D ≠ .bool) :
    D = c.getType ∨ D = .int ∧ (c.getType = .int64 ∨ c.getType = .real) := by
  by_contra other
  push Not at other
  have kept : D ∈ c.conflicts := by
    simp only [DbColumn.conflicts, Finset.mem_erase, ne_eq, other.1, notBool, typed,
      not_false_eq_true, true_and]
    split
    · next real => exact Finset.mem_erase.mpr ⟨fun int => (other.2 int).2 real, seen⟩
    · next wide => exact Finset.mem_erase.mpr ⟨fun int => (other.2 int).1 wide, seen⟩
    · exact seen
  rw [h] at kept
  simp at kept

/-- A cell read under type `S` in a column that ends with type `dt`, neither of
which conflicts with the cell's storage class, keeps its value. -/
theorem elementOf_holdsValue (dt S : DataType) (cell : SqlValue) (value : cell.isNull = false)
    (fetchable : Fetchable cell)
    (own : cellDataType cell = dt ∨ cellDataType cell = .int ∧ (dt = .int64 ∨ dt = .real))
    (read : S = dt ∨ S = .int ∧ (dt = .int64 ∨ dt = .real))
    (narrow : S = .int → cellDataType cell ≠ .int64 ∧ cellDataType cell ≠ .real) :
    holdsValue (classFromDatatype dt) (elementOf cv dt S cell) cell ∧
      (elementOf cv dt S cell).isNA (classFromDatatype dt) = false := by
  cases cell with
  | null => simp [SqlValue.isNull] at value
  | integer v =>
      have number : (elementOf cv dt S (.integer v)).number? (classFromDatatype dt) =
          some (v.toInt : ℚ) := by
        cases wide : needs64Bit v with
        | true =>
            simp only [cellDataType, wide, ite_true, reduceCtorEq, false_and, or_false] at own narrow
            subst own
            obtain rfl | ⟨rfl, _⟩ := read
            · exact elementOf_integer_wide cv v fetchable.2
            · exact absurd rfl (narrow rfl).1
        | false =>
            simp only [cellDataType, wide, Bool.false_eq_true, ite_false, true_and] at own
            refine elementOf_integer_narrow cv dt S v wide fetchable.1 ?_
            obtain rfl | ⟨rfl, hdt⟩ := read
            · obtain rfl | hdt := own
              · exact Or.inl ⟨rfl, Or.inl rfl⟩
              · exact Or.inr ⟨rfl, hdt⟩
            · exact Or.inl ⟨rfl, Or.inr hdt⟩
      exact ⟨number, isNA_of_number _ _ _ number⟩
  | real r =>
      simp only [cellDataType, reduceCtorEq, false_and, or_false] at own narrow
      subst own
      obtain rfl | ⟨rfl, _⟩ := read
      · rw [elementOf_value cv _ _ _ (by decide) rfl]
        exact ⟨⟨rfl, rfl⟩, r.notNaN⟩
      · exact absurd rfl (narrow rfl).2
  | text b =>
      simp only [cellDataType, reduceCtorEq, false_and, or_false] at own
      subst own
      obtain rfl | ⟨_, h | h⟩ := read
      · rw [elementOf_value cv _ _ _ (by decide) rfl]
        refine ⟨?_, rfl⟩
        exact congrArg (fun s => Slot.string (some s)) (cString_of_no_nul b fetchable)
      · cases h
      · cases h
  | blob b =>
      simp only [cellDataType, reduceCtorEq, false_and, or_false] at own
      subst own
      obtain rfl | ⟨_, h | h⟩ := read
      · rw [elementOf_value cv _ _ _ (by decide) rfl]
        exact ⟨rfl, rfl⟩
      · cases h
      · cases h

/-- A fetch of one column, with all that is promised of it: it returns one element per row, read
from that row's cell and missing at every NULL, and if no conflict of types is warned of, every
other element is the value of its cell. -/
def ColumnExact (fuel : Nat) (dt : DataType) (nMax : Int) (cells : List SqlValue) : Prop :=
  ∃ (c : DbColumn CInt) (x : Sexp),
    (DbColumn.create dt nMax source).fetchColumn cv fuel cells = .ok (c, x) ∧
    x.length = cells.length ∧
    ∀ (k : Nat) (cell : SqlValue), cells[k]? = some cell →
      ∃ S v, (typeTrace source (initialType dt) cells)[k]? = some (S, cell) ∧
        x.slots[k]? = some v ∧ v = elementOf cv c.getType S cell ∧
        (cell = .null → v = defaultSlot c.getType ∧ v.isNA x.rclass = true) ∧
        (∀ name, c.warnTypeConflicts name = none → cell ≠ .null →
          holdsValue x.rclass v cell ∧ v.isNA x.rclass = false)

theorem columnExact_of_short (fuel : Nat) (enough : appendFuel ≤ fuel)
    (plain : source.withAltTypes = false) (dt : DataType) (nMax : Int) (cells : List SqlValue)
    (fetchable : ∀ cell ∈ cells, Fetchable cell) (short : cells.length < 2 ^ 31) :
    ColumnExact cv source fuel dt nMax cells := by
  obtain ⟨c, run, type, types⟩ := fetchColumn_eq (I := CInt) cv source fuel enough dt nMax cells
    (reaches_cInt.mpr short)
  refine ⟨c, _, run, fetchedVector_length cv source _ cells, ?_⟩
  intro k cell hk
  obtain ⟨S, row⟩ := typeTrace_row source (initialType dt) cells k cell hk
  have read := List.mem_of_getElem? row
  refine ⟨S, elementOf cv c.getType S cell, row, ?_, rfl, ?_, ?_⟩
  · simp only [fetchedVector, Sexp.withSlots_slots, fetchedSlots, List.getElem?_map, row,
      Option.map_some, type]
  · rintro rfl
    have promotes := promotes_vectorType source _ cells S .null read
    rw [← type] at promotes
    rw [elementOf_null cv c.getType S .null rfl promotes, fetchedVector, ← type]
    exact ⟨rfl, defaultSlot_isNA c.getType⟩
  · intro name silent nonNull
    have value : cell.isNull = false := by
      cases cell <;> first | rfl | exact absurd rfl nonNull
    have noConflict : c.conflicts = ∅ := by
      by_contra conflict
      simp [DbColumn.warnTypeConflicts, conflict] at silent
    have own := getDataType_of_not_alt source cell plain
    have seen : cellDataType cell ∈ c.dataTypesSeen := by
      rw [types, List.mem_toFinset, ← own]
      exact List.mem_map_of_mem (List.mem_of_getElem? hk)
    have typed : cellDataType cell ≠ .unknown := own ▸ source.getDataType_ne_unknown cell value
    have kind := typeTrace_read source _ cells S cell read value
    rw [fetchedVector, ← type]
    rw [← type] at kind
    refine elementOf_holdsValue cv c.getType S cell value
      (fetchable cell (List.mem_of_getElem? hk))
      (conflicts_empty c noConflict _ seen typed (cellDataType_ne_bool cell)) kind ?_
    rintro rfl
    rw [← own]
    exact typeTrace_int source _ cells cell read value

/-- Fetching a column without extended types: the rows are counted by C `int`s, of the data frame
and of each chunk of the column. -/
theorem columnExact_iff (fuel : Nat) (enough : appendFuel ≤ fuel)
    (plain : source.withAltTypes = false) (dt : DataType) (nMax : Int) (cells : List SqlValue)
    (fetchable : ∀ cell ∈ cells, Fetchable cell) :
    ColumnExact cv source fuel dt nMax cells ↔ cells.length < 2 ^ 31 := by
  constructor
  · rintro ⟨c, x, run, _⟩
    exact reaches_cInt.mp (reaches_of_fetchColumn cv fuel _ c cells x run)
  · exact columnExact_of_short cv source fuel enough plain dt nMax cells fetchable

/-- A 32-bit and a 64-bit integer after a NULL, in a column of 64-bit integers. -/
theorem columnExact_iff_promoted :
    ColumnExact noConversions ⟨none, false⟩ 3 .unknown (-1)
      [.null, .integer 7, .integer 4294967296] :=
  (columnExact_iff noConversions ⟨none, false⟩ 3 (by decide) rfl .unknown (-1)
    [.null, .integer 7, .integer 4294967296] (by decide)).mpr (by decide)

/-- The NULLs behind a number are only counted once the chunk is full, until its counter
overflows. -/
theorem columnExact_overflow :
    ¬ ColumnExact noConversions ⟨none, false⟩ 3 .unknown (-1)
      (.integer 1 :: List.replicate (2 ^ 31 - 1) .null ++ [.integer 2]) := by
  rintro ⟨c, x, run, _⟩
  have short := reaches_cInt.mp (reaches_of_fetchColumn noConversions 3 _ c _ x run)
  rw [List.length_append, List.length_cons, List.length_replicate] at short
  omega

end RSQLite
