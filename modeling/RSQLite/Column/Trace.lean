import RSQLite.Column.Column

/-!
What a result column is for, without chunks. Every cell moves the type of the
column on, and the R vector holds, in row order, one element per cell: the value
read under the type current at that row, promoted to the final type.
-/
namespace RSQLite

open DbColumnStorage

variable (cv : Conversions) (source : SqliteColumnDataSource)

def nextType (T : DataType) (cell : SqlValue) : DataType :=
  if cell.isNull then T
  else if T = .unknown then source.getDataType cell
  else if T = .int ∧ (source.getDataType cell = .int64 ∨ source.getDataType cell = .real) then
    source.getDataType cell
  else T

/-- Each cell with the column type that reads it. -/
def typeTrace : DataType → List SqlValue → List (DataType × SqlValue)
  | _, [] => []
  | T, cell :: rest =>
      (nextType source T cell, cell) :: typeTrace (nextType source T cell) rest

def finalType (T : DataType) (cells : List SqlValue) : DataType :=
  cells.foldl (nextType source) T

/-- The type of the returned vector: a column without values has its declared type. -/
def vectorType (T : DataType) (cells : List SqlValue) : DataType :=
  if finalType source T cells = .unknown then source.getDeclDataType
  else finalType source T cells

/-- The slot written for a cell while the column has type `T`. -/
def slotOf (T : DataType) (cell : SqlValue) : Slot :=
  if cell.isNull then defaultSlot T else (fetchSlot cv T cell).1

def promoteSlot : DataType → Slot → Slot
  | .int64, .integer v => .word (if v = naInteger then naInteger64 else v.toInt64).toBitVec
  | .real, .integer v => .word (if v = naInteger then naReal else Binary64.ofInt v.toInt).bits
  | _, v => v

/-- The element of a vector of type `dt` for a cell read under type `T`. -/
def elementOf (dt T : DataType) (cell : SqlValue) : Slot :=
  if T = .unknown then defaultSlot dt else promoteSlot dt (slotOf cv T cell)

/-- The conversions that `copy_value` is asked for. -/
def Promotes (T dt : DataType) : Prop :=
  T = .unknown ∨ T = dt ∨ T = .int ∧ (dt = .int64 ∨ dt = .real)

theorem promotes_refl (T : DataType) : Promotes T T := Or.inr (Or.inl rfl)

theorem promotes_trans {S T U : DataType} (h : Promotes S T) (h' : Promotes T U) :
    Promotes S U := by
  obtain rfl | rfl | ⟨rfl, rfl | rfl⟩ := h
  · exact Or.inl rfl
  · exact h'
  · obtain h' | rfl | ⟨h', _⟩ := h'
    · cases h'
    · exact Or.inr (Or.inr ⟨rfl, Or.inl rfl⟩)
    · cases h'
  · obtain h' | rfl | ⟨h', _⟩ := h'
    · cases h'
    · exact Or.inr (Or.inr ⟨rfl, Or.inr rfl⟩)
    · cases h'

theorem nextType_null (T : DataType) (cell : SqlValue) (h : cell.isNull = true) :
    nextType source T cell = T := by
  simp only [nextType, h, ite_true]

theorem nextType_value (T : DataType) (cell : SqlValue) (value : cell.isNull = false) :
    nextType source T cell =
      if T = .unknown ∨ T = .int ∧
          (source.getDataType cell = .int64 ∨ source.getDataType cell = .real) then
        source.getDataType cell
      else T := by
  simp only [nextType, value, Bool.false_eq_true, ite_false]
  by_cases hT : T = .unknown <;> simp [hT]

theorem nextType_getDataType (cell : SqlValue) (value : cell.isNull = false) :
    nextType source (source.getDataType cell) cell = source.getDataType cell := by
  rw [nextType_value source _ cell value, ite_self]

theorem nextType_promotes (T : DataType) (cell : SqlValue) :
    Promotes T (nextType source T cell) := by
  simp only [nextType]
  split
  · exact promotes_refl T
  · split
    · next hT => exact Or.inl hT
    · split
      · next h => exact Or.inr (Or.inr h)
      · exact promotes_refl T

theorem nextType_ne_unknown (T : DataType) (cell : SqlValue) (h : cell.isNull = false) :
    nextType source T cell ≠ .unknown := by
  have typed := source.getDataType_ne_unknown cell h
  simp only [nextType, h, Bool.false_eq_true, ite_false]
  split
  · exact typed
  · split
    · exact typed
    · next hT _ => exact hT

@[simp] theorem typeTrace_nil (T : DataType) : typeTrace source T [] = [] := rfl

@[simp] theorem typeTrace_length (T : DataType) (cells : List SqlValue) :
    (typeTrace source T cells).length = cells.length := by
  induction cells generalizing T with
  | nil => rfl
  | cons cell rest ih => simp only [typeTrace, List.length_cons, ih]

theorem typeTrace_cells (T : DataType) (cells : List SqlValue) :
    (typeTrace source T cells).map Prod.snd = cells := by
  induction cells generalizing T with
  | nil => rfl
  | cons cell rest ih => simp only [typeTrace, List.map_cons, ih]

/-- Row `k` of the trace is cell `k` under some type. -/
theorem typeTrace_row (T : DataType) (cells : List SqlValue) (k : Nat) (cell : SqlValue)
    (h : cells[k]? = some cell) : ∃ S, (typeTrace source T cells)[k]? = some (S, cell) := by
  rw [← typeTrace_cells source T cells, List.getElem?_map, Option.map_eq_some_iff] at h
  obtain ⟨⟨S, _⟩, row, rfl⟩ := h
  exact ⟨S, row⟩

theorem finalType_append (T : DataType) (cells : List SqlValue) (cell : SqlValue) :
    finalType source T (cells ++ [cell]) = nextType source (finalType source T cells) cell := by
  simp only [finalType, List.foldl_append, List.foldl_cons, List.foldl_nil]

theorem typeTrace_append (T : DataType) (cells : List SqlValue) (cell : SqlValue) :
    typeTrace source T (cells ++ [cell]) = typeTrace source T cells ++
      [(nextType source (finalType source T cells) cell, cell)] := by
  induction cells generalizing T with
  | nil => rfl
  | cons first rest ih =>
      simp only [List.cons_append, typeTrace, ih, finalType, List.foldl_cons]

theorem finalType_promotes (T : DataType) (cells : List SqlValue) :
    Promotes T (finalType source T cells) := by
  induction cells generalizing T with
  | nil => exact promotes_refl T
  | cons cell rest ih => exact promotes_trans (nextType_promotes source T cell) (ih _)

/-- A cell is read under the type that it makes of the one before it, and the cells behind it
go on from there. -/
theorem mem_typeTrace (T : DataType) (cells : List SqlValue) (S : DataType) (cell : SqlValue)
    (h : (S, cell) ∈ typeTrace source T cells) : ∃ before rest,
      nextType source before cell = S ∧ finalType source T cells = finalType source S rest := by
  induction cells generalizing T with
  | nil => cases h
  | cons first rest ih =>
      rcases List.mem_cons.mp h with here | behind
      · obtain ⟨rfl, rfl⟩ := Prod.mk.inj here
        exact ⟨T, rest, rfl, rfl⟩
      · exact ih _ behind

theorem typeTrace_promotes (T : DataType) (cells : List SqlValue) (S : DataType)
    (cell : SqlValue) (h : (S, cell) ∈ typeTrace source T cells) :
    Promotes S (finalType source T cells) := by
  obtain ⟨_, rest, _, final⟩ := mem_typeTrace source T cells S cell h
  rw [final]
  exact finalType_promotes source S rest

theorem typeTrace_ne_unknown (T : DataType) (cells : List SqlValue) (S : DataType)
    (cell : SqlValue) (h : (S, cell) ∈ typeTrace source T cells) (value : cell.isNull = false) :
    S ≠ .unknown := by
  obtain ⟨before, _, rfl, _⟩ := mem_typeTrace source T cells S cell h
  exact nextType_ne_unknown source before cell value

theorem typeTrace_int (T : DataType) (cells : List SqlValue) (cell : SqlValue)
    (h : (DataType.int, cell) ∈ typeTrace source T cells) (value : cell.isNull = false) :
    source.getDataType cell ≠ .int64 ∧ source.getDataType cell ≠ .real := by
  obtain ⟨before, _, htype, _⟩ := mem_typeTrace source T cells .int cell h
  simp only [nextType, value, Bool.false_eq_true, ite_false] at htype
  split at htype
  · simp [htype]
  · split at htype
    · simp [htype]
    · next wide =>
        exact ⟨fun h => wide ⟨htype, Or.inl h⟩, fun h => wide ⟨htype, Or.inr h⟩⟩

theorem promotes_vectorType (T : DataType) (cells : List SqlValue) (S : DataType)
    (cell : SqlValue) (h : (S, cell) ∈ typeTrace source T cells) :
    Promotes S (vectorType source T cells) := by
  have promotes := typeTrace_promotes source T cells S cell h
  simp only [vectorType]
  split
  · next untyped =>
      rw [untyped] at promotes
      obtain h | h | ⟨_, h | h⟩ := promotes
      · exact Or.inl h
      · exact Or.inl h
      · cases h
      · cases h
  · exact promotes

theorem vectorType_ne_unknown (T : DataType) (cells : List SqlValue) :
    vectorType source T cells ≠ .unknown := by
  simp only [vectorType]
  split
  · exact source.getDeclDataType_ne_unknown
  · next typed => exact typed

theorem elementOf_null (dt T : DataType) (cell : SqlValue) (h : cell.isNull = true)
    (promotes : Promotes T dt) : elementOf cv dt T cell = defaultSlot dt := by
  simp only [elementOf, slotOf, h, ite_true]
  obtain rfl | rfl | ⟨rfl, rfl | rfl⟩ := promotes
  · simp only [ite_true]
  · cases T <;> rfl
  · rfl
  · rfl

end RSQLite
