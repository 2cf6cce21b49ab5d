import RSQLite.Column.Warnings

/-!
Columns whose values all have the declared type. NULLs in front of the first value,
and a column without any value, make no difference to what is read.
-/
namespace RSQLite

open DbColumnStorage

variable (cv : Conversions) (source : SqliteColumnDataSource)

/-- Every value of the column has this type. -/
def Uniform (D : DataType) (cells : List SqlValue) : Prop :=
  ∀ cell ∈ cells, cell.isNull = false → source.getDataType cell = D

/-- The types that such a column goes through. -/
def Approaches (D T : DataType) : Prop := T = .unknown ∨ T = D

variable {source}

theorem uniform_cons {D : DataType} {cell : SqlValue} {rest : List SqlValue} :
    Uniform source D (cell :: rest) ↔
      (cell.isNull = false → source.getDataType cell = D) ∧ Uniform source D rest :=
  List.forall_mem_cons

theorem Uniform.left {D : DataType} {before after : List SqlValue}
    (uniform : Uniform source D (before ++ after)) : Uniform source D before :=
  fun cell member => uniform cell (List.mem_append_left after member)

theorem nextType_approaches {D T : DataType} {cell : SqlValue} (approaches : Approaches D T)
    (own : cell.isNull = false → source.getDataType cell = D) :
    Approaches D (nextType source T cell) := by
  cases value : cell.isNull with
  | true => rwa [nextType_null source T cell value]
  | false =>
      rw [← own value] at approaches ⊢
      cases approaches with
      | inl untyped =>
          apply Or.inr
          simp only [nextType, value, untyped, Bool.false_eq_true, ite_false, ite_true]
      | inr same =>
          subst same
          exact Or.inr (nextType_getDataType source cell value)

theorem finalType_approaches {D : DataType} {cells : List SqlValue}
    (uniform : Uniform source D cells) :
    ∀ T, Approaches D T → Approaches D (finalType source T cells) := by
  induction cells with
  | nil => exact fun _ approaches => approaches
  | cons cell rest ih =>
      intro T approaches
      obtain ⟨own, others⟩ := uniform_cons.mp uniform
      exact ih others _ (nextType_approaches approaches own)

theorem typeTrace_approaches {D : DataType} {cells : List SqlValue}
    (uniform : Uniform source D cells) :
    ∀ T, Approaches D T → ∀ read ∈ typeTrace source T cells, Approaches D read.1 := by
  induction cells with
  | nil =>
      intro T _ read member
      cases member
  | cons cell rest ih =>
      intro T approaches
      obtain ⟨own, others⟩ := uniform_cons.mp uniform
      have next := nextType_approaches approaches own
      exact List.forall_mem_cons.mpr ⟨next, ih others _ next⟩

section Declared

variable {D : DataType} {cells : List SqlValue}

theorem vectorType_uniform (uniform : Uniform source D cells)
    (declared : source.getDeclDataType = D) : vectorType source .unknown cells = D := by
  rw [vectorType]
  split
  · exact declared
  · next typed => exact (finalType_approaches uniform _ (Or.inl rfl)).resolve_left typed

theorem elementOf_uniform (declared : source.getDeclDataType = D) {S : DataType}
    {cell : SqlValue} (approaches : Approaches D S)
    (typed : cell.isNull = false → S ≠ .unknown) :
    elementOf cv D S cell = slotOf cv D cell := by
  have known : D ≠ .unknown := declared ▸ source.getDeclDataType_ne_unknown
  cases approaches with
  | inl untyped =>
      have null : cell.isNull = true := by
        by_contra value
        exact typed (Bool.eq_false_iff.mpr value) untyped
      rw [elementOf_null cv D S cell null (Or.inl untyped), slotOf, if_pos null]
  | inr same =>
      subst same
      rw [elementOf, if_neg known, promoteSlot_self _ _ (slotOf_type cv S cell known)]

theorem fetchedVector_uniform (uniform : Uniform source D cells)
    (declared : source.getDeclDataType = D) : fetchedVector cv source .unknown cells =
      (allocate cells.length D).withSlots (cells.map (slotOf cv D)) := by
  have type := vectorType_uniform uniform declared
  have slots : fetchedSlots cv source .unknown cells = cells.map (slotOf cv D) := by
    rw [fetchedSlots, type]
    calc (typeTrace source .unknown cells).map (fun read => elementOf cv D read.1 read.2)
        = (typeTrace source .unknown cells).map (fun read => slotOf cv D read.2) := by
          apply List.map_congr_left
          intro read member
          apply elementOf_uniform cv declared
          · exact typeTrace_approaches uniform _ (Or.inl rfl) read member
          · exact typeTrace_ne_unknown source _ cells read.1 read.2 member
      _ = ((typeTrace source .unknown cells).map Prod.snd).map (slotOf cv D) := by
          rw [List.map_map]
          rfl
      _ = cells.map (slotOf cv D) := by
          rw [typeTrace_cells]
  rw [fetchedVector, type, slots]

/-- Only the declared type has been seen, so nothing conflicts with it. -/
theorem readColumn_uniform (uniform : Uniform source D cells)
    (declared : source.getDeclDataType = D) (plain : source.withAltTypes = false)
    (name : String) : (readColumn source .unknown cells).warnTypeConflicts name = none := by
  have type : (readColumn source .unknown cells).getType = D :=
    vectorType_uniform uniform declared
  have none : (readColumn source .unknown cells).conflicts = ∅ := by
    apply Finset.eq_empty_of_forall_notMem
    intro seen member
    obtain ⟨own, _, typed, seen⟩ : seen ≠ D ∧ seen ≠ .bool ∧ seen ≠ .unknown ∧
        seen ∈ (readColumn source .unknown cells).dataTypesSeen := by
      rw [DbColumn.conflicts, type] at member
      simp only [Finset.mem_erase] at member
      refine ⟨member.1, member.2.1, member.2.2.1, ?_⟩
      have kept := member.2.2.2
      split at kept
      · exact Finset.mem_of_mem_erase kept
      · exact Finset.mem_of_mem_erase kept
      · exact kept
    obtain ⟨cell, there, rfl⟩ := List.mem_map.mp (List.mem_toFinset.mp seen)
    cases value : cell.isNull with
    | true =>
        cases cell with
        | null => exact typed (source.getDataType_of_not_alt .null plain)
        | integer _ | real _ | text _ | blob _ => cases value
    | false => exact own (uniform cell there value)
  rw [DbColumn.warnTypeConflicts, none, if_pos rfl]

end Declared

def Unwarned (D : DataType) : Prop := ∀ cell, (fetchSlot cv D cell).2 = []

theorem cellWarnings_unwarned {D T : DataType} (unwarned : Unwarned cv D)
    (approaches : Approaches D T) (cell : SqlValue) : cellWarnings cv T cell = [] := by
  rw [cellWarnings]
  split
  · rfl
  · cases approaches with
    | inl untyped =>
        subst untyped
        rfl
    | inr same =>
        subst same
        exact unwarned cell

end RSQLite
