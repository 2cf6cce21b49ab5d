import RSQLite.Column.Integers
import RSQLite.Column.Warnings

/-!
What the type that a column starts with decides. Two columns that read the same
cells return the same vector exactly when the first value gives both the same type,
or when one of them reads as INT what the other reads as the wider number that the
first one ends with.
-/
namespace RSQLite

open DbColumnStorage SqliteColumnDataSource

variable (cv : Conversions) (source : SqliteColumnDataSource)

/-- A column of type INT becomes one of the wider type `W`, and every value before
that reads the same under `W`. -/
def Widens (W : DataType) : List SqlValue → Prop
  | [] => False
  | cell :: rest =>
      if cell.isNull then Widens W rest
      else if source.getDataType cell = .int64 ∨ source.getDataType cell = .real then
        source.getDataType cell = W
      else promoteSlot W (fetchSlot cv .int cell).1 = (fetchSlot cv W cell).1 ∧ Widens W rest

instance decidableWidens (W : DataType) : DecidablePred (Widens cv source W)
  | [] => .isFalse id
  | cell :: rest =>
      have := decidableWidens W rest
      inferInstanceAs (Decidable (if cell.isNull then Widens cv source W rest
        else if source.getDataType cell = .int64 ∨ source.getDataType cell = .real then
          source.getDataType cell = W
        else promoteSlot W (fetchSlot cv .int cell).1 = (fetchSlot cv W cell).1 ∧
          Widens cv source W rest))

/-- Columns that start with the types `T` and `U` read the cells alike. NULLs are the
same to both; without any value the columns have the types they started with. -/
def StartsAlike (T U : DataType) : List SqlValue → Prop
  | [] => vectorType source T [] = vectorType source U []
  | cell :: rest =>
      if cell.isNull then StartsAlike T U rest
      else nextType source T cell = nextType source U cell ∨
        nextType source T cell = .int ∧
          Widens cv source (nextType source U cell) (cell :: rest) ∨
        nextType source U cell = .int ∧
          Widens cv source (nextType source T cell) (cell :: rest)

instance decidableStartsAlike (T U : DataType) : DecidablePred (StartsAlike cv source T U)
  | [] => inferInstanceAs (Decidable (vectorType source T [] = vectorType source U []))
  | cell :: rest =>
      have := decidableStartsAlike T U rest
      inferInstanceAs (Decidable (if cell.isNull then StartsAlike cv source T U rest
        else nextType source T cell = nextType source U cell ∨
          nextType source T cell = .int ∧
            Widens cv source (nextType source U cell) (cell :: rest) ∨
          nextType source U cell = .int ∧
            Widens cv source (nextType source T cell) (cell :: rest)))

/-- The elements of a vector of type `dt` in which the cells are read from type `T` on. -/
def elementsFrom (dt T : DataType) (cells : List SqlValue) : List Slot :=
  (typeTrace source T cells).map (fun read => elementOf cv dt read.1 read.2)

@[simp] theorem elementsFrom_cons (dt T : DataType) (cell : SqlValue) (rest : List SqlValue) :
    elementsFrom cv source dt T (cell :: rest) =
      elementOf cv dt (nextType source T cell) cell ::
        elementsFrom cv source dt (nextType source T cell) rest := rfl

theorem allocate_inj (n : Nat) (T U : DataType) (same : allocate n T = allocate n U) : T = U := by
  have type : sexptypeFromDatatype T = sexptypeFromDatatype U := congrArg Sexp.type same
  have rclass : classFromDatatype T = classFromDatatype U := congrArg Sexp.rclass same
  have tzone : tzoneFromDatatype T = tzoneFromDatatype U := congrArg Sexp.tzone same
  cases T <;> cases U <;>
    first | rfl | exact absurd type (by decide) | exact absurd rclass (by decide) |
      exact absurd tzone (by decide)

theorem fetchedVector_eq_iff (T U : DataType) (cells : List SqlValue) :
    fetchedVector cv source T cells = fetchedVector cv source U cells ↔
      vectorType source T cells = vectorType source U cells ∧
        elementsFrom cv source (vectorType source T cells) T cells =
          elementsFrom cv source (vectorType source U cells) U cells := by
  constructor
  · intro same
    have slots : (fetchedVector cv source T cells).slots =
        (fetchedVector cv source U cells).slots :=
      congrArg Sexp.slots same
    refine ⟨allocate_inj 0 _ _ ?_, slots⟩
    have type : sexptypeFromDatatype (vectorType source T cells) =
        sexptypeFromDatatype (vectorType source U cells) := congrArg Sexp.type same
    have rclass : classFromDatatype (vectorType source T cells) =
        classFromDatatype (vectorType source U cells) := congrArg Sexp.rclass same
    have tzone : tzoneFromDatatype (vectorType source T cells) =
        tzoneFromDatatype (vectorType source U cells) := congrArg Sexp.tzone same
    simp only [allocate, type, rclass, tzone]
  · rintro ⟨type, slots⟩
    rw [fetchedVector, fetchedVector]
    rw [show fetchedSlots cv source T cells = fetchedSlots cv source U cells from slots, type]

theorem vectorType_cons (T : DataType) (cell : SqlValue) (rest : List SqlValue) :
    vectorType source T (cell :: rest) = vectorType source (nextType source T cell) rest := rfl

theorem vectorType_typed (T : DataType) (cells : List SqlValue) (typed : T ≠ .unknown) :
    vectorType source T cells = finalType source T cells := by
  have promotes := finalType_promotes source T cells
  rw [vectorType, if_neg]
  intro untyped
  rw [untyped] at promotes
  obtain h | h | ⟨_, h | h⟩ := promotes
  · exact typed h
  · exact typed h
  · cases h
  · cases h

theorem Widens.wide {W : DataType} {cells : List SqlValue} (widens : Widens cv source W cells) :
    W = .int64 ∨ W = .real := by
  induction cells with
  | nil => exact widens.elim
  | cons cell rest ih =>
      rw [Widens] at widens
      split at widens
      · exact ih widens
      · split at widens
        · next wide => rwa [widens] at wide
        · exact ih widens.2

/-- A column that starts with INT returns the vector of one that starts with `W`. -/
theorem widens_iff (W : DataType) (cells : List SqlValue) (typed : W ≠ .unknown)
    (notInt : W ≠ .int) :
    vectorType source .int cells = W ∧
        elementsFrom cv source W .int cells = elementsFrom cv source W W cells ↔
      Widens cv source W cells := by
  induction cells with
  | nil =>
      refine iff_of_false ?_ id
      rintro ⟨type, _⟩
      exact notInt type.symm
  | cons cell rest ih =>
      have settled := nextType_settled source W cell typed notInt
      rw [Widens, vectorType_cons, elementsFrom_cons, elementsFrom_cons, settled]
      cases value : cell.isNull with
      | true =>
          rw [nextType_null source .int cell value, if_pos rfl, ← ih]
          refine and_congr_right (fun type => ?_)
          have promotes := finalType_promotes source .int rest
          rw [← vectorType_typed source .int rest (by decide), type] at promotes
          rw [elementOf_null cv W .int cell value promotes,
            elementOf_null cv W W cell value (promotes_refl W)]
          exact List.cons_inj_right _
      | false =>
          rw [if_neg Bool.false_ne_true, nextType_value source .int cell value]
          by_cases wide : source.getDataType cell = .int64 ∨ source.getDataType cell = .real
          · rw [if_pos (Or.inr ⟨rfl, wide⟩), if_pos wide]
            have own : source.getDataType cell ≠ .int := by
              obtain h | h := wide <;> rw [h] <;> decide
            have unchanged := vectorType_settled source (source.getDataType cell) rest
              (source.getDataType_ne_unknown cell value) own
            rw [unchanged]
            refine and_iff_left_of_imp (fun same => ?_)
            rw [same]
          · rw [if_neg (by simp [wide]), if_neg wide, ← ih,
              elementOf_value cv W .int cell (by decide) value,
              elementOf_value cv W W cell typed value,
              promoteSlot_self W _ (fetchSlot_type cv W cell typed), List.cons.injEq]
            exact and_left_comm

theorem nextType_nextType (T : DataType) (cell : SqlValue) :
    nextType source (nextType source T cell) cell = nextType source T cell := by
  cases value : cell.isNull with
  | true => rw [nextType_null source _ cell value]
  | false =>
      rw [nextType_value source T cell value]
      split
      · exact nextType_getDataType source cell value
      · next narrow => rw [nextType_value source T cell value, if_neg narrow]

theorem promotes_vectorType_self (T : DataType) (cells : List SqlValue) :
    Promotes T (vectorType source T cells) := by
  by_cases typed : T = .unknown
  · exact Or.inl typed
  · rw [vectorType_typed source T cells typed]
    exact finalType_promotes source T cells

theorem startsInt_iff (T U : DataType) (cell : SqlValue) (rest : List SqlValue)
    (int : nextType source T cell = .int) (typed : nextType source U cell ≠ .unknown)
    (notInt : nextType source U cell ≠ .int) :
    fetchedVector cv source T (cell :: rest) = fetchedVector cv source U (cell :: rest) ↔
      Widens cv source (nextType source U cell) (cell :: rest) := by
  have again := nextType_nextType source T cell
  rw [int] at again
  have settled := vectorType_settled source (nextType source U cell) rest typed notInt
  rw [← widens_iff cv source _ _ typed notInt, fetchedVector_eq_iff]
  simp only [vectorType_cons, elementsFrom_cons, int, again, nextType_nextType, settled]
  refine and_congr_right (fun type => ?_)
  rw [type]

/-- Exactly when the type that a column starts with makes no difference. -/
theorem startsAlike_iff (T U : DataType) (cells : List SqlValue) :
    fetchedVector cv source T cells = fetchedVector cv source U cells ↔
      StartsAlike cv source T U cells := by
  induction cells with
  | nil =>
      rw [fetchedVector_eq_iff]
      exact and_iff_left rfl
  | cons cell rest ih =>
      rw [StartsAlike]
      cases value : cell.isNull with
      | true =>
          rw [if_pos rfl, ← ih, fetchedVector_eq_iff, fetchedVector_eq_iff]
          simp only [vectorType_cons, elementsFrom_cons, nextType_null source _ cell value]
          refine and_congr_right (fun type => ?_)
          rw [elementOf_null cv _ T cell value (promotes_vectorType_self source T rest),
            elementOf_null cv _ U cell value (promotes_vectorType_self source U rest), type]
          exact List.cons_inj_right _
      | false =>
          have typedT := nextType_ne_unknown source T cell value
          have typedU := nextType_ne_unknown source U cell value
          rw [if_neg Bool.false_ne_true]
          by_cases same : nextType source T cell = nextType source U cell
          · refine iff_of_true ?_ (Or.inl same)
            simp only [fetchedVector_eq_iff, vectorType_cons, elementsFrom_cons, same, and_self]
          · by_cases intT : nextType source T cell = .int
            · have intU : nextType source U cell ≠ .int := fun h => same (intT.trans h.symm)
              rw [startsInt_iff cv source T U cell rest intT typedU intU]
              simp only [intT, Ne.symm intU, intU, true_and, false_and, or_false, false_or]
            · by_cases intU : nextType source U cell = .int
              · rw [eq_comm, startsInt_iff cv source U T cell rest intU typedT intT]
                simp only [intT, intU, true_and, false_and, false_or]
              · refine iff_of_false ?_ (by simp only [same, intT, intU, false_and, or_self,
                  not_false_eq_true])
                rw [fetchedVector_eq_iff, vectorType_cons, vectorType_cons,
                  vectorType_settled source _ rest typedT intT,
                  vectorType_settled source _ rest typedU intU]
                exact fun h => same h.1

theorem cellWarnings_promoted (T : DataType) (cell : SqlValue)
    (h : T = .int ∨ T = .int64 ∨ T = .real) : cellWarnings cv T cell = [] := by
  rw [cellWarnings]
  obtain rfl | rfl | rfl := h <;> exact ite_self _

theorem finalType_promoted (T : DataType) (cells : List SqlValue)
    (h : T = .int ∨ T = .int64 ∨ T = .real) :
    finalType source T cells = .int ∨ finalType source T cells = .int64 ∨
      finalType source T cells = .real := by
  obtain untyped | same | ⟨_, wide⟩ := finalType_promotes source T cells
  · rw [untyped] at h
    simp at h
  · rwa [← same]
  · exact Or.inr wide

/-- Columns that read the cells alike raise the same warnings for each of them. -/
theorem startsAlike_warnings (T U : DataType) (before : List SqlValue) (cell : SqlValue)
    (after : List SqlValue) (alike : StartsAlike cv source T U (before ++ cell :: after)) :
    cellWarnings cv (finalType source T (before ++ [cell])) cell =
      cellWarnings cv (finalType source U (before ++ [cell])) cell := by
  -- both columns stay among the numbers from the first value on
  have promoted : ∀ (first : SqlValue) (cells : List SqlValue) (S W : DataType),
      nextType source S first = .int → Widens cv source (nextType source W first) cells →
      ∀ rest, cellWarnings cv (finalType source S (first :: rest)) cell = [] ∧
        cellWarnings cv (finalType source W (first :: rest)) cell = [] := by
    intro first cells S W int widens rest
    have wide := Widens.wide cv source widens
    exact ⟨cellWarnings_promoted cv _ cell (finalType_promoted source _ rest (Or.inl int)),
      cellWarnings_promoted cv _ cell (finalType_promoted source _ rest (Or.inr wide))⟩
  induction before with
  | nil =>
      rw [List.nil_append, StartsAlike] at alike
      cases value : cell.isNull with
      | true => rw [cellWarnings_null cv _ cell value, cellWarnings_null cv _ cell value]
      | false =>
          rw [value, if_neg Bool.false_ne_true] at alike
          obtain same | ⟨int, widens⟩ | ⟨int, widens⟩ := alike
          · exact congrArg (cellWarnings cv · cell) same
          · obtain ⟨left, right⟩ := promoted cell _ T U int widens []
            exact left.trans right.symm
          · obtain ⟨left, right⟩ := promoted cell _ U T int widens []
            exact right.trans left.symm
  | cons first rest ih =>
      rw [List.cons_append, StartsAlike] at alike
      cases value : first.isNull with
      | true =>
          rw [value, if_pos rfl] at alike
          simp only [List.cons_append, finalType, List.foldl_cons,
            nextType_null source _ first value]
          exact ih alike
      | false =>
          rw [value, if_neg Bool.false_ne_true] at alike
          obtain same | ⟨int, widens⟩ | ⟨int, widens⟩ := alike
          · simp only [List.cons_append, finalType, List.foldl_cons, same]
          · obtain ⟨left, right⟩ := promoted first _ T U int widens (rest ++ [cell])
            exact left.trans right.symm
          · obtain ⟨left, right⟩ := promoted first _ U T int widens (rest ++ [cell])
            exact right.trans left.symm

end RSQLite
