import RSQLite.Column.Affinity
import RSQLite.Column.Exact
import RSQLite.Column.Uniform
import RSQLite.R.Table
import RSQLite.Result.Bind

/-!
The R vectors that a column declared with their own data type gives back, and what each
of their elements is stored as.
-/
namespace RSQLite

open DbColumnStorage

namespace RObject

def bytes? : RObject → Option Bytes
  | raw bytes => some bytes
  | null | other _ => none

/-- What an element of a list is bound as. -/
def bound : RObject → SqlValue
  | raw bytes => .blob bytes
  | null | other _ => .null

end RObject

namespace RVector

/-- The vectors that a plain column keeps: strings without NUL, lists of raw vectors and
NULLs, and any logical, integer or double vector. -/
def Storable : RVector → Prop
  | lgl _ | int _ | dbl _ => True
  | str values => ∀ bytes, some bytes ∈ values → 0 ∉ bytes
  | list values => ∀ type, RObject.other type ∉ values
  | integer64 _ | other _ _ => False

/-- What an element of a character vector is bound as. -/
def boundString : Option Bytes → SqlValue
  | none => .null
  | some bytes => .text (cString bytes)

/-- `is.na()` of each element, or whether it is NULL in a list. -/
def isNA : RVector → List Bool
  | lgl values | int values => values.map (· == naInteger)
  | integer64 values => values.map (· == naInteger64)
  | dbl values => values.map Binary64.isNaN
  | str values => values.map Option.isNone
  | list values => values.map (· == .null)
  | other _ length => List.replicate length false

/-- The vector that is read back: logicals are integers, and a list is a `blob`. Every
missing double is `NA_real_`. -/
def readBack : RVector → Sexp
  | lgl values | int values => { type := .intsxp, slots := values.map .integer }
  | dbl values =>
      { type := .realsxp
        slots := values.map (fun v => .word (if v.isNaN then naReal else v).bits) }
  | str values => { type := .strsxp, slots := values.map .string }
  | list values =>
      { type := .vecsxp
        slots := values.map (fun x => .raw x.bytes?)
        rclass := ["blob", "vctrs_list_of", "vctrs_vctr", "list"] }
  | integer64 _ | other _ _ => { type := .nilsxp, slots := [] }

theorem readBack_isNA (v : RVector) (storable : v.Storable) :
    v.readBack.slots.map (Slot.isNA v.readBack.rclass) = v.isNA := by
  cases v with
  | lgl values | int values | str values =>
      simp only [readBack, isNA, List.map_map]
      rfl
  | dbl values =>
      simp only [readBack, isNA, List.map_map]
      apply List.map_congr_left
      intro v _
      cases nan : v.isNaN with
      | true => simp only [Function.comp_apply, nan, ite_true]; decide
      | false => simp [Slot.isNA, nan]
  | list values =>
      simp only [readBack, isNA, List.map_map]
      apply List.map_congr_left
      intro x member
      cases x with
      | null | raw bytes => rfl
      | other type => exact absurd member (storable type)
  | integer64 values | other type length => cases storable

end RVector

/-- SQLite changes neither a NULL nor a value of the storage class that goes with the
affinity of its column. -/
structure KeepsMatching (store : Affinity → SqlValue → SqlValue) : Prop where
  null : ∀ affinity, store affinity .null = .null
  integer : ∀ v, store .integer (.integer v) = .integer v
  real : ∀ r, store .real (.real r) = .real r
  text : ∀ bytes, store .text (.text bytes) = .text bytes
  blob : ∀ bytes, store .blob (.blob bytes) = .blob bytes

variable (cv : Conversions) (store : Affinity → SqlValue → SqlValue)

/-- A vector whose elements are bound to `cells`, and a declared type under which these
cells are stored as they are and read back under the column type `D`. -/
structure StoredAs (v : RVector) (declType : Bytes) (D : DataType) (cells : List SqlValue) :
    Prop where
  rows : paramRows [v] = cells.map (fun cell => .ok [cell])
  stored : cells.map (store (sqlite3AffinityType declType)) = cells
  uniform : Uniform ⟨some declType, false⟩ D cells
  declared : datatypeFromDecltype (some declType) false = D
  unwarned : Unwarned cv D
  readBack : (allocate cells.length D).withSlots (cells.map (slotOf cv D)) = v.readBack

theorem paramRow_single (v : RVector) (k : Nat) (cell : SqlValue)
    (bound : v.boundValue k = .ok cell) : paramRow [v] k = .ok [cell] :=
  (Traverse.mapM_ok_cons _ _ _ _).mpr ⟨cell, [], bound, rfl, rfl⟩

theorem paramRows_single {α : Type} (v : RVector) (values : List α) (bound : α → SqlValue)
    (length : v.length = values.length)
    (binds : ∀ k x, values[k]? = some x → v.boundValue k = .ok (bound x)) :
    paramRows [v] = (values.map bound).map (fun cell => .ok [cell]) := by
  have count : rowCount [v] = values.length := length
  apply List.ext_getElem
  · simp only [paramRows, count, List.length_map, List.length_range']
  · intro k _ inside
    simp only [List.length_map] at inside
    simp only [paramRows, List.getElem_map, List.getElem_range', Nat.zero_add, Nat.one_mul]
    exact paramRow_single v k _ (binds k values[k] (List.getElem?_eq_getElem inside))

/-- What is to be checked of the single elements. -/
structure ElementStoredAs {α : Type} (bound : α → SqlValue) (slot : α → Slot)
    (affinity : Affinity) (D : DataType) (x : α) : Prop where
  stored : store affinity (bound x) = bound x
  own : (bound x).isNull = false → SqliteColumnDataSource.cellDataType (bound x) = D
  slot : slotOf cv D (bound x) = slot x

theorem storedAs_of_elements {α : Type} (v : RVector) (values : List α) (declType : Bytes)
    (D : DataType) (bound : α → SqlValue) (slot : α → Slot) (length : v.length = values.length)
    (binds : ∀ k x, values[k]? = some x → v.boundValue k = .ok (bound x))
    (elements : ∀ x ∈ values,
      ElementStoredAs cv store bound slot (sqlite3AffinityType declType) D x)
    (declared : datatypeFromDecltype (some declType) false = D) (unwarned : Unwarned cv D)
    (readBack : v.readBack = (allocate values.length D).withSlots (values.map slot)) :
    StoredAs cv store v declType D (values.map bound) where
  rows := paramRows_single v values bound length binds
  stored := by
    rw [List.map_map]
    exact List.map_congr_left (fun x member => (elements x member).stored)
  uniform := by
    intro cell member value
    obtain ⟨x, there, rfl⟩ := List.mem_map.mp member
    rw [SqliteColumnDataSource.getDataType_of_not_alt _ _ rfl]
    exact (elements x there).own value
  declared := declared
  unwarned := unwarned
  readBack := by
    rw [readBack, List.length_map, List.map_map]
    exact congrArg _ (List.map_congr_left (fun x member => (elements x member).slot))

theorem read_getElem {α : Type} {values : List α} {k : Nat} {x : α} (h : values[k]? = some x) :
    RVector.read values k = .ok x := by
  rw [RVector.read, h]

variable {store} (keeps : KeepsMatching store)

section Element

variable {α : Type} {bound : α → SqlValue} {slot : α → Slot} {affinity : Affinity}
  {D : DataType} {x : α}

include keeps in
theorem ElementStoredAs.null (missing : bound x = .null) (default : slot x = defaultSlot D) :
    ElementStoredAs cv store bound slot affinity D x := by
  constructor
  · rw [missing, keeps.null]
  · intro value
    rw [missing] at value
    cases value
  · rw [missing, default]
    rfl

theorem ElementStoredAs.value (cell : SqlValue) (present : bound x = cell)
    (kept : store affinity cell = cell) (own : SqliteColumnDataSource.cellDataType cell = D)
    (read : slotOf cv D cell = slot x) : ElementStoredAs cv store bound slot affinity D x := by
  subst present
  exact ⟨kept, fun _ => own, read⟩

end Element

theorem cellDataType_toInt64 (v : Int32) :
    SqliteColumnDataSource.cellDataType (.integer v.toInt64) = .int := by
  have lower := v.le_toInt
  have upper := v.toInt_lt
  have narrow : SqliteColumnDataSource.needs64Bit v.toInt64 = false := by
    simp only [SqliteColumnDataSource.needs64Bit, Int32.toInt_toInt64, Int32.toInt_minValue,
      Int32.toInt_maxValue, Bool.or_eq_false_iff, decide_eq_false_iff_not]
    omega
  rw [SqliteColumnDataSource.cellDataType, narrow, if_neg Bool.false_ne_true]

include keeps

theorem integers_storedAs (v : RVector) (values : List Int32) (length : v.length = values.length)
    (binds : ∀ k x, values[k]? = some x → v.boundValue k = .ok (RVector.boundInteger x))
    (readBack : v.readBack = { type := .intsxp, slots := values.map .integer }) :
    StoredAs cv store v (word "INTEGER") .int (values.map RVector.boundInteger) := by
  have affinity : sqlite3AffinityType (word "INTEGER") = .integer := by decide
  apply storedAs_of_elements cv store v values (word "INTEGER") .int _ Slot.integer length binds
    ?_ (by decide) (fun _ => rfl) readBack
  intro x _
  rw [affinity]
  by_cases missing : x = naInteger
  · have null : RVector.boundInteger x = .null := if_pos missing
    exact ElementStoredAs.null cv keeps null (congrArg Slot.integer missing)
  · have present : RVector.boundInteger x = .integer x.toInt64 := if_neg missing
    apply ElementStoredAs.value cv _ present (keeps.integer _)
    · exact cellDataType_toInt64 x
    · exact congrArg Slot.integer (Int32.toInt32_toInt64 x)

theorem doubles_storedAs (values : List Binary64) :
    StoredAs cv store (.dbl values) (word "REAL") .real (values.map RVector.boundDouble) := by
  have affinity : sqlite3AffinityType (word "REAL") = .real := by decide
  apply storedAs_of_elements cv store (.dbl values) values (word "REAL") .real _
    (fun v => .word (if v.isNaN then naReal else v).bits) rfl ?_ ?_ (by decide) (fun _ => rfl) rfl
  · intro k x there
    rw [RVector.boundValue, read_getElem there]
    rfl
  · intro x _
    rw [affinity]
    cases nan : x.isNaN with
    | true =>
        have null : RVector.boundDouble x = .null := by simp [RVector.boundDouble, nan]
        apply ElementStoredAs.null cv keeps null
        simp only [nan, ite_true]
        rfl
    | false =>
        have present : RVector.boundDouble x = .real ⟨x, nan⟩ := dif_pos nan
        apply ElementStoredAs.value cv _ present (keeps.real _) rfl
        simp only [nan, Bool.false_eq_true, ite_false]
        rfl

theorem strings_storedAs (values : List (Option Bytes))
    (noNul : ∀ bytes, some bytes ∈ values → 0 ∉ bytes) :
    StoredAs cv store (.str values) (word "TEXT") .string (values.map RVector.boundString) := by
  have affinity : sqlite3AffinityType (word "TEXT") = .text := by decide
  apply storedAs_of_elements cv store (.str values) values (word "TEXT") .string _ Slot.string rfl
    ?_ ?_ (by decide) (fun _ => rfl) rfl
  · intro k x there
    rw [RVector.boundValue, read_getElem there]
    cases x with
    | none | some bytes => rfl
  · intro x member
    rw [affinity]
    cases x with
    | none => exact ElementStoredAs.null cv keeps rfl rfl
    | some bytes =>
        have whole := cString_of_no_nul bytes (noNul bytes member)
        apply ElementStoredAs.value cv (.text bytes) ?_ (keeps.text bytes) rfl
        · exact congrArg (fun b => Slot.string (some b)) whole
        · exact congrArg SqlValue.text whole

theorem list_storedAs (values : List RObject) (plain : ∀ type, RObject.other type ∉ values) :
    StoredAs cv store (.list values) (word "BLOB") .blob (values.map RObject.bound) := by
  have affinity : sqlite3AffinityType (word "BLOB") = .blob := by decide
  apply storedAs_of_elements cv store (.list values) values (word "BLOB") .blob _
    (fun x => .raw x.bytes?) rfl ?_ ?_ (by decide) (fun _ => rfl) rfl
  · intro k x there
    rw [RVector.boundValue, read_getElem there]
    cases x with
    | null | raw bytes => rfl
    | other type => exact absurd (List.mem_of_getElem? there) (plain type)
  · intro x member
    rw [affinity]
    cases x with
    | null => exact ElementStoredAs.null cv keeps rfl rfl
    | raw bytes => exact ElementStoredAs.value cv (.blob bytes) rfl (keeps.blob bytes) rfl rfl
    | other type => exact absurd member (plain type)

theorem vector_storedAs (v : RVector) (storable : v.Storable) {χ : Type} (name : String)
    (classes : List String) (type : String)
    (declared : (⟨name, .vector v, classes⟩ : FrameColumn χ).dataType false = .ok type) :
    ∃ D cells, StoredAs cv store v (word type) D cells := by
  cases v with
  | lgl values =>
      cases declared
      refine ⟨_, _, integers_storedAs cv keeps (.lgl values) values rfl ?_ rfl⟩
      intro k x there
      rw [RVector.boundValue, read_getElem there]
      rfl
  | int values =>
      cases declared
      refine ⟨_, _, integers_storedAs cv keeps (.int values) values rfl ?_ rfl⟩
      intro k x there
      rw [RVector.boundValue, read_getElem there]
      rfl
  | dbl values =>
      cases declared
      exact ⟨_, _, doubles_storedAs cv keeps values⟩
  | str values =>
      cases declared
      exact ⟨_, _, strings_storedAs cv keeps values storable⟩
  | list values =>
      cases declared
      exact ⟨_, _, list_storedAs cv keeps values storable⟩
  | integer64 values | other type length => cases storable

/-- The type that `dbDataType()` gives for a column suits the vector that is bound for it. -/
theorem bindable_storedAs {χ : Type} (enc2utf8 : χ → Bytes) (data : FrameColumn χ)
    (type : String) (storable : (data.value.bindable enc2utf8).Storable)
    (declared : data.dataType false = .ok type) :
    ∃ D cells, StoredAs cv store (data.value.bindable enc2utf8) (word type) D cells := by
  obtain ⟨name, value, classes⟩ := data
  cases value with
  | character values =>
      cases declared
      exact ⟨_, _, strings_storedAs cv keeps _ storable⟩
  | factor levels codes =>
      cases declared
      exact ⟨_, _, strings_storedAs cv keeps _ storable⟩
  | raw bytes => cases storable
  | vector v => exact vector_storedAs cv keeps v storable name classes type declared

end RSQLite
