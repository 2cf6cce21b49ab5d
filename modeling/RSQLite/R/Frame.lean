import RSQLite.R.Parameter

/-!
A data frame that is written to a table, and the conversions of `sql_data()`.
-/
namespace RSQLite

/-- A column, with its class attribute where it is not that of a factor. -/
structure FrameColumn (χ : Type) where
  name : String
  value : Parameter χ
  classes : List String := []

structure Frame (χ : Type) where
  columns : List (FrameColumn χ)
  nrow : Nat
  lengths : ∀ column ∈ columns, column.value.length = nrow

/-- How strings are converted, and printed bytes. -/
structure Strings (χ : Type) where
  enc2utf8 : χ → χ
  bytes : χ → Bytes
  hex : UInt8 → χ
  tolower : String → String

namespace Parameter

variable {χ : Type} (strings : Strings χ)

def rawToString : Parameter χ → Parameter χ
  | raw bytes => character (bytes.map (fun b => some (strings.hex b)))
  | character values => character values
  | factor levels codes => factor levels codes
  | vector v => vector v

def toUtf8 : Parameter χ → Parameter χ
  | character values => character (values.map (Option.map strings.enc2utf8))
  | raw bytes => raw bytes
  | factor levels codes => factor levels codes
  | vector v => vector v

/-- The conversions of `sql_data()` of one column. -/
def sqlData (p : Parameter χ) : Parameter χ :=
  (p.factorToString.rawToString strings).toUtf8 strings

theorem sqlData_length (p : Parameter χ) : (p.sqlData strings).length = p.length := by
  cases p with
  | factor levels codes => simp [sqlData, factorToString, rawToString, toUtf8, length]
  | character values => simp [sqlData, factorToString, rawToString, toUtf8, length]
  | raw bytes => simp [sqlData, factorToString, rawToString, toUtf8, length]
  | vector v => rfl

end Parameter

namespace Frame

variable {χ : Type}

def names (value : Frame χ) : List String := value.columns.map FrameColumn.name

/-- The vectors that the columns are bound as. -/
def vectors (strings : Strings χ) (value : Frame χ) : List RVector :=
  value.columns.map (fun column => column.value.bindable strings.bytes)

def sqlData (strings : Strings χ) (value : Frame χ) : Frame χ where
  columns := value.columns.map
    (fun column => { column with value := column.value.sqlData strings })
  nrow := value.nrow
  lengths := by
    intro column member
    obtain ⟨original, there, rfl⟩ := List.mem_map.mp member
    rw [Parameter.sqlData_length]
    exact value.lengths original there

/-- `names(value) <- names`. -/
def withNames (value : Frame χ) (names : List String) : Frame χ where
  columns := List.zipWith (fun column name => { column with name := name }) value.columns names
  nrow := value.nrow
  lengths := by
    intro column member
    rw [← List.map_uncurry_zip_eq_zipWith] at member
    obtain ⟨pair, there, rfl⟩ := List.mem_map.mp member
    exact value.lengths pair.1 (List.of_mem_zip there).1

theorem vectors_length (strings : Strings χ) (value : Frame χ) :
    ∀ v ∈ value.vectors strings, v.length = value.nrow := by
  intro v member
  obtain ⟨column, there, rfl⟩ := List.mem_map.mp member
  rw [Parameter.bindable_length]
  exact value.lengths column there

end Frame

end RSQLite
