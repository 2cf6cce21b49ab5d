import RSQLite.R.Vector

/-!
The vectors that R passes as parameters, and the value that one element of such
a vector is bound to. Reading an element that does not exist is a fault.
-/
namespace RSQLite

inductive RObject
  | null
  | raw (bytes : Bytes)
  | other (type : String)
deriving DecidableEq, Repr

inductive RVector
  | lgl (values : List Int32)
  | int (values : List Int32)
  | integer64 (values : List Int64)
  | dbl (values : List Binary64)
  | str (values : List (Option Bytes))
  | list (values : List RObject)
  | other (type : String) (length : Nat)
deriving DecidableEq, Repr

namespace RVector

def length : RVector → Nat
  | lgl values | int values => values.length
  | integer64 values => values.length
  | dbl values => values.length
  | str values => values.length
  | list values => values.length
  | other _ length => length

def read {α : Type} (values : List α) (group : Nat) : Outcome α :=
  match values[group]? with
  | some v => .ok v
  | none => .error .outOfBounds

def boundInteger (v : Int32) : SqlValue :=
  if v = naInteger then .null else .integer v.toInt64

/-- `sqlite3_bind_double()` stores a NaN as NULL. The comparison with `NA_REAL`
that comes before it is false for every double. -/
def boundDouble (v : Binary64) : SqlValue :=
  if h : v.isNaN = false then .real ⟨v, h⟩ else .null

def cannotBindList : String := "Can only bind lists of raw vectors (or NULL)"

def unknownParameterType (type : String) : String :=
  "Don't know how to handle parameter of type " ++ type ++ "."

/-- What `bind_parameter_pos()` binds for one element of a parameter. -/
def boundValue (v : RVector) (group : Nat) : Outcome SqlValue :=
  match v with
  | lgl values | int values => boundInteger <$> read values group
  | integer64 values =>
      (fun i => if i = naInteger64 then .null else .integer i) <$> read values group
  | dbl values => boundDouble <$> read values group
  | str values =>
      (fun s => match s with
        | none => .null
        | some bytes => .text (cString bytes)) <$> read values group
  | list values => do
      match ← read values group with
      | .null => .ok .null
      | .raw bytes => .ok (.blob bytes)
      | .other _ => .error (.stop cannotBindList)
  | other type _ => .error (.stop (unknownParameterType type))

theorem boundValue_inBounds (v : RVector) (group : Nat) (h : group < v.length) :
    v.boundValue group ≠ .error .outOfBounds := by
  have inside : ∀ {α : Type} (values : List α), group < values.length →
      ∃ x, read values group = .ok x := by
    intro α values h
    exact ⟨values[group], by simp [read, h]⟩
  cases v with
  | lgl values | int values =>
      obtain ⟨x, hx⟩ := inside values h
      simp [boundValue, hx, Functor.map, Except.map]
  | integer64 values =>
      obtain ⟨x, hx⟩ := inside values h
      simp [boundValue, hx, Functor.map, Except.map]
  | dbl values =>
      obtain ⟨x, hx⟩ := inside values h
      simp [boundValue, hx, Functor.map, Except.map]
  | str values =>
      obtain ⟨x, hx⟩ := inside values h
      simp [boundValue, hx, Functor.map, Except.map]
  | list values =>
      obtain ⟨x, hx⟩ := inside values h
      cases x <;> simp [boundValue, hx, bind, Except.bind]
  | other type length => simp [boundValue]

end RVector

/-- One row of parameters: the element at `group` of each of them. -/
def paramRow (params : List RVector) (group : Nat) : Outcome (List SqlValue) :=
  params.mapM (fun v => v.boundValue group)

/-- An element of a parameter list, or a column of a data frame. Strings are in an
encoding of their own until they are bound; a factor is an integer vector with levels. -/
inductive Parameter (χ : Type)
  | character (values : List (Option χ))
  | factor (levels : List χ) (codes : List (Option (Fin levels.length)))
  | raw (bytes : Bytes)
  | vector (v : RVector)

namespace Parameter

variable {χ : Type}

def length : Parameter χ → Nat
  | character values => values.length
  | factor _ codes => codes.length
  | raw bytes => bytes.length
  | vector v => v.length

def isFactor : Parameter χ → Bool
  | factor _ _ => true
  | character _ | raw _ | vector _ => false

/-- `as.character()` of a factor. -/
def factorToString : Parameter χ → Parameter χ
  | factor levels codes => character (codes.map (Option.map levels.get))
  | character values => character values
  | raw bytes => raw bytes
  | vector v => vector v

def stringToUtf8 (enc2utf8 : χ → Bytes) : Parameter χ → RVector
  | character values => .str (values.map (Option.map enc2utf8))
  | factor _ codes => .int (codes.map (fun code => match code with
      | none => naInteger
      | some i => Int32.ofNat (i + 1)))
  | raw bytes => .other "raw" bytes.length
  | vector v => v

/-- The vector that is bound for a parameter. -/
def bindable (enc2utf8 : χ → Bytes) (p : Parameter χ) : RVector :=
  p.factorToString.stringToUtf8 enc2utf8

theorem factorToString_length (p : Parameter χ) : p.factorToString.length = p.length := by
  cases p with
  | factor levels codes => exact List.length_map _
  | character _ | raw _ | vector _ => rfl

theorem stringToUtf8_length (enc2utf8 : χ → Bytes) (p : Parameter χ) :
    (p.stringToUtf8 enc2utf8).length = p.length := by
  cases p with
  | character values => exact List.length_map _
  | factor levels codes => exact List.length_map _
  | raw _ | vector _ => rfl

theorem bindable_length (enc2utf8 : χ → Bytes) (p : Parameter χ) :
    (p.bindable enc2utf8).length = p.length := by
  rw [bindable, stringToUtf8_length, factorToString_length]

end Parameter

end RSQLite
