import RSQLite.Column.Affinity
import RSQLite.Column.Warnings

/-!
Columns of dates and times. A connection with extended types gives a column that is declared
with one of the documented types the class of that type, whatever its cells are; the cells
decide about the elements.
-/
namespace RSQLite

open DbColumnStorage SqliteColumnDataSource

def extendedTypes : List (String × DataType) :=
  [("DATE", .date), ("TIME", .time), ("DATETIME", .datetime), ("TIMESTAMP", .datetime)]

/-- A column is declared with one of them in any letter case. -/
def documentedType (decl : Bytes) : Option DataType :=
  (extendedTypes.find? (fun entry =>
    decl.map upperToLower == (word entry.1).map upperToLower)).map Prod.snd

/-- The documented class, and the time zone. -/
def documentedClass : DataType → List String × Option String
  | .date => (["Date"], none)
  | .time => (["hms", "difftime"], none)
  | .datetime => (["POSIXct", "POSIXt"], some "UTC")
  | _ => ([], none)

/-- The driver finds the documented type of a declaration. -/
theorem datatypeFromDecltype_documented (decl : Bytes) (T : DataType)
    (documented : documentedType decl = some T) :
    datatypeFromDecltype (some decl) true = T ∧ (T = .date ∨ T = .time ∨ T = .datetime) := by
  obtain ⟨⟨name, U⟩, found, rfl⟩ := Option.map_eq_some_iff.mp documented
  have same := List.find?_some found
  have member := List.mem_of_find?_eq_some found
  rw [beq_iff_eq] at same
  simp only [extendedTypes, List.mem_cons, Prod.mk.injEq, List.not_mem_nil, or_false] at member
  have letters : (0 : UInt8) ∉ (word name).map upperToLower := by
    obtain ⟨rfl, _⟩ | ⟨rfl, _⟩ | ⟨rfl, _⟩ | ⟨rfl, _⟩ := member <;> decide
  have whole : cString decl = decl := by
    refine cString_of_no_nul decl (fun nul => letters ?_)
    rw [← same]
    exact List.mem_map_of_mem nul
  rw [datatypeFromDecltype_eq]
  simp only [declaredType, folded, whole, same]
  obtain ⟨rfl, rfl⟩ | ⟨rfl, rfl⟩ | ⟨rfl, rfl⟩ | ⟨rfl, rfl⟩ := member <;> decide

/-- The source of a column that is declared with a documented type, on a connection with
extended types. -/
structure Extended (source : SqliteColumnDataSource) (T : DataType) : Prop where
  withAltTypes : source.withAltTypes = true
  declared : source.getDeclDataType = T
  dated : T = .date ∨ T = .time ∨ T = .datetime

theorem extended_of_documented (source : SqliteColumnDataSource) (decl : Bytes) (T : DataType)
    (withAltTypes : source.withAltTypes = true) (declType : source.declType = some decl)
    (documented : documentedType decl = some T) : Extended source T := by
  obtain ⟨declared, dated⟩ := datatypeFromDecltype_documented decl T documented
  refine ⟨withAltTypes, ?_, dated⟩
  rw [getDeclDataType, declType, withAltTypes, declared]

section Reading

variable {source : SqliteColumnDataSource} {T : DataType}

theorem Extended.getDataType_eq (extended : Extended source T) (cell : SqlValue) :
    source.getDataType cell = T := by
  rw [SqliteColumnDataSource.getDataType, if_pos]
  · exact extended.declared
  · refine ⟨extended.withAltTypes, ?_⟩
    rw [extended.declared]
    obtain h | h | h := extended.dated
    · exact Or.inl h
    · exact Or.inr (Or.inr h)
    · exact Or.inr (Or.inl h)

theorem Extended.ne_unknown (extended : Extended source T) : T ≠ .unknown := by
  rw [← extended.declared]
  exact source.getDeclDataType_ne_unknown

/-- A column starts without a type, or with the one that it had before. -/
def StartsExtended (T S : DataType) : Prop := S = .unknown ∨ S = T

theorem Extended.nextType_eq (extended : Extended source T) (S : DataType)
    (starts : StartsExtended T S) (cell : SqlValue) :
    nextType source S cell = if cell.isNull then S else T := by
  cases null : cell.isNull with
  | true => exact nextType_null source S cell null
  | false =>
      rw [nextType_value source S cell null, extended.getDataType_eq cell]
      obtain rfl | rfl := starts
      · rfl
      · exact ite_self _

theorem Extended.nextType_starts (extended : Extended source T) (S : DataType)
    (starts : StartsExtended T S) (cell : SqlValue) :
    StartsExtended T (nextType source S cell) := by
  rw [extended.nextType_eq S starts cell]
  split
  · exact starts
  · exact Or.inr rfl

theorem Extended.finalType_starts (extended : Extended source T) (cells : List SqlValue) :
    ∀ S, StartsExtended T S → StartsExtended T (finalType source S cells) := by
  induction cells with
  | nil => exact fun _ starts => starts
  | cons cell rest ih => exact fun S starts => ih _ (extended.nextType_starts S starts cell)

theorem Extended.vectorType_eq (extended : Extended source T) (S : DataType)
    (starts : StartsExtended T S) (cells : List SqlValue) : vectorType source S cells = T := by
  rw [vectorType]
  split
  · exact extended.declared
  · next typed => exact (extended.finalType_starts cells S starts).resolve_left typed

theorem Extended.typeTrace_eq (extended : Extended source T) (cells : List SqlValue) :
    ∀ S, StartsExtended T S → ∀ (U : DataType) (cell : SqlValue),
      (U, cell) ∈ typeTrace source S cells → cell.isNull = false → U = T := by
  induction cells with
  | nil =>
      intro S _ U cell read
      cases read
  | cons first rest ih =>
      intro S starts U cell read value
      obtain heq | later := List.mem_cons.mp read
      · obtain ⟨rfl, rfl⟩ := Prod.mk.inj heq
        rw [extended.nextType_eq S starts cell, value]
        rfl
      · exact ih _ (extended.nextType_starts S starts first) U cell later value

end Reading

/-- The text parser of each type, with the number that a parsed text is delivered as. -/
def parse (cv : Conversions) : DataType → Bytes → Option Binary64
  | .date, b => (cv.dateFromString b).map Binary64.ofInt
  | .time, b => cv.timeFromString b
  | .datetime, b => cv.datetimeFromString b
  | _, _ => none

/-- What the parsers return is a number: days of a 64-bit integer type, and microseconds of
such a type, scaled to seconds. SQLite converts a REAL as `sqlite3RealToI64` does. -/
structure Conversions.Genuine (cv : Conversions) : Prop where
  date : ∀ b days, cv.dateFromString b = some days → days.natAbs < 2 ^ 64
  time : ∀ b seconds, cv.timeFromString b = some seconds → seconds.isNaN = false
  datetime : ∀ b seconds, cv.datetimeFromString b = some seconds → seconds.isNaN = false
  real : cv.realToInt64 = sqlite3RealToI64

/-- The warnings for a cell that cannot be mapped. -/
def refusal (cv : Conversions) (T : DataType) : SqlValue → List String
  | .text b => if (parse cv T (cString b)).isNone then [unknownFormat] else []
  | .blob _ => [cannotConvertBlob]
  | _ => []

def SqlValue.isNumeric : SqlValue → Bool
  | .integer _ | .real _ => true
  | _ => false

/-- The integer part of a number; infinities have none. -/
def SqlValue.integerPart : SqlValue → Option Int
  | .integer v => some v.toInt
  | .real r => r.value.integerPart
  | _ => none

/-- The integer part exists and is a 32-bit integer. -/
def SqlValue.FitsInt32 (cell : SqlValue) : Prop :=
  ∃ d, cell.integerPart = some d ∧ Int32.minValue.toInt ≤ d ∧ d ≤ Int32.maxValue.toInt

/-- The vector of a column of a documented type, and the warnings raised for it. -/
structure DeliversDates (cv : Conversions) (T : DataType) (cells : List SqlValue) (x : Sexp)
    (warnings : List String) : Prop where
  rclass : (x.rclass, x.tzone) = documentedClass T
  length : x.length = cells.length
  missing : ∀ (k : Nat) (cell : SqlValue) (v : Slot), cells[k]? = some cell →
    x.slots[k]? = some v → (v.isNA x.rclass = true ↔ cell = .null ∨ refusal cv T cell ≠ [])
  warned : List.Sublist (cells.flatMap (refusal cv T)) warnings
  text : ∀ (k : Nat) (b : Bytes) (value : Binary64), cells[k]? = some (.text b) →
    parse cv T (cString b) = some value → x.slots[k]? = some (.word value.bits)
  number : T = .date → ∀ (k : Nat) (cell : SqlValue) (v : Slot), cells[k]? = some cell →
    cell.isNumeric = true → x.slots[k]? = some v →
    (∃ (d : Int) (day : Binary64), cell.integerPart = some d ∧ day.toRat? = some (d : ℚ) ∧
      v = .word day.bits) ∨ v.isNA x.rclass = true ∧ warnings ≠ []

variable {cv : Conversions} {source : SqliteColumnDataSource} {T : DataType}

/-- How the reader of each type reads a number. -/
def readNumber (cv : Conversions) : DataType → SqlValue → Binary64
  | .date, cell => Binary64.ofInt (cell.columnInt cv).toInt
  | _, cell => cell.columnDouble cv

/-- The number that a cell is delivered as. -/
def delivered (cv : Conversions) (T : DataType) (cell : SqlValue) : Binary64 :=
  if cell.isNull then naReal else (fetchParsed (parse cv T) (readNumber cv T) cell).1

theorem fetchSlot_extended (dated : T = .date ∨ T = .time ∨ T = .datetime) (cell : SqlValue) :
    fetchSlot cv T cell = (.word (fetchParsed (parse cv T) (readNumber cv T) cell).1.bits,
      (fetchParsed (parse cv T) (readNumber cv T) cell).2) := by
  obtain rfl | rfl | rfl := dated <;> rfl

theorem fetchParsed_warnings (number : SqlValue → Binary64) (cell : SqlValue) :
    (fetchParsed (parse cv T) number cell).2 = refusal cv T cell := by
  cases cell with
  | null | integer v | real r | blob b => rfl
  | text b =>
      rw [fetchParsed, refusal]
      cases parse cv T (cString b) <;> rfl

/-- The reader of a cell raises the warnings for the cell, and a NULL is not read. -/
theorem cellWarnings_extended (dated : T = .date ∨ T = .time ∨ T = .datetime) (S : DataType)
    (cell : SqlValue) (read : cell.isNull = false → S = T) :
    cellWarnings cv S cell = refusal cv T cell := by
  cases null : cell.isNull with
  | true =>
      rw [cellWarnings_null cv S cell null]
      cases cell with
      | null => rfl
      | integer v | real r | text b | blob b => cases null
  | false =>
      rw [cellWarnings, null, if_neg Bool.false_ne_true, read null, fetchSlot_extended dated,
        fetchParsed_warnings]

theorem defaultSlot_extended (dated : T = .date ∨ T = .time ∨ T = .datetime) :
    defaultSlot T = .word naReal.bits := by
  obtain rfl | rfl | rfl := dated <;> rfl

theorem promoteSlot_extended (dated : T = .date ∨ T = .time ∨ T = .datetime) (v : Slot) :
    promoteSlot T v = v := by
  obtain rfl | rfl | rfl := dated <;> cases v <;> rfl

theorem fetchedSlots_extended (extended : Extended source T) (S : DataType)
    (starts : StartsExtended T S) (cells : List SqlValue) :
    fetchedSlots cv source S cells = cells.map (fun cell => .word (delivered cv T cell).bits) := by
  conv_rhs => rw [← typeTrace_cells source S cells, List.map_map]
  refine List.map_congr_left (fun read hread => ?_)
  obtain ⟨U, cell⟩ := read
  have promotes := promotes_vectorType source S cells U cell hread
  rw [extended.vectorType_eq S starts cells] at promotes ⊢
  cases null : cell.isNull with
  | true =>
      rw [elementOf_null cv T U cell null promotes, defaultSlot_extended extended.dated]
      simp only [Function.comp_apply, delivered, null, ite_true]
  | false =>
      have typed := extended.typeTrace_eq cells S starts U cell hread null
      simp only [elementOf, typed, extended.ne_unknown, ite_false, slotOf, null,
        Bool.false_eq_true, promoteSlot_extended extended.dated, fetchSlot_extended extended.dated,
        Function.comp_apply, delivered]

theorem isNaN_columnInt (cell : SqlValue) :
    (Binary64.ofInt (cell.columnInt cv).toInt).isNaN = false := by
  have lower := (cell.columnInt cv).le_toInt
  have upper := (cell.columnInt cv).toInt_lt
  exact Binary64.isNaN_ofInt _ (by omega)

theorem isNaN_columnDouble (cell : SqlValue) (numeric : cell.isNumeric = true) :
    (cell.columnDouble cv).isNaN = false := by
  cases cell with
  | integer v =>
      have lower := v.le_toInt
      have upper := v.toInt_lt
      exact Binary64.isNaN_ofInt _ (by omega)
  | real r => exact r.notNaN
  | null | text b | blob b => cases numeric

theorem isNaN_readNumber (T : DataType) (cell : SqlValue) (numeric : cell.isNumeric = true) :
    (readNumber cv T cell).isNaN = false := by
  cases T with
  | date => exact isNaN_columnInt cell
  | unknown | bool | int | int64 | real | string | blob | datetime | datetimetz | time =>
      exact isNaN_columnDouble cell numeric

theorem delivered_number (T : DataType) (cell : SqlValue) (numeric : cell.isNumeric = true) :
    delivered cv T cell = readNumber cv T cell := by
  cases cell with
  | integer v | real r =>
      simp only [delivered, SqlValue.isNull, Bool.false_eq_true, ite_false, fetchParsed]
  | null | text b | blob b => cases numeric

theorem isNaN_parse (genuine : cv.Genuine) (b : Bytes) (value : Binary64)
    (parsed : parse cv T b = some value) : value.isNaN = false := by
  cases T with
  | date =>
      obtain ⟨days, read, rfl⟩ := Option.map_eq_some_iff.mp parsed
      exact Binary64.isNaN_ofInt days (genuine.date b days read)
  | time => exact genuine.time b value parsed
  | datetime => exact genuine.datetime b value parsed
  | unknown | bool | int | int64 | real | string | blob | datetimetz => cases parsed

theorem isNaN_delivered (genuine : cv.Genuine) (cell : SqlValue) :
    (delivered cv T cell).isNaN = true ↔ cell = .null ∨ refusal cv T cell ≠ [] := by
  have missing : naReal.isNaN = true := by decide
  cases cell with
  | null => exact ⟨fun _ => Or.inl rfl, fun _ => missing⟩
  | blob b => exact ⟨fun _ => Or.inr (List.cons_ne_nil _ _), fun _ => missing⟩
  | integer v =>
      rw [delivered_number T _ rfl, isNaN_readNumber T _ rfl]
      simp [refusal]
  | real r =>
      rw [delivered_number T _ rfl, isNaN_readNumber T _ rfl]
      simp [refusal]
  | text b =>
      simp only [delivered, SqlValue.isNull, Bool.false_eq_true, ite_false, fetchParsed, refusal,
        reduceCtorEq, false_or]
      cases parsed : parse cv T (cString b) with
      | none => simp [missing]
      | some value => simp [isNaN_parse genuine _ value parsed]

theorem toRat?_delivered_date (cell : SqlValue) (numeric : cell.isNumeric = true) :
    (delivered cv .date cell).toRat? = some ((cell.columnInt cv).toInt : ℚ) := by
  have lower := (cell.columnInt cv).le_toInt
  have upper := (cell.columnInt cv).toInt_lt
  rw [delivered_number .date cell numeric, readNumber]
  exact Binary64.toRat?_ofInt _ (by omega)

theorem columnInt64_of_fits (genuine : cv.Genuine) (cell : SqlValue) (d : Int)
    (part : cell.integerPart = some d) (lower : Int32.minValue.toInt ≤ d)
    (upper : d ≤ Int32.maxValue.toInt) : (cell.columnInt64 cv).toInt = d := by
  have least : Int32.minValue.toInt = -2 ^ 31 := rfl
  have greatest : Int32.maxValue.toInt = 2 ^ 31 - 1 := rfl
  cases cell with
  | integer v => exact Option.some.inj part
  | null | text b | blob b => cases part
  | real r =>
      obtain ⟨q, value, rfl⟩ := Option.map_eq_some_iff.mp part
      obtain ⟨below, above⟩ := Binary64.truncate_near q
      have small : ((Binary64.truncate q : Int) : ℚ) ≤ 2 ^ 31 := by
        exact_mod_cast (by omega : Binary64.truncate q ≤ 2 ^ 31)
      have large : -2 ^ 31 ≤ ((Binary64.truncate q : Int) : ℚ) := by
        exact_mod_cast (by omega : -2 ^ 31 ≤ Binary64.truncate q)
      rw [SqlValue.columnInt64, genuine.real, sqlite3RealToI64, value]
      dsimp only
      rw [if_neg (by linarith), if_neg (by linarith)]
      exact Int64.toInt_ofInt_of_le (by omega) (by omega)

/-- A day is the integer part of its cell if that is a 32-bit integer, and only then. -/
theorem delivered_integerPart (genuine : cv.Genuine) (cell : SqlValue)
    (numeric : cell.isNumeric = true) :
    (∃ d : Int, cell.integerPart = some d ∧
      (delivered cv .date cell).toRat? = some (d : ℚ)) ↔ cell.FitsInt32 := by
  rw [toRat?_delivered_date cell numeric]
  constructor
  · rintro ⟨d, part, same⟩
    have day : (cell.columnInt cv).toInt = d := by exact_mod_cast Option.some.inj same
    refine ⟨d, part, ?_, ?_⟩
    · rw [← day]
      exact Int32.minValue_le_toInt _
    · rw [← day]
      exact Int32.toInt_le _
  · rintro ⟨d, part, lower, upper⟩
    have wide := columnInt64_of_fits genuine cell d part lower upper
    have narrow : needs64Bit (cell.columnInt64 cv) = false := by
      simp only [needs64Bit, wide, Bool.or_eq_false_iff, decide_eq_false_iff_not, not_lt]
      exact ⟨lower, upper⟩
    have day : (cell.columnInt cv).toInt = d := by
      rw [SqlValue.columnInt, toInt32_of_not_needs64Bit _ narrow, wide]
    exact ⟨d, part, by rw [day]⟩

theorem isNA_extended (dated : T = .date ∨ T = .time ∨ T = .datetime) (value : Binary64) :
    (Slot.word value.bits).isNA (classFromDatatype T) = value.isNaN := by
  obtain rfl | rfl | rfl := dated <;> rfl

/-- All is as documented in the vector of a column, whatever its cells are and whatever chunks
they went through, exactly when no number of a DATE column is beyond 32 bits. -/
theorem deliversDates_iff (genuine : cv.Genuine) (extended : Extended source T) (S : DataType)
    (starts : StartsExtended T S) (cells : List SqlValue) (warnings : List String)
    (warned : List.Sublist (cells.flatMap (refusal cv T)) warnings) :
    DeliversDates cv T cells (fetchedVector cv source S cells) warnings ↔
      (T = .date → ∀ cell ∈ cells, cell.isNumeric = true → cell.FitsInt32) := by
  have type := extended.vectorType_eq S starts cells
  have rclass : (fetchedVector cv source S cells).rclass = classFromDatatype T :=
    congrArg classFromDatatype type
  have element : ∀ (k : Nat) (cell : SqlValue), cells[k]? = some cell →
      (fetchedVector cv source S cells).slots[k]? = some (.word (delivered cv T cell).bits) := by
    intro k cell hk
    rw [fetchedVector, Sexp.withSlots_slots, fetchedSlots_extended extended S starts,
      List.getElem?_map, hk, Option.map_some]
  constructor
  · rintro delivers rfl cell hcell numeric
    obtain ⟨k, hk⟩ := List.getElem?_of_mem hcell
    obtain ⟨d, day, part, value, same⟩ | ⟨na, _⟩ :=
      delivers.number rfl k cell _ hk numeric (element k cell hk)
    · have bits : delivered cv .date cell = day := congrArg Binary64.mk (Slot.word.inj same)
      exact (delivered_integerPart genuine cell numeric).mp ⟨d, part, by rw [bits, value]⟩
    · rw [rclass, isNA_extended extended.dated, delivered_number _ cell numeric,
        isNaN_readNumber _ cell numeric] at na
      cases na
  · intro narrow
    refine ⟨?_, fetchedVector_length cv source S cells, ?_, warned, ?_, ?_⟩
    · have tzone : (fetchedVector cv source S cells).tzone = tzoneFromDatatype T :=
        congrArg tzoneFromDatatype type
      rw [rclass, tzone]
      obtain rfl | rfl | rfl := extended.dated <;> rfl
    · intro k cell v hk hv
      obtain rfl := Option.some.inj ((element k cell hk).symm.trans hv)
      rw [rclass, isNA_extended extended.dated]
      exact isNaN_delivered genuine cell
    · intro k b value hk parsed
      rw [element k _ hk]
      simp only [delivered, SqlValue.isNull, Bool.false_eq_true, ite_false, fetchParsed, parsed]
    · rintro rfl k cell v hk numeric hv
      obtain rfl := Option.some.inj ((element k cell hk).symm.trans hv)
      obtain ⟨d, part, value⟩ := (delivered_integerPart genuine cell numeric).mpr
        (narrow rfl cell (List.mem_of_getElem? hk) numeric)
      exact Or.inl ⟨d, _, part, value, rfl⟩

end RSQLite
