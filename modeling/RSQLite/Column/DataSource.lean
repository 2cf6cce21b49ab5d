import RSQLite.R.Vector
import Mathlib.Data.Finset.Dedup
import Mathlib.Data.Finset.Erase
import Mathlib.Data.Finset.Lattice.Lemmas

/-!
The column types and the data source of one result column. The source reads
the current row of the statement, so the cell is an argument of each function;
what stays the same for the whole result (the declared type, extended types)
is the structure.
-/
namespace RSQLite

inductive DataType
  | unknown | bool | int | int64 | real | string | blob | date | datetime | datetimetz | time
deriving DecidableEq, Repr

namespace DataType

/-- The constructors in the order of the C++ enumeration. -/
def all : List DataType :=
  [unknown, bool, int, int64, real, string, blob, date, datetime, datetimetz, time]

def format : DataType → String
  | unknown => "unknown"
  | bool => "boolean"
  | int => "integer"
  | int64 => "integer64"
  | real => "real"
  | string => "string"
  | blob => "blob"
  | _ => "<unknown type>"

end DataType

/-- The affinity codes of `affinity.h`. -/
inductive Affinity
  | blob | text | numeric | integer | real
deriving DecidableEq, Repr

def upperToLower (b : UInt8) : UInt8 := if 65 ≤ b ∧ b ≤ 90 then b + 32 else b

/-- Four characters packed into the scanner's 32-bit window. -/
def tag (a b c d : Char) : UInt32 :=
  (a.val <<< 24) + (b.val <<< 16) + (c.val <<< 8) + d.val

/-- The scan of `sqlite3AffinityType`: `h` holds the last four characters in
lower case, and a match of `INT` ends the loop. -/
def affinityScan : Bytes → UInt32 → Affinity → Affinity
  | [], _, aff => aff
  | z :: rest, h, aff =>
      let h := (h <<< 8) + (upperToLower z).toUInt32
      if h = tag 'c' 'h' 'a' 'r' then affinityScan rest h .text
      else if h = tag 'c' 'l' 'o' 'b' then affinityScan rest h .text
      else if h = tag 't' 'e' 'x' 't' then affinityScan rest h .text
      else if h = tag 'b' 'l' 'o' 'b' ∧ (aff = .numeric ∨ aff = .real) then
        affinityScan rest h .blob
      else if h = tag 'r' 'e' 'a' 'l' ∧ aff = .numeric then affinityScan rest h .real
      else if h = tag 'f' 'l' 'o' 'a' ∧ aff = .numeric then affinityScan rest h .real
      else if h = tag 'd' 'o' 'u' 'b' ∧ aff = .numeric then affinityScan rest h .real
      else if h &&& (0x00FFFFFF : UInt32) = (('i'.val <<< 16) + ('n'.val <<< 8) + 't'.val) then .integer
      else affinityScan rest h aff

def sqlite3AffinityType (zIn : Bytes) : Affinity := affinityScan (cString zIn) 0 .numeric

def iequals (a : Bytes) (b : String) : Bool :=
  (cString a).map upperToLower == b.toUTF8.toList.map upperToLower

def datatypeFromDecltype (declType : Option Bytes) (withAltTypes : Bool) : DataType :=
  match declType with
  | none => .bool
  | some decl =>
      if withAltTypes ∧ (iequals decl "datetime" ∨ iequals decl "timestamp") then .datetime
      else if withAltTypes ∧ iequals decl "date" then .date
      else if withAltTypes ∧ iequals decl "time" then .time
      else match sqlite3AffinityType decl with
        | .integer => .int
        | .numeric | .real => .real
        | .text => .string
        | .blob => .blob

structure SqliteColumnDataSource where
  declType : Option Bytes
  withAltTypes : Bool
deriving DecidableEq, Repr

namespace SqliteColumnDataSource

def needs64Bit (ret : Int64) : Bool :=
  ret.toInt < Int32.minValue.toInt || ret.toInt > Int32.maxValue.toInt

def getDeclDataType (source : SqliteColumnDataSource) : DataType :=
  datatypeFromDecltype source.declType source.withAltTypes

/-- The type of a cell by its storage class alone. -/
def cellDataType : SqlValue → DataType
  | .integer ret => if needs64Bit ret then .int64 else .int
  | .real _ => .real
  | .text _ => .string
  | .blob _ => .blob
  | .null => .unknown

def getDataType (source : SqliteColumnDataSource) (cell : SqlValue) : DataType :=
  if source.withAltTypes ∧ (source.getDeclDataType = .date ∨
      source.getDeclDataType = .datetime ∨ source.getDeclDataType = .time) then
    source.getDeclDataType
  else cellDataType cell

variable (cv : Conversions)

def fetchInt (cell : SqlValue) : Int32 := cell.columnInt cv

def fetchInt64 (cell : SqlValue) : Int64 := cell.columnInt64 cv

def fetchReal (cell : SqlValue) : Binary64 := cell.columnDouble cv

def fetchString (cell : SqlValue) : Bytes := cString (cell.columnText cv)

def fetchBlob (cell : SqlValue) : Bytes := cell.columnBlob cv

def unknownFormat : String := "Unknown string format, NA is returned."

def cannotConvertBlob : String := "Cannot convert blob, NA is returned."

/-- The three extended readers share their shape: text is parsed, a blob is
refused, both refusals with a warning, and a number is read by `number`. -/
def fetchParsed (parse : Bytes → Option Binary64) (number : SqlValue → Binary64) :
    SqlValue → Binary64 × List String
  | .text b =>
      match parse (cString b) with
      | some v => (v, [])
      | none => (naReal, [unknownFormat])
  | .blob _ => (naReal, [cannotConvertBlob])
  | cell => (number cell, [])

def fetchDate (cell : SqlValue) : Binary64 × List String :=
  fetchParsed (fun b => (cv.dateFromString b).map Binary64.ofInt)
    (fun c => Binary64.ofInt (c.columnInt cv).toInt) cell

def fetchDatetimeLocal (cell : SqlValue) : Binary64 × List String :=
  fetchParsed cv.datetimeFromString (·.columnDouble cv) cell

def fetchTime (cell : SqlValue) : Binary64 × List String :=
  fetchParsed cv.timeFromString (·.columnDouble cv) cell

theorem getDeclDataType_ne_unknown (source : SqliteColumnDataSource) :
    source.getDeclDataType ≠ .unknown := by
  simp only [getDeclDataType, datatypeFromDecltype]
  split
  · decide
  · repeat' split
    all_goals decide

theorem getDataType_ne_unknown (source : SqliteColumnDataSource) (cell : SqlValue)
    (h : cell.isNull = false) : source.getDataType cell ≠ .unknown := by
  simp only [getDataType]
  split
  · exact source.getDeclDataType_ne_unknown
  · cases cell with
    | null => simp [SqlValue.isNull] at h
    | integer v => simp only [cellDataType]; split <;> decide
    | real r | text b | blob b => simp [cellDataType]

theorem getDataType_of_not_alt (source : SqliteColumnDataSource) (cell : SqlValue)
    (h : source.withAltTypes = false) : source.getDataType cell = cellDataType cell := by
  simp [getDataType, h]

theorem toInt32_of_not_needs64Bit (v : Int64) (h : needs64Bit v = false) :
    v.toInt32.toInt = v.toInt := by
  simp only [needs64Bit, Bool.or_eq_false_iff, decide_eq_false_iff_not, not_lt,
    Int32.toInt_minValue, gt_iff_lt] at h
  have upper : v.toInt ≤ 2 ^ 31 - 1 := h.2
  rw [Int64.toInt_toInt32]
  exact Int.bmod_eq_of_le_mul_two (by omega) (by omega)

end SqliteColumnDataSource

end RSQLite
