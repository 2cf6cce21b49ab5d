import RSQLite.Library.Binary64
import Mathlib.Data.List.TakeWhile

/-!
Values as SQLite hands them to the driver: storage classes and the column
accessors. Conversions between storage classes are SQLite's own and are a
parameter; an accessor that meets its own storage class needs none of them.
-/
namespace RSQLite

abbrev Bytes := List UInt8

/-- SQLite stores NaN as NULL, so a REAL is never a NaN. -/
structure SqlReal where
  value : Binary64
  notNaN : value.isNaN = false
deriving DecidableEq, Repr

/-- The conversion of a REAL to a 64-bit integer: values beyond the largest double below
2^63, and infinities, are clamped. -/
def sqlite3RealToI64 (r : SqlReal) : Int64 :=
  match r.value.toRat? with
  | none => if r.value.negative then Int64.minValue else Int64.maxValue
  | some q =>
      if q < -9223372036854774784 then Int64.minValue
      else if 9223372036854774784 < q then Int64.maxValue
      else Int64.ofInt (Binary64.truncate q)

inductive SqlValue
  | null
  | integer (v : Int64)
  | real (r : SqlReal)
  | text (bytes : Bytes)
  | blob (bytes : Bytes)
deriving DecidableEq, Repr

/-- Conversions between storage classes, and the Boost text parsers that
extended types use. -/
structure Conversions where
  realToInt64 : SqlReal → Int64
  bytesToInt64 : Bytes → Int64
  bytesToDouble : Bytes → Binary64
  integerToText : Int64 → Bytes
  realToText : SqlReal → Bytes
  dateFromString : Bytes → Option Int
  datetimeFromString : Bytes → Option Binary64
  timeFromString : Bytes → Option Binary64

/-- For columns whose cells are all read by the accessor of their own class. -/
def noConversions : Conversions where
  realToInt64 _ := 0
  bytesToInt64 _ := 0
  bytesToDouble _ := ⟨0⟩
  integerToText _ := []
  realToText _ := []
  dateFromString _ := none
  datetimeFromString _ := none
  timeFromString _ := none

namespace SqlValue

def isNull : SqlValue → Bool
  | null => true
  | _ => false

variable (cv : Conversions)

def columnInt64 : SqlValue → Int64
  | null => 0
  | integer v => v
  | real r => cv.realToInt64 r
  | text b | blob b => cv.bytesToInt64 b

/-- `sqlite3_column_int` keeps the low 32 bits. -/
def columnInt (c : SqlValue) : Int32 := (c.columnInt64 cv).toInt32

def columnDouble : SqlValue → Binary64
  | null => ⟨0⟩
  | integer v => Binary64.ofInt v.toInt
  | real r => r.value
  | text b | blob b => cv.bytesToDouble b

def columnText : SqlValue → Bytes
  | null => []
  | integer v => cv.integerToText v
  | real r => cv.realToText r
  | text b | blob b => b

def columnBlob (c : SqlValue) : Bytes := c.columnText cv

end SqlValue

/-- A C string ends at the first NUL byte. -/
def cString (b : Bytes) : Bytes := b.takeWhile (· ≠ 0)

theorem cString_of_no_nul (b : Bytes) (h : 0 ∉ b) : cString b = b := by
  apply List.takeWhile_eq_self_iff.mpr
  intro x hx
  have nonzero : x ≠ 0 := ne_of_mem_of_not_mem hx h
  simpa only [decide_eq_true_eq] using nonzero

end RSQLite
