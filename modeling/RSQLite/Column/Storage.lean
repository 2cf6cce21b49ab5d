import RSQLite.Column.Counter
import RSQLite.Column.DataSource

/-!
One chunk of a result column. Reading a cell either writes the current slot of
the chunk or opens a further chunk, of another type or of a larger capacity.
NULLs are only counted once the capacity is used up.
-/
namespace RSQLite

structure DbColumnStorage (I : Type) where
  data : Sexp
  i : I
  dt : DataType
  nMax : Int
deriving DecidableEq, Repr

/-- What `append_col` leaves behind: the chunk itself (`this`) or a chunk that
the column has to push, and the warnings the read raised. -/
structure Appended (I : Type) where
  storage : DbColumnStorage I
  pushed : Bool
  warnings : List String

namespace DbColumnStorage

def sexptypeFromDatatype : DataType → SexpType
  | .unknown => .nilsxp
  | .bool => .lglsxp
  | .int => .intsxp
  | .int64 => .realsxp
  | .real | .date | .datetime | .datetimetz | .time => .realsxp
  | .string => .strsxp
  | .blob => .vecsxp

/-- The class attribute, with the classes that `blob::new_blob()` and
`hms::new_hms()` set. -/
def classFromDatatype : DataType → List String
  | .int64 => ["integer64"]
  | .date => ["Date"]
  | .datetime | .datetimetz => ["POSIXct", "POSIXt"]
  | .blob => ["blob", "vctrs_list_of", "vctrs_vctr", "list"]
  | .time => ["hms", "difftime"]
  | _ => []

def tzoneFromDatatype : DataType → Option String
  | .datetime => some "UTC"
  | _ => none

def allocate (length : Nat) (dt : DataType) : Sexp :=
  { Sexp.allocVector (sexptypeFromDatatype dt) length with
    rclass := classFromDatatype dt, tzone := tzoneFromDatatype dt }

def getNewCapacity (nMax desired : Int) : Nat :=
  if nMax < 0 then (max desired 100).toNat else (max desired 1).toNat

variable {I : Type} [Counter I]

def create (dt : DataType) (capacity nMax : Int) : DbColumnStorage I where
  data := allocate (getNewCapacity nMax capacity) dt
  i := Counter.zero
  dt := dt
  nMax := nMax

def capacity (s : DbColumnStorage I) : Nat := s.data.length

/-- A chunk without a type of its own answers with the declared type. -/
def getDataType (source : SqliteColumnDataSource) (s : DbColumnStorage I) : DataType :=
  if s.dt = .unknown then source.getDeclDataType else s.dt

def defaultSlot : DataType → Slot
  | .bool => .logical naInteger
  | .int => .integer naInteger
  | .int64 => .word naInteger64.toBitVec
  | .real | .date | .datetime | .datetimetz | .time => .word naReal.bits
  | .string => .string none
  | .blob => .raw none
  | .unknown => .raw none

def fillDefaultValue (x : Sexp) (dt : DataType) (i : Nat) : Outcome Sexp :=
  if dt = .unknown then .error (.stop "Not setting value for unknown data type")
  else x.set i (defaultSlot dt)

variable (cv : Conversions) (source : SqliteColumnDataSource)

def appendNull (s : DbColumnStorage I) : Outcome (Appended I) := do
  let data ← if Counter.toNat s.i < s.capacity then fillDefaultValue s.data s.dt (Counter.toNat s.i)
    else .ok s.data
  let i ← Counter.next s.i
  .ok ⟨{ s with data := data, i := i }, false, []⟩

/-- The slot that `fetch_value` writes for a cell, by the type of the chunk. -/
def fetchSlot (dt : DataType) (cell : SqlValue) : Slot × List String :=
  match dt with
  | .bool => (.logical 0, [])
  | .int => (.integer (SqliteColumnDataSource.fetchInt cv cell), [])
  | .int64 => (.word (SqliteColumnDataSource.fetchInt64 cv cell).toBitVec, [])
  | .real => (.word (SqliteColumnDataSource.fetchReal cv cell).bits, [])
  | .string => (.string (some (SqliteColumnDataSource.fetchString cv cell)), [])
  | .blob => (.raw (some (SqliteColumnDataSource.fetchBlob cv cell)), [])
  | .date => let v := SqliteColumnDataSource.fetchDate cv cell; (.word v.1.bits, v.2)
  | .datetime => let v := SqliteColumnDataSource.fetchDatetimeLocal cv cell; (.word v.1.bits, v.2)
  | .datetimetz => (.word 0, [])
  | .time => let v := SqliteColumnDataSource.fetchTime cv cell; (.word v.1.bits, v.2)
  | .unknown => (.raw none, [])

def fetchValue (cell : SqlValue) (s : DbColumnStorage I) : Outcome (Sexp × List String) :=
  if s.dt = .unknown then .error (.stop "NYI")
  else do
    let data ← s.data.set (Counter.toNat s.i) (fetchSlot cv s.dt cell).1
    .ok (data, (fetchSlot cv s.dt cell).2)

/-- `append_data` and `append_data_to_new` call each other; the latter receives
the former as an argument. The chunk it returns is never `this`. -/
def appendDataToNew (appendData : DbColumnStorage I → Outcome (Appended I))
    (cell : SqlValue) (s : DbColumnStorage I) (newDt : DataType) : Outcome (Appended I) := do
  let newDt := if newDt = .unknown then source.getDataType cell else newDt
  let desiredCapacity : Int := if s.nMax < 0 then s.capacity * 2 else s.nMax - Counter.toNat s.i
  let spillover := create newDt desiredCapacity s.nMax
  let next ← appendData spillover
  .ok { next with pushed := true }

def appendData (cell : SqlValue) : Nat → DbColumnStorage I → Outcome (Appended I)
  | 0, _ => .error .unfinished
  | fuel + 1, s =>
      if s.dt = .unknown then
        appendDataToNew source (appendData cell fuel) cell s s.dt
      else if s.capacity ≤ Counter.toNat s.i then
        appendDataToNew source (appendData cell fuel) cell s s.dt
      else if s.dt = .int ∧ source.getDataType cell = .int64 then
        appendDataToNew source (appendData cell fuel) cell s .int64
      else if s.dt = .int ∧ source.getDataType cell = .real then
        appendDataToNew source (appendData cell fuel) cell s .real
      else do
        let (data, warnings) ← fetchValue cv cell s
        let i ← Counter.next s.i
        .ok ⟨{ s with data := data, i := i }, false, warnings⟩

/-- The recursion of `append_data` opens at most two further chunks. -/
def appendFuel : Nat := 3

def appendCol (fuel : Nat) (cell : SqlValue) (s : DbColumnStorage I) : Outcome (Appended I) :=
  if cell.isNull then appendNull s else appendData cv source cell fuel s

/-- One slot of `copy_value`, by the type of the result column and of the chunk. -/
def copySlot (dt : DataType) (data : Sexp) (src : Nat) : Outcome (Option Slot) :=
  match dt with
  | .bool => some <$> data.get .lglsxp src
  | .int => some <$> data.get .intsxp src
  | .int64 =>
      match data.type with
      | .intsxp => do
          match ← data.get .intsxp src with
          | .integer v =>
              .ok (some (.word (if v = naInteger then naInteger64 else v.toInt64).toBitVec))
          | _ => .error (.stop "vector accessor applied to another type")
      | .realsxp => do
          match ← data.get .realsxp src with
          | .word w =>
              -- the integer is converted to a double before R_IsNA() looks at it
              if rIsNA (Binary64.ofInt (Int64.ofBitVec w).toInt) then
                .ok (some (.word naInteger64.toBitVec))
              else .ok (some (.word w))
          | _ => .error (.stop "vector accessor applied to another type")
      | _ => .ok none
  | .real =>
      match data.type with
      | .intsxp => do
          match ← data.get .intsxp src with
          | .integer v =>
              .ok (some (.word (if v = naInteger then naReal else Binary64.ofInt v.toInt).bits))
          | _ => .error (.stop "vector accessor applied to another type")
      | .realsxp => some <$> data.get .realsxp src
      | _ => .ok none
  | .string => some <$> data.get .strsxp src
  | .blob => some <$> data.get .vecsxp src
  | .date | .datetime | .datetimetz | .time => some <$> data.get .realsxp src
  | .unknown => .error (.stop "NYI: default")

def copyValue (x : Sexp) (dt : DataType) (tgt src : Nat) (data : Sexp) : Outcome Sexp :=
  if data.isNull then fillDefaultValue x dt tgt
  else do
    match ← copySlot dt data src with
    | some v => x.set tgt v
    | none => .ok x

/-- The first loop of `copy_to`. `src` never passes `i`, so `i` rounds suffice. -/
def copyValues (s : DbColumnStorage I) (dt : DataType) :
    Nat → Sexp → I → I → Outcome (Sexp × I × I)
  | 0, x, src, tgt => .ok (x, src, tgt)
  | rounds + 1, x, src, tgt =>
      if Counter.toNat src < s.capacity ∧ Counter.toNat src < Counter.toNat s.i ∧
          Counter.toNat tgt < x.length then do
        let x ← copyValue x dt (Counter.toNat tgt) (Counter.toNat src) s.data
        let src ← Counter.next src
        let tgt ← Counter.next tgt
        copyValues s dt rounds x src tgt
      else .ok (x, src, tgt)

/-- The second loop of `copy_to`, over the NULLs beyond the capacity. -/
def fillDefaults (s : DbColumnStorage I) (dt : DataType) :
    Nat → Sexp → I → I → Outcome (Sexp × I)
  | 0, x, src, _ => .ok (x, src)
  | rounds + 1, x, src, tgt =>
      if Counter.toNat src < Counter.toNat s.i ∧ Counter.toNat tgt < x.length then do
        let x ← fillDefaultValue x dt (Counter.toNat tgt)
        let src ← Counter.next src
        let tgt ← Counter.next tgt
        fillDefaults s dt rounds x src tgt
      else .ok (x, src)

def copyTo (s : DbColumnStorage I) (x : Sexp) (dt : DataType) (pos : I) :
    Outcome (Sexp × I) := do
  let (x, src, tgt) ← copyValues s dt (Counter.toNat s.i) x Counter.zero pos
  fillDefaults s dt (Counter.toNat s.i) x src tgt

end DbColumnStorage

end RSQLite
