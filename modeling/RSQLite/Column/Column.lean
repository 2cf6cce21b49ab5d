import RSQLite.Column.Storage

/-!
A result column: the chain of its chunks, the types seen so far, and the
conversion of the chain to one R vector of the type of its last chunk.
-/
namespace RSQLite

/-- The chain is never empty, and only its last chunk is written. -/
structure DbColumn (I : Type) where
  source : SqliteColumnDataSource
  earlier : List (DbColumnStorage I)
  last : DbColumnStorage I
  n : I
  dataTypesSeen : Finset DataType
  warnings : List String

namespace DbColumn

variable {I : Type} [Counter I]

def create (dt : DataType) (nMax : Int) (source : SqliteColumnDataSource) : DbColumn I where
  source := source
  earlier := []
  last := DbColumnStorage.create (if dt = .bool then .unknown else dt) 0 nMax
  n := Counter.zero
  dataTypesSeen := ∅
  warnings := []

def storage (c : DbColumn I) : List (DbColumnStorage I) := c.earlier ++ [c.last]

/-- One row: `cell` is what the accessors read from the statement's current row. -/
def setColValue (cv : Conversions) (fuel : Nat) (c : DbColumn I) (cell : SqlValue) :
    Outcome (DbColumn I) := do
  let dt := c.source.getDataType cell
  let next ← c.last.appendCol cv c.source fuel cell
  .ok { c with
    earlier := if next.pushed then c.earlier ++ [c.last] else c.earlier
    last := next.storage
    dataTypesSeen := insert dt c.dataTypesSeen
    warnings := c.warnings ++ next.warnings }

def finalize (c : DbColumn I) (n : I) : DbColumn I := { c with n := n }

def getType (c : DbColumn I) : DataType := c.last.getDataType c.source

/-- The types left over once everything that converts without loss is erased. -/
def conflicts (c : DbColumn I) : Finset DataType :=
  let seen := c.dataTypesSeen
  let seen := match c.getType with
    | .real => seen.erase .int
    | .int64 => seen.erase .int
    | _ => seen
  ((seen.erase .unknown).erase .bool).erase c.getType

def warnTypeConflicts (c : DbColumn I) (name : String) : Option String :=
  if c.conflicts = ∅ then none
  else some ("Column `" ++ name ++ "`: mixed type, first seen values of type " ++
    c.getType.format ++ ", coercing other values of type " ++
    ", ".intercalate ((DataType.all.filter (· ∈ c.conflicts)).map DataType.format))

/-- The chunks are copied one after the other. -/
def copyChunks (dt : DataType) : List (DbColumnStorage I) → Sexp → I → Outcome Sexp
  | [], x, _ => .ok x
  | current :: rest, x, pos => do
      let (x, copied) ← current.copyTo x dt pos
      let pos ← Counter.add pos copied
      copyChunks dt rest x pos

def toSexp (c : DbColumn I) : Outcome Sexp :=
  copyChunks c.getType c.storage (DbColumnStorage.allocate (Counter.toNat c.n) c.getType)
    Counter.zero

/-- One row of a fetch: the column takes its cell, and the data frame counts the row. -/
def fetchRow (cv : Conversions) (fuel : Nat) (column : DbColumn I × I) (cell : SqlValue) :
    Outcome (DbColumn I × I) := do
  let c ← column.1.setColValue cv fuel cell
  let n ← Counter.next column.2
  .ok (c, n)

/-- One column of a fetch: it takes a cell for each row, and is told how many were counted. -/
def fetchColumn (cv : Conversions) (fuel : Nat) (c : DbColumn I) (cells : List SqlValue) :
    Outcome (DbColumn I × Sexp) := do
  let (c, n) ← cells.foldlM (fetchRow cv fuel) (c, Counter.zero)
  let x ← (c.finalize n).toSexp
  .ok (c.finalize n, x)

end DbColumn

end RSQLite
