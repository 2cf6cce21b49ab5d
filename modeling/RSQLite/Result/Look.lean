import RSQLite.Result.History
import RSQLite.Result.Start

/-!
Looking at the columns of a result between its fetches. A look reads the row that is shown
and leaves column types behind, from which the next fetch starts.
-/
namespace RSQLite

open SqliteResultImpl Measured Simulation Commuting

variable {DB : Type} (cv : Conversions)

/-- A fetch, with a round of its loop for every row ahead and one to find none. -/
def wholeFetch (request : Int) : Method DB DataFrame := fun s =>
  (DbResult.fetch cv (s.ahead.1.length + 1) request).run s

/-- `dbColumnInfo()` or `dbFetch(n = 0)`. -/
inductive Look
  | columnInfo
  | fetchNone

inductive Use
  | look (look : Look)
  | fetch (request : Int)

def Look.perform : Look → Method DB Unit
  | .columnInfo => do
      let _ ← getColumnInfo cv
      pure ()
  | .fetchNone => do
      let _ ← wholeFetch cv 0
      pure ()

/-- What is seen of a result by one fetch. -/
structure Seen where
  frame : Outcome DataFrame
  complete : Bool
  nRowsFetched : Int32

/-- What the fetches among the uses show, whether or not one of them raises. -/
def seen : List Use → SqliteResultImpl DB → List Seen
  | [], _ => []
  | .look look :: uses, s => seen uses (endState ((look.perform cv).run s))
  | .fetch request :: uses, s =>
      let result := (wholeFetch cv request).run s
      ⟨outcomeOf result, (endState result).complete, (endState result).nRowsFetched⟩ ::
        seen uses (endState result)

/-- A ready result, whose parameters have been supplied. -/
structure InUse (s : SqliteResultImpl DB) : Prop where
  ready : s.ready = true
  count : s.params.length = s.nparams

theorem wholeFetch_run (s : SqliteResultImpl DB) (request : Int) :
    (wholeFetch cv request).run s = (DbResult.fetch cv (s.ahead.1.length + 1) request).run s :=
  rfl

theorem wholeFetch_none (s : SqliteResultImpl DB) (inUse : InUse s) :
    (wholeFetch cv 0).run s = .ok (s.peekedFrame cv) s.peeked := by
  rw [wholeFetch_run, fetch_none cv _ s inUse.ready]

theorem wholeFetch_rows (s : SqliteResultImpl DB) (inUse : InUse s) (request : Int)
    (asked : request ≠ 0) :
    (wholeFetch cv request).run s = fetchResult cv s (Chunked.piece request s.ahead.1)
      ((advance (Chunked.amount request s.ahead.1.length)).run s) := by
  rw [wholeFetch_run, fetch_advance cv _ s inUse.ready inUse.count request asked
    (Nat.lt_succ_self _)]

theorem fetch_rounds (fuel : Nat) (s : SqliteResultImpl DB) (inUse : InUse s) (request : Int)
    (enough : s.ahead.1.length < fuel) :
    (DbResult.fetch cv fuel request).run s = (wholeFetch cv request).run s := by
  by_cases asked : request = 0
  · subst asked
    rw [fetch_none cv fuel s inUse.ready, wholeFetch_none cv s inUse]
  · rw [fetch_advance cv fuel s inUse.ready inUse.count request asked enough,
      wholeFetch_rows cv s inUse request asked]

namespace SqliteResultImpl

/-- The rows that a fetch reads. One of no rows reads the shown one. -/
def reads (s : SqliteResultImpl DB) (request : Int) : List (Option Row) :=
  if request = 0 then s.shown else Chunked.piece request s.ahead.1

end SqliteResultImpl

section Shown

variable {cv}

end Shown

variable {cv}

variable (cv) in
theorem fetchedFrame_eq_iff (s : SqliteResultImpl DB) (types : List DataType)
    (length : types.length = s.types.length) (read : List (Option Row)) :
    s.fetchedFrame cv read = (s.withTypes types).fetchedFrame cv read ↔
      FramesAlike cv s.columnSource s.types types read := by
  have columns := frameColumns_eq_iff cv s.columnSource s.types types read length.symm
  constructor
  · exact fun same => columns.mp (congrArg DataFrame.columns same)
  · intro alike
    have warnings := frameWarnings_alike s.names length.symm alike
    change _ = DataFrame.mk s.names (frameColumns cv s.columnSource types read) read.length
      ((if s.complete ∧ types.length = 0 then [onlyForSelect] else []) ++
        frameWarnings cv s.columnSource types s.names read) read
    rw [fetchedFrame, columns.mpr alike, warnings, length]

variable (cv)

/-- A NULL and a number in a column that is declared with this type. -/
def declaredProgram (declType : Option Bytes) (cell : SqlValue) : Program Unit where
  columnNames := ["x"]
  declTypes := [declType]
  parameterNames := []
  exec _ _ := { rows := [[.null], [cell]], database := () }

end RSQLite
