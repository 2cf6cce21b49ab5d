import RSQLite.Sqlite.Value

/-!
A prepared statement and the connection it runs on, as far as the driver sees
them. What one execution does is a parameter: `exec` gives the rows, the failure
after them, and the database and change counts that it leaves. The list of the
executions made so far is kept for the statements of properties only.
-/
namespace RSQLite

abbrev Row := List SqlValue

/-- One execution. Changes by triggers and foreign key actions are counted when
they are made, the statement's own changes when it halts. -/
structure Execution (DB : Type) where
  rows : List Row
  failure : Option String := none
  database : DB
  nested : Nat := 0
  own : Nat := 0

def Execution.changes {DB : Type} (e : Execution DB) : Nat := e.nested + e.own

structure Program (DB : Type) where
  columnNames : List String
  declTypes : List (Option Bytes)
  parameterNames : List (Option String)
  exec : DB → List SqlValue → Execution DB

/-- The state of the virtual machine. While it runs, a row is ready to be read. -/
inductive VdbeState
  | ready
  | run (current : Row) (rest : List Row) (failure : Option String) (own : Nat)
  | halt
deriving DecidableEq, Repr

inductive StepResult
  | row
  | done
  | error (message : String)
deriving DecidableEq, Repr

/-- The handles `conn` and `stmt` of a result. `sqlite3_total_changes()` is an
`int` and wraps. -/
structure Handles (DB : Type) where
  program : Program DB
  database : DB
  totalChanges : Int32
  bindings : List SqlValue
  vdbe : VdbeState
  executed : List (List SqlValue)

namespace Handles

variable {DB : Type}

def parameterCount (h : Handles DB) : Nat := h.program.parameterNames.length

def columnCount (h : Handles DB) : Nat := h.program.columnNames.length

/-- `sqlite3_prepare_v2()` on a connection with this database and change counter. -/
def prepare (program : Program DB) (database : DB) (totalChanges : Int32) : Handles DB where
  program := program
  database := database
  totalChanges := totalChanges
  bindings := List.replicate program.parameterNames.length .null
  vdbe := .ready
  executed := []

/-- Show the next row, or halt. -/
def emit (h : Handles DB) (failure : Option String) (own : Nat) :
    List Row → StepResult × Handles DB
  | row :: rest => (.row, { h with vdbe := .run row rest failure own })
  | [] =>
      let halted := { h with vdbe := .halt, totalChanges := h.totalChanges + Int32.ofNat own }
      match failure with
      | none => (.done, halted)
      | some message => (.error message, halted)

/-- The statement runs on the current bindings. All changes are made at once. -/
def execute (h : Handles DB) : Handles DB :=
  let e := h.program.exec h.database h.bindings
  { h with
    database := e.database
    totalChanges := h.totalChanges + Int32.ofNat e.nested
    executed := h.executed ++ [h.bindings] }

/-- A halted statement is reset and runs again. -/
def step (h : Handles DB) : StepResult × Handles DB :=
  match h.vdbe with
  | .run _ rest failure own => h.emit failure own rest
  | .ready | .halt =>
      let e := h.program.exec h.database h.bindings
      h.execute.emit e.failure e.own e.rows

def reset (h : Handles DB) : Handles DB :=
  match h.vdbe with
  | .run _ _ _ own =>
      { h with vdbe := .ready, totalChanges := h.totalChanges + Int32.ofNat own }
  | .ready | .halt => { h with vdbe := .ready }

def withBindings (h : Handles DB) (bindings : List SqlValue) : Handles DB :=
  { h with bindings := bindings }

def clearBindings (h : Handles DB) : Handles DB :=
  h.withBindings (List.replicate h.parameterCount .null)

/-- Parameters are numbered from 1; a running or halted statement refuses. -/
def bind (h : Handles DB) (j : Nat) (value : SqlValue) : Handles DB :=
  if h.vdbe = .ready ∧ 0 < j then h.withBindings (h.bindings.set (j - 1) value) else h

/-- The row that the column accessors read, if there is one. -/
def current (h : Handles DB) : Option Row :=
  match h.vdbe with
  | .run current _ _ _ => some current
  | .ready | .halt => none

/-- The accessors yield NULL without a row. -/
def columnValue (h : Handles DB) (j : Nat) : SqlValue := (h.current.getD []).getD j .null

/-- Changes that will be counted when the running statement halts. -/
def uncounted (h : Handles DB) : Int32 :=
  match h.vdbe with
  | .run _ _ _ own => Int32.ofNat own
  | .ready | .halt => 0

/-- `sqlite3_finalize()`, as far as the connection is concerned. -/
def finalize (h : Handles DB) : Handles DB := h.reset

@[simp] theorem execute_database (h : Handles DB) :
    h.execute.database = (h.program.exec h.database h.bindings).database := rfl

@[simp] theorem withBindings_program (h : Handles DB) (b : List SqlValue) :
    (h.withBindings b).program = h.program := rfl

@[simp] theorem withBindings_vdbe (h : Handles DB) (b : List SqlValue) :
    (h.withBindings b).vdbe = h.vdbe := rfl

@[simp] theorem withBindings_bindings (h : Handles DB) (b : List SqlValue) :
    (h.withBindings b).bindings = b := rfl

@[simp] theorem withBindings_withBindings (h : Handles DB) (b b' : List SqlValue) :
    (h.withBindings b).withBindings b' = h.withBindings b' := rfl

theorem clearBindings_eq (h : Handles DB) :
    h.clearBindings = h.withBindings (List.replicate h.parameterCount .null) := rfl

theorem reset_eq (h : Handles DB) :
    h.reset = { h with vdbe := .ready, totalChanges := h.totalChanges + h.uncounted } := by
  cases hv : h.vdbe with
  | run current rest failure own => simp only [reset, uncounted, hv]
  | ready | halt => simp only [reset, uncounted, hv, Int32.add_zero]

end Handles

end RSQLite
