import RSQLite.Library.Savepoint
import RSQLite.Result.Quiet

/-!
A connection is a database and what is open on it. The transaction commands are
SQLite's; what a statement on a table does to the database is a parameter.
-/
namespace RSQLite

open Savepoint

abbrev Connection (DB : Type) := Savepoint.State String DB

/-- How the executions of a statement end. A failure can leave changes behind, or make
SQLite roll back everything that is open; `db` is what remains if nothing is. -/
inductive Ended (ε DB : Type)
  | done (db : DB) (changes : Nat)
  | failed (error : ε) (db : DB)
  | rolledBack (error : ε) (db : DB)
deriving DecidableEq, Repr

/-- The statements on a table that writing it sends. A flag can be `NA`. -/
inductive Statement
  | dropTable (table : String)
  | createTable (table : String) (fields : List (String × String)) (temporary : Option Bool)
  | insert (table : String) (columns : List String)
  | insertValues (table : String) (count : Nat)
deriving DecidableEq, Repr

namespace Statement

def table : Statement → String
  | dropTable table | createTable table _ _ | insert table _ | insertValues table _ => table

def parameterCount : Statement → Nat
  | dropTable _ | createTable _ _ _ => 0
  | insert _ columns => columns.length
  | insertValues _ count => count

end Statement

/-- What SQLite does with the content of a database. `prepare` refuses a statement or
gives its executions, `columnCount` is that of a `SELECT *`, and `commitError` is why
what is open cannot be committed, given the database at its start and now. -/
structure Engine (DB : Type) where
  prepare : Statement → DB → Except String (DB → List SqlValue → Ended String DB)
  existsTable : String → DB → Except String Bool
  listFields : String → DB → Except String (List String)
  columnCount : String → DB → Except String Nat
  commitError : DB → DB → Option String

inductive Sql
  | begin
  | commit
  | rollback
  | savepoint (name : String)
  | rollbackTo (name : String)
  | release (name : String)
  | data (statement : Statement)
deriving DecidableEq, Repr

variable {DB : Type}

/-- `sqlite3StrICmp()` ignores the case of ASCII letters. -/
def foldCase (name : String) : String := String.ofList (name.toList.map Char.toLower)

def noSuchSavepoint (name : String) : String := "no such savepoint: " ++ name

/-- The outermost release, and `COMMIT`. A commit that fails leaves everything open. -/
def commitTo (engine : Engine DB) (s s' : Connection DB) : Option String × Connection DB :=
  match engine.commitError s.start s.db with
  | none => (none, s')
  | some message => (some message, s)

def begin (s : Connection DB) : Option String × Connection DB :=
  if s.stack.isOpen then (some "cannot start a transaction within a transaction", s)
  else (none, ⟨s.db, ⟨some s.db, []⟩⟩)

def commit (engine : Engine DB) (s : Connection DB) : Option String × Connection DB :=
  if s.stack.isOpen then commitTo engine s ⟨s.db, .closed⟩
  else (some "cannot commit - no transaction is active", s)

def rollback (s : Connection DB) : Option String × Connection DB :=
  if s.stack.isOpen then (none, s.abandoned)
  else (some "cannot rollback - no transaction is active", s)

def savepoint (name : String) (s : Connection DB) : Option String × Connection DB :=
  (none, s.savepoint (foldCase name))

def rollbackTo (name : String) (s : Connection DB) : Option String × Connection DB :=
  match s.rollbackTo (foldCase name) with
  | none => (some (noSuchSavepoint name), s)
  | some s' => (none, s')

/-- Releasing a savepoint that nothing is open around is a commit. -/
def release (engine : Engine DB) (name : String) (s : Connection DB) :
    Option String × Connection DB :=
  match s.release (foldCase name) with
  | none => (some (noSuchSavepoint name), s)
  | some s' => if s'.stack.isOpen then (none, s') else commitTo engine s s'

/-- A transaction command as a statement without parameters. -/
def commandProgram (command : Connection DB → Option String × Connection DB) :
    Program (Connection DB) where
  columnNames := []
  declTypes := []
  parameterNames := []
  exec s _ := { rows := [], failure := (command s).1, database := (command s).2 }

def Ended.onConnection {ε : Type} (s : Connection DB) :
    Ended ε DB → Option ε × Connection DB
  | done db _ => (none, s.withDb db)
  | failed error db => (some error, s.withDb db)
  | rolledBack error db => (some error, (s.withDb db).abandoned)

def Ended.changes {ε : Type} : Ended ε DB → Nat
  | done _ changes => changes
  | failed _ _ | rolledBack _ _ => 0

/-- A statement on a table, with anonymous placeholders. -/
def dataProgram (count : Nat) (exec : DB → List SqlValue → Ended String DB) :
    Program (Connection DB) where
  columnNames := []
  declTypes := []
  parameterNames := List.replicate count none
  exec s values :=
    let ended := (exec s.db values).onConnection s
    { rows := []
      failure := ended.1
      database := ended.2
      own := (exec s.db values).changes }

/-- `sqlite3_prepare_v2()`. -/
def prepareSql (engine : Engine DB) (s : Connection DB) :
    Sql → Except String (Program (Connection DB))
  | .begin => .ok (commandProgram begin)
  | .commit => .ok (commandProgram (commit engine))
  | .rollback => .ok (commandProgram rollback)
  | .savepoint name => .ok (commandProgram (savepoint name))
  | .rollbackTo name => .ok (commandProgram (rollbackTo name))
  | .release name => .ok (commandProgram (release engine name))
  | .data statement => (engine.prepare statement s.db).map (dataProgram statement.parameterCount)

theorem commandProgram_quiet (command : Connection DB → Option String × Connection DB) :
    Quiet (commandProgram command) := fun _ _ => rfl

theorem dataProgram_quiet (count : Nat) (exec : DB → List SqlValue → Ended String DB) :
    Quiet (dataProgram count exec) := fun _ _ => rfl

/-- The executions of a statement on a list of parameter rows, as far as the content of
the database is concerned. -/
def execAll (exec : DB → List SqlValue → Ended String DB) :
    DB → List (Outcome (List SqlValue)) → Ended Fault DB
  | db, [] => .done db 0
  | db, .error f :: _ => .failed f db
  | db, .ok values :: rest =>
      match exec db values with
      | .done db' _ => execAll exec db' rest
      | .failed message db' => .failed (.stop message) db'
      | .rolledBack message db' => .rolledBack (.stop message) db'

theorem dataProgram_failure (count : Nat) (exec : DB → List SqlValue → Ended String DB)
    (s : Connection DB) (values : List SqlValue) :
    ((dataProgram count exec).exec s values).failure = ((exec s.db values).onConnection s).1 := rfl

theorem dataProgram_database (count : Nat) (exec : DB → List SqlValue → Ended String DB)
    (s : Connection DB) (values : List SqlValue) :
    ((dataProgram count exec).exec s values).database = ((exec s.db values).onConnection s).2 := rfl

/-- On a connection the content changes as it does alone, and what is open stays open
unless SQLite rolls it back. -/
theorem runUntilFailure_dataProgram (count : Nat)
    (exec : DB → List SqlValue → Ended String DB) (rows : List (Outcome (List SqlValue)))
    (s : Connection DB) :
    runUntilFailure (dataProgram count exec) s rows = (execAll exec s.db rows).onConnection s := by
  induction rows generalizing s with
  | nil => rfl
  | cons row rest ih =>
      cases row with
      | error f => rfl
      | ok values =>
          have failure := dataProgram_failure count exec s values
          have database := dataProgram_database count exec s values
          cases ended : exec s.db values with
          | done db changes =>
              rw [ended] at failure database
              rw [runUntilFailure_done _ _ _ _ failure, database, ih, execAll, ended]
              change (execAll exec db rest).onConnection (s.withDb db) =
                (execAll exec db rest).onConnection s
              cases execAll exec db rest <;> rfl
          | failed message db | rolledBack message db =>
              rw [ended] at failure database
              rw [runUntilFailure_failed _ _ _ _ message failure, database, execAll, ended]
              rfl

end RSQLite
