import RSQLite.Bind.DbBind
import RSQLite.Connection.Engine
import RSQLite.Library.Ending

/-!
Executing a statement on a connection, and the transactions of `dbBegin()`,
`dbCommit()` and `dbRollback()`, plain or with the name of a savepoint.
-/
namespace RSQLite

open Savepoint Ending SqliteResultImpl

abbrev Call (DB : Type) := EStateM Fault (Connection DB)

variable {DB : Type} (engine : Engine DB)

/-- The number of rows affected, and the connection once the result is cleared. -/
def clearResult {α : Type} :
    EStateM.Result Fault (SqliteResultImpl (Connection DB)) α →
      EStateM.Result Fault (Connection DB) (Option Int32)
  | .ok _ r => .ok r.nRowsAffected r.handles.finalize.database
  | .error f r => .error f r.handles.finalize.database

/-- `dbSendQuery()`: the result is created, and its parameters are bound. Only differences of
the change counter are read, so that it can start at zero. -/
def sendProgram (program : Program (Connection DB))
    (bindParams : Method (Connection DB) (List String)) (s : Connection DB) :
    EStateM.Result Fault (SqliteResultImpl (Connection DB)) (List String) :=
  match create (Handles.prepare program s 0) false with
  | .ok _ r => bindParams.run r
  | .error f r => .error f r

/-- `dbExecute()` with parameters, which `dbBind()` passes on to the result. -/
def dbExecuteParams (sql : Sql) (bindParams : Method (Connection DB) (List String)) :
    Call DB (Option Int32) := fun s =>
  match prepareSql engine s sql with
  | .error message => .error (.stop message) s
  | .ok program => clearResult (sendProgram program bindParams s)

def dbExecute (sql : Sql) : Call DB (Option Int32) := dbExecuteParams engine sql (pure [])

/-- A name makes the transaction a savepoint. -/
def dbBegin (name : Option String) : Call DB Unit := do
  match name with
  | none => discard (dbExecute engine .begin)
  | some name => discard (dbExecute engine (.savepoint name))

def dbCommit (name : Option String) : Call DB Unit := do
  match name with
  | none => discard (dbExecute engine .commit)
  | some name => discard (dbExecute engine (.release name))

/-- `ROLLBACK TO` keeps the savepoint, so that it has to be released. -/
def dbRollback (name : Option String) : Call DB Unit := do
  match name with
  | none => discard (dbExecute engine .rollback)
  | some name => do
      discard (dbExecute engine (.rollbackTo name))
      discard (dbExecute engine (.release name))

/-- The process and ten random letters make the name of a savepoint unlikely to be taken. -/
def getSavepointId (name pid random : String) : String := name ++ "_" ++ pid ++ "_" ++ random

theorem ending_clearResult {α : Type}
    (result : EStateM.Result Fault (SqliteResultImpl (Connection DB)) α) :
    ending (clearResult result) = leaves result := by
  cases result with
  | ok a r | error f r =>
      rw [clearResult, Handles.finalize, Handles.reset_eq]
      rfl

theorem dbExecute_noParams (sql : Sql) (program : Program (Connection DB)) (s : Connection DB)
    (prepared : prepareSql engine s sql = .ok program) (quiet : Quiet program)
    (none : program.parameterNames = []) :
    ending ((dbExecute engine sql).run s) = runUntilFailure program s [.ok []] := by
  have created := create_quiet program s 0 false quiet none
  simp only [dbExecute, dbExecuteParams, EStateM.run, prepared]
  rw [ending_clearResult, ← created, sendProgram]
  cases create (Handles.prepare program s 0) false <;> rfl

theorem dbExecute_command (sql : Sql) (command : Connection DB → Option String × Connection DB)
    (s : Connection DB) (prepared : prepareSql engine s sql = .ok (commandProgram command)) :
    ending ((discard (dbExecute engine sql)).run s) =
      ((command s).1.map .stop, (command s).2) := by
  rw [ending_discard, dbExecute_noParams engine sql _ s prepared (commandProgram_quiet command) rfl]
  cases failure : (command s).1 with
  | none =>
      rw [runUntilFailure_done _ _ _ _ failure]
      rfl
  | some message =>
      rw [runUntilFailure_failed _ _ _ _ message failure]
      rfl

theorem dbBegin_named (name : String) (s : Connection DB) :
    ending ((dbBegin engine (some name)).run s) = (none, s.savepoint (foldCase name)) :=
  dbExecute_command engine (.savepoint name) (savepoint name) s rfl

theorem dbCommit_named (name : String) (s : Connection DB) :
    ending ((dbCommit engine (some name)).run s) =
      ((release engine name s).1.map .stop, (release engine name s).2) :=
  dbExecute_command engine (.release name) (release engine name) s rfl

/-- Whether a savepoint on this stack, opened on `saved`, can be released on `db`. -/
def Releases (k : Stack String DB) (saved db : DB) : Prop :=
  k.isOpen = true ∨ engine.commitError saved db = none

instance (k : Stack String DB) (saved db : DB) : Decidable (Releases engine k saved db) :=
  inferInstanceAs (Decidable (_ ∨ _))

variable (name : String) (k : Stack String DB) (saved db : DB)

theorem release_innermost (releases : Releases engine k saved db) :
    release engine name ⟨db, k.push (foldCase name) saved⟩ = (none, ⟨db, k⟩) := by
  rw [release, State.release_push]
  obtain opened | commits := releases
  · simp only [opened, ite_true]
  · cases opened : k.isOpen with
    | true => simp only [opened, ite_true]
    | false =>
        obtain rfl := k.eq_closed opened
        simp only [opened, Bool.false_eq_true, ite_false, commitTo, State.start_push,
          State.start_closed, commits]

theorem release_refused (refused : ¬ Releases engine k saved db) :
    ∃ message, release engine name ⟨db, k.push (foldCase name) saved⟩ =
      (some message, ⟨db, k.push (foldCase name) saved⟩) := by
  rw [Releases, not_or] at refused
  have closed := Bool.eq_false_of_not_eq_true refused.1
  obtain ⟨message, error⟩ := Option.ne_none_iff_exists'.mp refused.2
  obtain rfl := k.eq_closed closed
  refine ⟨message, ?_⟩
  rw [release, State.release_push]
  simp only [closed, Bool.false_eq_true, ite_false, commitTo, State.start_push,
    State.start_closed, error]

theorem dbCommit_innermost (releases : Releases engine k saved db) :
    ending ((dbCommit engine (some name)).run ⟨db, k.push (foldCase name) saved⟩) =
      (none, ⟨db, k⟩) := by
  rw [dbCommit_named, release_innermost engine name k saved db releases]
  rfl

theorem dbCommit_refused (refused : ¬ Releases engine k saved db) :
    ∃ message, ending ((dbCommit engine (some name)).run ⟨db, k.push (foldCase name) saved⟩) =
      (some (.stop message), ⟨db, k.push (foldCase name) saved⟩) := by
  obtain ⟨message, error⟩ := release_refused engine name k saved db refused
  refine ⟨message, ?_⟩
  rw [dbCommit_named, error]
  rfl

theorem dbRollback_to :
    ending ((dbRollback engine (some name)).run ⟨db, k.push (foldCase name) saved⟩) =
      ending ((dbCommit engine (some name)).run ⟨saved, k.push (foldCase name) saved⟩) := by
  have restored := dbExecute_command engine (.rollbackTo name) (rollbackTo name)
    ⟨db, k.push (foldCase name) saved⟩ rfl
  rw [rollbackTo, State.rollbackTo_push] at restored
  exact ending_bind _ _ _ _ _ restored (fun _ => rfl)

theorem dbRollback_closed :
    ending ((dbRollback engine (some name)).run ⟨db, .closed⟩) =
      (some (.stop (noSuchSavepoint name)), ⟨db, .closed⟩) :=
  ending_bind_error _ _ _ _ _
    (dbExecute_command engine (.rollbackTo name) (rollbackTo name) ⟨db, .closed⟩ rfl)

end RSQLite
