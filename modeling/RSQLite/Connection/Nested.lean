import RSQLite.Connection.Atomic
import RSQLite.Library.Nested

/-!
Nested transactions with names. Each of them is a savepoint that is on top again when
the transaction ends, so that a name never reaches further out than it should, even if
transactions around it have the same name.
-/
namespace RSQLite

open Savepoint Ending Nested

variable {DB : Type}

/-- `connection_in_transaction()`: SQLite is not in autocommit mode. -/
def sqliteIsTransacting (s : Connection DB) : Bool := s.stack.isOpen

/-- A call that returns and changes the content only. -/
structure Write (DB : Type) where
  call : Call DB Unit
  effect : DB → DB
  returns : ∀ s, ending (call.run s) = (none, s.withDb (effect s.db))

/-- What an execution leaves, whether it fails or not. -/
def Ended.remains {ε : Type} : Ended ε DB → DB
  | done db _ | failed _ db | rolledBack _ db => db

/-- `try(dbExecute(conn, statement))`. -/
def tryExecute (engine : Engine DB) (statement : Statement) : Call DB Unit := fun s =>
  .ok () (ending ((dbExecute engine (.data statement)).run s)).2

/-- What a statement without placeholders leaves of the content. -/
def executedOn (engine : Engine DB) (statement : Statement) (db : DB) : DB :=
  match engine.prepare statement db with
  | .error _ => db
  | .ok exec => (exec db []).remains

theorem tryExecute_ending (engine : Engine DB) (keeps : engine.KeepsTransaction)
    (statement : Statement) (noParams : statement.parameterCount = 0) (s : Connection DB) :
    ending ((tryExecute engine statement).run s) =
      (none, s.withDb (executedOn engine statement s.db)) := by
  change (none, (ending ((dbExecute engine (.data statement)).run s)).2) = _
  refine congrArg (Prod.mk none) ?_
  cases prepared : engine.prepare statement s.db with
  | error message =>
      have refused : prepareSql engine s (.data statement) = .error message := by
        rw [prepareSql, prepared]
        rfl
      simp only [dbExecute, dbExecuteParams, EStateM.run, refused, executedOn, prepared]
      rfl
  | ok exec =>
      have accepted : prepareSql engine s (.data statement) =
          .ok (dataProgram statement.parameterCount exec) := by
        rw [prepareSql, prepared]
        rfl
      rw [dbExecute_noParams engine _ _ s accepted (dataProgram_quiet _ exec)
        (by rw [noParams]; rfl), runUntilFailure_dataProgram, executedOn, prepared]
      cases once : exec s.db [] with
      | done db changes | failed message db =>
          simp only [execAll, once]
          rfl
      | rolledBack message db =>
          exact absurd once (keeps statement s.db exec s.db [] message db prepared)

/-- Any statement is a write, even one that fails, unless it rolls back what is open. -/
def Write.statement (engine : Engine DB) (keeps : engine.KeepsTransaction)
    (statement : Statement) (noParams : statement.parameterCount = 0) : Write DB where
  call := tryExecute engine statement
  effect := executedOn engine statement
  returns := tryExecute_ending engine keeps statement noParams

section Run

variable (engine : Engine DB)

def endTransaction (commits : Bool) (name : Option String) : Call DB Unit :=
  if commits then dbCommit engine name else dbRollback engine name

/-- Each transaction is opened by `dbBegin()` and ended by `dbCommit()` or `dbRollback()`
with its name. -/
def runNested : Forest String (Write DB) → Call DB Unit
  | .nil => pure ()
  | .write w rest => do
      w.call
      runNested rest
  | .transaction name commits body rest => do
      dbBegin engine (some name)
      runNested body
      endTransaction engine commits (some name)
      runNested rest

/-- The same inside of a plain transaction. -/
def runInTransaction (commits : Bool) (f : Forest String (Write DB)) : Call DB Unit := do
  dbBegin engine none
  runNested engine f
  endTransaction engine commits none

theorem ended_innermost (always : ∀ saved db, engine.commitError saved db = none)
    (name : String) (commits : Bool) (k : Stack String DB) (saved db : DB) :
    ending ((endTransaction engine commits (some name)).run ⟨db, k.push (foldCase name) saved⟩) =
      (none, ⟨if commits then db else saved, k⟩) := by
  have releases : ∀ now, Releases engine k saved now := fun now => Or.inr (always saved now)
  cases commits with
  | true => exact dbCommit_innermost engine name k saved db (releases db)
  | false =>
      rw [endTransaction, if_neg Bool.false_ne_true, if_neg Bool.false_ne_true, dbRollback_to]
      exact dbCommit_innermost engine name k saved saved (releases saved)

theorem runNested_ending (always : ∀ saved db, engine.commitError saved db = none)
    (f : Forest String (Write DB)) (s : Connection DB) :
    ending ((runNested engine f).run s) =
      (none, s.withDb (f.applySurvivors Write.effect s.db)) := by
  induction f generalizing s with
  | nil => rfl
  | write w rest ih =>
      refine ending_bind _ _ _ _ _ (w.returns s) (fun _ => ?_)
      rw [ih, Forest.applySurvivors_write]
      rfl
  | transaction name commits body rest ihBody ihRest =>
      refine ending_bind _ _ _ _ _ (dbBegin_named engine name s) (fun _ => ?_)
      refine ending_bind _ _ _ _ _ (ihBody _) (fun _ => ?_)
      refine ending_bind _ _ _ _ _ (ended_innermost engine always name commits s.stack s.db _)
        (fun _ => ?_)
      rw [ihRest, Forest.applySurvivors_transaction]
      rfl

theorem dbBegin_plain (s : Connection DB) (closed : s.stack.isOpen = false) :
    ending ((dbBegin engine none).run s) = (none, ⟨s.db, ⟨some s.db, []⟩⟩) := by
  have ran := dbExecute_command engine .begin begin s rfl
  rw [begin, closed] at ran
  exact ran

theorem ended_plain (always : ∀ saved db, engine.commitError saved db = none) (commits : Bool)
    (saved db : DB) :
    ending ((endTransaction engine commits none).run ⟨db, ⟨some saved, []⟩⟩) =
      (none, ⟨if commits then db else saved, .closed⟩) := by
  cases commits with
  | true =>
      have ran := dbExecute_command engine .commit (commit engine) ⟨db, ⟨some saved, []⟩⟩ rfl
      have released : commit engine ⟨db, ⟨some saved, []⟩⟩ = (none, ⟨db, .closed⟩) := by
        simp only [commit, commitTo, always]
        rfl
      rw [released] at ran
      exact ran
  | false => exact dbExecute_command engine .rollback rollback ⟨db, ⟨some saved, []⟩⟩ rfl

theorem runInTransaction_ending (always : ∀ saved db, engine.commitError saved db = none)
    (commits : Bool) (f : Forest String (Write DB)) (s : Connection DB)
    (closed : s.stack.isOpen = false) :
    ending ((runInTransaction engine commits f).run s) =
      (none, s.withDb (if commits then f.applySurvivors Write.effect s.db else s.db)) := by
  refine ending_bind _ _ _ _ _ (dbBegin_plain engine s closed) (fun _ => ?_)
  refine ending_bind _ _ _ _ _ (runNested_ending engine always f _) (fun _ => ?_)
  refine (ended_plain engine always commits s.db _).trans ?_
  rw [← s.stack.eq_closed closed]
  rfl

/-- Nested transactions keep exactly the writes of those that committed inside of
transactions that committed, and leave nothing open that was not open before. -/
theorem runNested_survivors (always : ∀ saved db, engine.commitError saved db = none)
    (f : Forest String (Write DB)) (s : Connection DB) :
    (∃ s', ending ((runNested engine f).run s) = (none, s') ∧
      s'.db = f.survivors.foldl (fun db w => w.effect db) s.db ∧ s'.stack = s.stack ∧
      sqliteIsTransacting s' = sqliteIsTransacting s) ∧
    (sqliteIsTransacting s = false → ∀ commits,
      ∃ s', ending ((runInTransaction engine commits f).run s) = (none, s') ∧
        s'.db = (if commits then f.survivors.foldl (fun db w => w.effect db) s.db else s.db) ∧
        s'.stack = s.stack ∧ sqliteIsTransacting s' = false) := by
  constructor
  · exact ⟨_, runNested_ending engine always f s, rfl, rfl, rfl⟩
  · intro closed commits
    exact ⟨_, runInTransaction_ending engine always commits f s closed, rfl, rfl, closed⟩

end Run

/-- A content is a list of tables, and nothing keeps it from being committed. -/
def tablesEngine : Engine (List String) where
  prepare statement _ := .ok (fun db _ => .done (db ++ [statement.table]) 0)
  existsTable name db := .ok (db.contains name)
  listFields _ _ := .ok []
  columnCount _ _ := .ok 0
  commitError _ _ := none

theorem tablesEngine_keeps : tablesEngine.KeepsTransaction := by
  intro statement prepared exec db values error db' accepted
  cases accepted
  intro ended
  cases ended

def creation (table : String) : Write (List String) :=
  .statement tablesEngine tablesEngine_keeps (.createTable table [] none) rfl

/-- Two transactions inside of one whose name differs from theirs by its case only. -/
def sameNames : Forest String (Write (List String)) :=
  .transaction "a" true
    (.write (creation "t1")
      (.transaction "A" false (.write (creation "t2") .nil)
        (.transaction "A" true (.write (creation "t3") .nil) (.write (creation "t4") .nil)))) .nil

theorem runNested_survivors_sameNames :
    ∃ s', ending ((runNested tablesEngine sameNames).run ⟨[], .closed⟩) = (none, s') ∧
      s'.db = ["t1", "t3", "t4"] ∧ s'.stack = .closed ∧ sqliteIsTransacting s' = false := by
  obtain ⟨⟨s', run, db, stack, transacting⟩, _⟩ :=
    runNested_survivors tablesEngine (fun _ _ => rfl) sameNames ⟨[], .closed⟩
  exact ⟨s', run, db, stack, transacting⟩

end RSQLite
