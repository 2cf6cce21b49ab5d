import RSQLite.Connection.WriteTable
import RSQLite.Library.Invariant

/-!
Writing a table is atomic. Inside its savepoint, every step leaves what is open as it
is, whether it returns or raises, so that the handler finds the savepoint on top. What
the steps change is changed by statements on the named table.
-/
namespace RSQLite

open Savepoint Ending Invariant SqliteResultImpl

variable {DB χ : Type}

/-- No failure makes SQLite roll back everything that is open by itself. -/
def Engine.KeepsTransaction (engine : Engine DB) : Prop :=
  ∀ statement prepared exec db values error db', engine.prepare statement prepared = .ok exec →
    exec db values ≠ .rolledBack error db'

/-- The database has been changed by executions of statements on this table only. -/
inductive ChangedBy (engine : Engine DB) (table : String) (db : DB) : DB → Prop
  | unchanged : ChangedBy engine table db db
  | executed (db' db'' prepared : DB) (statement : Statement)
      (exec : DB → List SqlValue → Ended String DB) (values : List SqlValue) (changes : Nat)
      (before : ChangedBy engine table db db') (named : statement.table = table)
      (accepted : engine.prepare statement prepared = .ok exec)
      (done : exec db' values = .done db'' changes) : ChangedBy engine table db db''

/-- What no statement on the table changes when it succeeds, such as the content of another
table that no trigger or foreign key action writes to, is unchanged. -/
theorem ChangedBy.unrelated {β : Type} {engine : Engine DB} {table : String} {db db' : DB}
    (changed : ChangedBy engine table db db') (view : DB → β)
    (keeps : ∀ (statement : Statement) (prepared : DB)
      (exec : DB → List SqlValue → Ended String DB) (db₁ db₂ : DB) (values : List SqlValue)
      (changes : Nat), statement.table = table → engine.prepare statement prepared = .ok exec →
        exec db₁ values = .done db₂ changes → view db₂ = view db₁) : view db' = view db := by
  induction changed with
  | unchanged => rfl
  | executed db' db'' prepared statement exec values changes _ named accepted done ih =>
      exact (keeps statement prepared exec db' db'' values changes named accepted done).trans ih

theorem ChangedBy.inserted {engine : Engine DB} {table : String} {db db' db'' : DB}
    {statement : Statement} {prepared : DB} {exec : DB → List SqlValue → Ended String DB}
    {rows : List (List SqlValue)} (before : ChangedBy engine table db db')
    (named : statement.table = table) (accepted : engine.prepare statement prepared = .ok exec)
    (inserted : Inserted exec db' rows db'') : ChangedBy engine table db db'' := by
  induction inserted with
  | nil db' => exact before
  | cons db' db₁ db'' values rest changes first _ ih =>
      exact ih (.executed db' db₁ prepared statement exec values changes before named accepted
        first)

/-- The state inside a savepoint: what is open is `k`, and the content has changed from
`db` by statements on the table. -/
structure Inside (engine : Engine DB) (table : String) (k : Stack String DB) (db : DB)
    (t : Connection DB) : Prop where
  stack : t.stack = k
  changed : ChangedBy engine table db t.db

def Stacked (k : Stack String DB) (t : Connection DB) : Prop := t.stack = k

section Rules

variable {engine : Engine DB} {table : String} {k : Stack String DB} {db : DB}

theorem Inside.stacked (t : Connection DB) (inside : Inside engine table k db t) : Stacked k t :=
  inside.stack

theorem execAll_rolledBack (exec : DB → List SqlValue → Ended String DB)
    (rows : List (Outcome (List SqlValue))) (db db' : DB) (f : Fault)
    (ended : execAll exec db rows = .rolledBack f db') :
    ∃ db values error db', exec db values = .rolledBack error db' := by
  induction rows generalizing db with
  | nil => cases ended
  | cons row rest ih =>
      cases row with
      | error f => cases ended
      | ok values =>
          rw [execAll] at ended
          cases first : exec db values with
          | done db'' changes =>
              rw [first] at ended
              exact ih db'' ended
          | failed message db'' =>
              rw [first] at ended
              cases ended
          | rolledBack message db'' => exact ⟨db, values, message, db'', first⟩

theorem inside_execAll (keeps : engine.KeepsTransaction) (statement : Statement) (prepared : DB)
    (exec : DB → List SqlValue → Ended String DB) (rows : List (Outcome (List SqlValue)))
    (t : Connection DB) (inside : Inside engine table k db t) (named : statement.table = table)
    (accepted : engine.prepare statement prepared = .ok exec) :
    Ends (Inside engine table k db) (Stacked k) ((execAll exec t.db rows).onConnection t) := by
  cases ended : execAll exec t.db rows with
  | done db' changes =>
      obtain ⟨values, _, inserted⟩ := inserted_of_execAll exec rows t.db db' changes ended
      exact ⟨inside.stack, inside.changed.inserted named accepted inserted⟩
  | failed f db' => exact inside.stack
  | rolledBack f db' =>
      obtain ⟨db₁, values, error, db₂, rolledBack⟩ := execAll_rolledBack exec rows t.db db' f ended
      exact absurd rolledBack
        (keeps statement prepared exec db₁ values error db₂ accepted)

theorem kept_execute (keeps : engine.KeepsTransaction) (statement : Statement)
    (named : statement.table = table) (none : statement.parameterCount = 0) :
    Kept (Inside engine table k db) (Stacked k)
      (discard (dbExecute engine (.data statement))) := by
  refine kept_discard _ (fun t inside => ?_)
  cases prepared : engine.prepare statement t.db with
  | error message =>
      have refused : prepareSql engine t (.data statement) = .error message := by
        rw [prepareSql, prepared]
        rfl
      simp only [dbExecute, dbExecuteParams, EStateM.run, refused]
      exact inside.stack
  | ok exec =>
      have accepted : prepareSql engine t (.data statement) =
          .ok (dataProgram statement.parameterCount exec) := by
        rw [prepareSql, prepared]
        rfl
      rw [dbExecute_noParams engine _ _ t accepted (dataProgram_quiet _ exec)
        (by rw [none]; rfl), runUntilFailure_dataProgram]
      exact inside_execAll keeps statement t.db exec _ t inside named prepared

theorem appended_rolledBack (strings : Strings χ) (keeps : engine.KeepsTransaction)
    (name : String) (value : Frame χ) (db db' : DB) (f : Fault) :
    appended engine strings name value db ≠ .rolledBack f db' := by
  intro ended
  rw [appended] at ended
  cases prepared : engine.prepare (.insert name value.names) db with
  | error message =>
      rw [prepared] at ended
      cases ended
  | ok exec =>
      have never : ∀ rows f db', execAll exec db rows ≠ .rolledBack f db' := by
        intro rows f db' rolledBack
        obtain ⟨db₁, values, error, db₂, one⟩ := execAll_rolledBack exec rows db db' f rolledBack
        exact keeps _ db exec db₁ values error db₂ prepared one
      rw [prepared] at ended
      by_cases some : value.columns.isEmpty
      · simp only [some, ite_true] at ended
        cases once : execAll exec db [.ok []] with
        | done _ _ | failed _ _ =>
            rw [once] at ended
            cases ended
        | rolledBack f db' => exact never _ _ _ once
      · simp only [some, Bool.false_eq_true, ite_false] at ended
        exact never _ _ _ ended

theorem kept_appendTable (strings : Strings χ) (keeps : engine.KeepsTransaction)
    (opened : k.isOpen = true) (pid random : String) (value : Frame χ) :
    Kept (Inside engine table k db) (Stacked k)
      (dbAppendTable engine strings pid random table value) := by
  intro t inside
  have releases : ∀ saved now, Releases engine t.stack saved now := by
    rw [inside.stack]
    exact fun _ _ => Or.inl opened
  cases ended : appended engine strings table value t.db with
  | done db' changes =>
      rw [(dbAppendTable_done engine strings pid random table value t db' changes ended).1
        (releases _ _)]
      obtain ⟨exec, rows, accepted, _, _, inserted⟩ :=
        appended_done engine strings table value t.db db' changes ended
      exact ⟨inside.stack, inside.changed.inserted rfl accepted inserted⟩
  | failed f db' =>
      rw [(dbAppendTable_failed engine strings pid random table value t f db' ended).1
        (releases _ _)]
      exact inside.stack
  | rolledBack f db' =>
      exact absurd ended (appended_rolledBack strings keeps table value t.db db' f)

theorem kept_liftR {α : Type} (x : Except String α) :
    Kept (Inside engine table k db) (Stacked k) (liftR x) := by
  cases x with
  | ok a => exact kept_pure a
  | error message => exact kept_throw _ Inside.stacked

theorem kept_condition (x : Logical) :
    Kept (Inside engine table k db) (Stacked k) (condition x) := by
  cases x with
  | some value => exact kept_pure value
  | none => exact kept_throw _ Inside.stacked

theorem kept_query {α : Type} (read : DB → Except String α) :
    Kept (Inside engine table k db) (Stacked k) (query read) :=
  kept_bind _ _ kept_get (fun s => kept_liftR (read s.db))

end Rules

section Import

variable {engine : Engine DB} {table : String} {k : Stack String DB} {db : DB} {nCol : Nat}
  {exec : DB → List SqlValue → Ended String DB}

/-- The import between two lines. -/
structure Importing (engine : Engine DB) (table : String) (k : Stack String DB) (db : DB)
    (nCol : Nat) (exec : DB → List SqlValue → Ended String DB) (h : Handles (Connection DB)) :
    Prop where
  program : h.program = dataProgram nCol exec
  hidden : h.current = none
  inside : Inside engine table k db h.database

def HandlesStacked (k : Stack String DB) (h : Handles (Connection DB)) : Prop :=
  Stacked k h.database

theorem Importing.stacked (h : Handles (Connection DB))
    (importing : Importing engine table k db nCol exec h) : HandlesStacked k h :=
  importing.inside.stack

theorem importing_bind (h : Handles (Connection DB)) (j : Nat) (value : SqlValue)
    (importing : Importing engine table k db nCol exec h) :
    Importing engine table k db nCol exec (h.bind j value) := by
  rw [Handles.bind]
  split
  · exact ⟨importing.program, importing.hidden, importing.inside⟩
  · exact importing

theorem importing_bindTexts (texts : List Bytes) (i : Nat) (h : Handles (Connection DB))
    (importing : Importing engine table k db nCol exec h) :
    Importing engine table k db nCol exec (bindTexts i texts h) := by
  induction texts generalizing i h with
  | nil => exact importing
  | cons text texts ih => exact ih (i + 1) _ (importing_bind h _ _ importing)

/-- A row is shown by no step of the `INSERT`. -/
theorem kept_importRow (keeps : engine.KeepsTransaction) (statement : Statement) (prepared : DB)
    (named : statement.table = table) (accepted : engine.prepare statement prepared = .ok exec)
    (texts : List Bytes) :
    Kept (Importing engine table k db nCol exec) (HandlesStacked k) (importRow texts) := by
  refine kept_bind _ _ (kept_modify _ (importing_bindTexts texts 0)) (fun _ h importing => ?_)
  have stepped := step_hidden h importing.hidden
  rw [importing.program, dataProgram_quiet nCol exec] at stepped
  rw [EStateM.run_bind, EStateM.run_get]
  simp only
  rw [EStateM.run_bind, EStateM.run_set, stepped]
  simp only
  have failure := dataProgram_failure nCol exec h.database h.bindings
  have database : h.execute.database =
      ((exec h.database.db h.bindings).onConnection h.database).2 := by
    rw [Handles.execute_database, importing.program, dataProgram_database]
  rw [failure]
  cases ended : exec h.database.db h.bindings with
  | done db' changes =>
      rw [ended] at database
      refine ⟨importing.program, rfl, ?_⟩
      change Inside engine table k db h.execute.database
      rw [database]
      exact ⟨importing.inside.stack, .executed _ _ prepared statement exec _ changes
        importing.inside.changed named accepted ended⟩
  | failed message db' =>
      rw [ended] at database
      change Stacked k h.execute.database
      rw [database]
      exact importing.inside.stack
  | rolledBack message db' =>
      exact absurd ended (keeps statement prepared exec _ _ message db' accepted)

theorem kept_importLine (keeps : engine.KeepsTransaction) (statement : Statement) (prepared : DB)
    (named : statement.table = table) (accepted : engine.prepare statement prepared = .ok exec)
    (zFile : String) (separator : Bytes) (lineno : Nat) (line : Bytes) :
    Kept (Importing engine table k db nCol exec) (HandlesStacked k)
      (importLine zFile separator nCol lineno line) := by
  rw [importLine]
  generalize splitLine separator nCol line 0 0 [] [] = split
  exact kept_ite _ _ _ (kept_throw _ Importing.stacked)
    (kept_importRow keeps statement prepared named accepted split.2)

theorem kept_importLoop (keeps : engine.KeepsTransaction) (statement : Statement) (prepared : DB)
    (named : statement.table = table) (accepted : engine.prepare statement prepared = .ok exec)
    (memory : Nat → Nat → UInt8) (zFile : String) (separator eol : Bytes) (skip : Int)
    (rounds : Nat) :
    ∀ lineno file, Kept (Importing engine table k db nCol exec) (HandlesStacked k)
      (importLoop memory zFile separator eol skip nCol rounds lineno file) := by
  induction rounds with
  | zero => exact fun _ _ => kept_throw _ Importing.stacked
  | succ rounds ih =>
      intro lineno file
      rw [importLoop]
      split
      · exact kept_throw _ Importing.stacked
      · exact kept_pure ()
      · refine kept_bind _ _ (kept_ite _ _ _ (kept_pure ()) ?_) (fun _ => ih _ _)
        exact kept_importLine keeps statement prepared named accepted zFile separator _ _

theorem kept_import (keeps : engine.KeepsTransaction) (memory : Nat → Nat → UInt8)
    (zFile : String) (contents : Option Bytes) (separator eol : Bytes) (skip : Int) :
    Kept (Inside engine table k db) (Stacked k)
      (rsSqliteImport engine memory table zFile contents separator eol skip) := by
  intro t inside
  simp only [rsSqliteImport, EStateM.run]
  split
  · exact inside.stack
  · split
    · exact inside.stack
    · next nCol columns =>
        split
        · exact inside
        · cases prepared : engine.prepare (.insertValues table nCol) t.db with
          | error message =>
              rw [prepareSql, prepared]
              exact inside.stack
          | ok exec =>
              rw [prepareSql, prepared]
              cases contents with
              | none => exact inside.stack
              | some file =>
                  have ran := kept_importLoop keeps (.insertValues table nCol) t.db rfl prepared
                    memory zFile separator eol skip (file.length + 1) 0 file
                    (Handles.prepare (dataProgram nCol exec) t 0) ⟨rfl, rfl, inside⟩
                  rw [EStateM.run] at ran
                  simp only [Except.map]
                  change Ends _ _ (ending (finalizeImport (importLoop memory zFile separator eol
                    skip nCol (file.length + 1) 0 file
                    (Handles.prepare (dataProgram nCol exec) t 0))))
                  cases result : importLoop memory zFile separator eol skip nCol (file.length + 1)
                      0 file (Handles.prepare (dataProgram nCol exec) t 0) with
                  | ok a h =>
                      rw [result] at ran
                      rw [finalizeImport, Handles.finalize, Handles.reset_eq]
                      exact ran.inside
                  | error f h =>
                      rw [result] at ran
                      rw [finalizeImport, Handles.finalize, Handles.reset_eq]
                      exact ran

end Import

section Steps

variable (session : Session DB χ) {table : String} {k : Stack String DB} {db : DB}

theorem kept_stopIf (x : Bool) (message : String) :
    Kept (Inside session.engine table k db) (Stacked k) (stopIf x message) :=
  kept_ite _ _ _ (kept_throw _ Inside.stacked) (kept_pure ())

theorem kept_replaceTable (keeps : session.engine.KeepsTransaction) (found : Bool)
    (overwrite append : Logical) :
    Kept (Inside session.engine table k db) (Stacked k)
      (replaceTable session table found overwrite append) := by
  refine kept_bind _ _ (kept_condition _) (fun refused => ?_)
  refine kept_bind _ _ (kept_stopIf session refused _) (fun _ => ?_)
  refine kept_bind _ _ (kept_condition _) (fun dropped => ?_)
  exact kept_ite _ _ _ (kept_execute keeps (.dropTable table) rfl rfl) (kept_pure ())

theorem kept_createTable (keeps : session.engine.KeepsTransaction)
    (fields : List (String × String)) (temporary : Logical) :
    Kept (Inside session.engine table k db) (Stacked k)
      (dbCreateTable session table fields temporary) :=
  kept_execute keeps (.createTable table fields temporary) rfl rfl

theorem kept_createOrMatch (keeps : session.engine.KeepsTransaction) (value : Frame χ)
    (created : Bool) (a : CheckedArguments) :
    Kept (Inside session.engine table k db) (Stacked k)
      (createOrMatch session table value created a) := by
  refine kept_ite _ _ _ ?_ (kept_ite _ _ _ ?_ (kept_pure value))
  · refine kept_bind _ _ (kept_liftR _) (fun _ => ?_)
    refine kept_bind _ _ (kept_liftR _) (fun fields => ?_)
    exact kept_bind _ _ (kept_createTable session keeps fields a.temporary)
      (fun _ => kept_pure value)
  · refine kept_bind _ _ (kept_query _) (fun colNames => ?_)
    exact kept_bind _ _ (kept_liftR _) (fun _ => kept_pure _)

theorem kept_writeFrame (keeps : session.engine.KeepsTransaction) (opened : k.isOpen = true)
    (pid random : String) (value : Frame χ) (a : CheckedArguments) :
    Kept (Inside session.engine table k db) (Stacked k)
      (writeFrame session pid random table value a) := by
  refine kept_bind _ _ (kept_query _) (fun found => ?_)
  refine kept_bind _ _ (kept_replaceTable session keeps found _ _) (fun _ => ?_)
  refine kept_bind _ _ (kept_liftR _) (fun value => ?_)
  refine kept_bind _ _ (kept_createOrMatch session keeps value _ a) (fun value => ?_)
  refine kept_ite _ _ _ (kept_discard _ ?_) (kept_pure ())
  exact kept_appendTable session.strings keeps opened pid random value

theorem kept_createForFile (keeps : session.engine.KeepsTransaction) (path : String)
    (created : Bool) (a : FileArguments) :
    Kept (Inside session.engine table k db) (Stacked k)
      (createForFile session table path created a) := by
  refine kept_ite _ _ _ (kept_bind _ _ (kept_liftR _) (fun fields => ?_)) (kept_pure ())
  exact kept_createTable session keeps fields a.temporary

theorem kept_writeFile (keeps : session.engine.KeepsTransaction) (path : String)
    (a : FileArguments) :
    Kept (Inside session.engine table k db) (Stacked k) (writeFile session table path a) := by
  refine kept_bind _ _ (kept_query _) (fun found => ?_)
  refine kept_bind _ _ (kept_replaceTable session keeps found _ _) (fun _ => ?_)
  refine kept_bind _ _ (kept_condition _) (fun created => ?_)
  refine kept_bind _ _ (kept_createForFile session keeps path created a) (fun _ => ?_)
  exact kept_discard _ (kept_import keeps session.memory path _ a.sep a.eol _)

end Steps

section Atomic

variable (session : Session DB χ)

/-- A call that raises leaves the connection as it was; one that returns leaves what is
open as it was, and changes the content by statements on the table only. -/
def Atomic (engine : Engine DB) (name : String) (s : Connection DB) :
    Option Fault × Connection DB → Prop :=
  Ends (fun s' => s'.stack = s.stack ∧ ChangedBy engine name s.db s'.db) (fun s' => s' = s)

theorem rollback_restores (savepointId : String) (s t : Connection DB)
    (restored : Releases session.engine s.stack s.db s.db)
    (stacked : Stacked (s.stack.push (foldCase savepointId) s.db) t) :
    ending ((dbRollback session.engine (some savepointId)).run t) = (none, s) := by
  cases t with
  | mk db stack =>
      obtain rfl := stacked
      rw [dbRollback_to, dbCommit_innermost session.engine savepointId s.stack s.db s.db restored]

theorem inSavepoint_atomic (savepointId name : String) (body : Call DB Unit) (s : Connection DB)
    (restored : Releases session.engine s.stack s.db s.db)
    (kept : ∀ k : Stack String DB, k.isOpen = true →
      Kept (Inside session.engine name k s.db) (Stacked k) body) :
    Atomic session.engine name s (ending ((inSavepoint session savepointId body).run s)) := by
  have ended := kept _ (s.stack.push_isOpen (foldCase savepointId) s.db)
    (s.savepoint (foldCase savepointId)) ⟨rfl, .unchanged⟩
  have begun := dbBegin_named session.engine savepointId s
  -- the commit is the last step that can raise, and the handler is still there
  have raises : ∀ f t, Stacked (s.stack.push (foldCase savepointId) s.db) t →
      ending ((do
        body
        dbCommit session.engine (some savepointId) : Call DB Unit).run
          (s.savepoint (foldCase savepointId))) = (some f, t) →
      Atomic session.engine name s (ending ((inSavepoint session savepointId body).run s)) := by
    intro f t stacked raised
    have handled := onExit_error (dbRollback session.engine (some savepointId)) _ _ _ _ raised
    rw [rollback_restores session savepointId s t restored stacked] at handled
    rw [inSavepoint, ending_bind _ _ _ _ _ begun (fun _ => handled)]
    rfl
  generalize ran : ending (body.run (s.savepoint (foldCase savepointId))) = result at ended
  obtain ⟨_ | f, t⟩ := result
  · cases t with
    | mk db stack =>
        obtain ⟨rfl, changed⟩ := ended
        by_cases releases : Releases session.engine s.stack s.db db
        · have committed := dbCommit_innermost session.engine savepointId s.stack s.db db releases
          have returned := onExit_ok (dbRollback session.engine (some savepointId)) _ _ _
            (ending_bind _ _ _ _ _ ran (fun _ => committed))
          rw [inSavepoint, ending_bind _ _ _ _ _ begun (fun _ => returned)]
          exact ⟨rfl, changed⟩
        · obtain ⟨message, refused⟩ :=
            dbCommit_refused session.engine savepointId s.stack s.db db releases
          exact raises (.stop message) ⟨db, s.stack.push (foldCase savepointId) s.db⟩ rfl
            (ending_bind _ _ _ _ _ ran (fun _ => refused))
  · exact raises f t ended (ending_bind_error _ _ _ _ _ ran)

theorem atomic_bind {α : Type} (engine : Engine DB) (name : String) (s : Connection DB)
    (x : Call DB α) (f : α → Call DB Unit) (unchanged : (ending (x.run s)).2 = s)
    (rest : ∀ a, Atomic engine name s (ending ((f a).run s))) :
    Atomic engine name s (ending ((x >>= f).run s)) := by
  rw [EStateM.run_bind]
  cases run : x.run s with
  | ok a s' =>
      rw [run] at unchanged
      obtain rfl := unchanged
      exact rest a
  | error e s' =>
      rw [run] at unchanged
      exact unchanged

/-- Writing a table, from a data frame or from a file, is atomic. -/
theorem dbWriteTable_atomic (keeps : session.engine.KeepsTransaction)
    (pid random random' name : String) (value : WriteValue χ) (s : Connection DB)
    (restored : Releases session.engine s.stack s.db s.db) :
    Atomic session.engine name s
      (ending ((dbWriteTable session pid random random' name value).run s)) := by
  cases value with
  | frame value arguments =>
      refine atomic_bind _ _ _ _ _ ?_ (fun a => ?_)
      · cases checkArguments arguments <;> rfl
      · exact inSavepoint_atomic session _ name _ s restored (fun k opened =>
          kept_writeFrame session keeps opened pid random' value a)
  | file path arguments =>
      refine atomic_bind _ _ _ _ _ ?_ (fun both => atomic_bind _ _ _ _ _ ?_ (fun _ => ?_))
      · cases Logical.and arguments.overwrite arguments.append <;> rfl
      · cases both <;> rfl
      · exact inSavepoint_atomic session _ name _ s restored (fun k _ =>
          kept_writeFile session keeps (session.pathExpand path) arguments)

end Atomic

/-- A database with room for a table, and a table that a trigger logs its rows in. -/
structure LoggedTable where
  rows : Option (List (List SqlValue))
  log : List (List SqlValue)
deriving DecidableEq, Repr

def triggerEngine : Engine LoggedTable where
  prepare statement db :=
    match statement, db.rows with
    | .createTable _ _ _, none => .ok (fun db _ => .done { db with rows := some [] } 0)
    | .createTable _ _ _, some _ => .error "table t already exists"
    | .dropTable _, some _ => .ok (fun db _ => .done { db with rows := none } 0)
    | .insert _ _, some _ | .insertValues _ _, some _ => .ok (fun db values =>
        .done ⟨db.rows.map (fun rows => rows ++ [values]), db.log ++ [values]⟩ 1)
    | .dropTable _, none | .insert _ _, none | .insertValues _ _, none =>
        .error "no such table: t"
  existsTable _ db := .ok db.rows.isSome
  listFields _ _ := .ok ["x"]
  columnCount _ _ := .ok 1
  commitError _ _ := none

theorem triggerEngine_keeps : triggerEngine.KeepsTransaction := by
  intro statement prepared exec db values error db' accepted rolledBack
  cases statement <;> cases rows : prepared.rows <;>
    simp only [triggerEngine, rows, Except.ok.injEq, reduceCtorEq] at accepted <;>
    subst accepted <;> cases rolledBack

def triggerSession : Session LoggedTable Bytes where
  engine := triggerEngine
  strings := utf8Strings
  extendedTypes := false
  sqlRownamesToColumn value _ := .ok value
  pathExpand path := path
  contents _ := none
  readTable _ _ := .error "no lines available in input"
  memory _ _ := 0

/-- The arguments of a call with `append = TRUE`. -/
def appending : FrameArguments where
  rowNames := .logical [some false]
  overwrite := .logical (some false)
  append := .logical (some true)
  fieldTypes := .null
  temporary := .logical (some false)

theorem dbWriteTable_atomic_trigger :
    Atomic triggerEngine "t" ⟨⟨some [], []⟩, .closed⟩
      (ending ((dbWriteTable triggerSession "1" "a" "b" "t" (.frame oneRow appending)).run
        ⟨⟨some [], []⟩, .closed⟩)) :=
  dbWriteTable_atomic triggerSession triggerEngine_keeps "1" "a" "b" "t" (.frame oneRow appending)
    ⟨⟨some [], []⟩, .closed⟩ (Or.inr rfl)

/-- The call returns, and the table of the trigger differs too. -/
theorem dbWriteTable_logs :
    ∃ s', ending ((dbWriteTable triggerSession "1" "a" "b" "t" (.frame oneRow appending)).run
        ⟨⟨some [], []⟩, .closed⟩) = (none, s') ∧
      s'.db.log ≠ [] :=
  ⟨⟨⟨some [[.integer 1]], [[.integer 1]]⟩, .closed⟩, rfl, by decide⟩

end RSQLite
