import RSQLite.Connection.Transaction
import RSQLite.R.Frame

/-!
`dbAppendTable()`. The rows are inserted inside a savepoint that a handler rolls back
when the insertion raises. The handler is gone when the savepoint is released.
-/
namespace RSQLite

open Savepoint Ending SqliteResultImpl

section Call

variable {DB χ : Type}

/-- `unname(as.list(value))`. -/
def Frame.params (value : Frame χ) : ParamList χ where
  entries := value.columns.map (fun column => (none, column.value))
  hasNames := false
  unnamed := by
    intro _ entry member
    obtain ⟨column, _, rfl⟩ := List.mem_map.mp member
    rfl

variable (engine : Engine DB) (strings : Strings χ)

/-- The method for all connections, which `callNextMethod()` goes to: an `INSERT` with a
placeholder for each column. -/
def insertRows (name : String) (value : Frame χ) : Call DB (Option Int32) :=
  dbExecuteParams engine (.data (.insert name value.names))
    (dbBind strings.bytes false value.params)

def dbAppendTable (pid random name : String) (value : Frame χ) : Call DB (Option Int32) := do
  let savepointId := getSavepointId "dbAppendTable" pid random
  dbBegin engine (some savepointId)
  let out ← onExit (dbRollback engine (some savepointId)) (insertRows engine strings name value)
  dbCommit engine (some savepointId)
  pure out

end Call

section Insert

variable {DB χ : Type} (engine : Engine DB) (strings : Strings χ)

theorem vectors_rowCount (value : Frame χ) (some : value.columns ≠ []) :
    rowCount (value.vectors strings) = value.nrow := by
  obtain ⟨column, rest, columns⟩ := List.exists_cons_of_ne_nil some
  have first := value.vectors_length strings (column.value.bindable strings.bytes)
    (List.mem_map.mpr ⟨column, by rw [columns]; exact List.mem_cons_self, rfl⟩)
  rw [← first, rowCount, Frame.vectors, columns]
  rfl

theorem vectors_checked (value : Frame χ) (some : value.columns ≠ [])
    (s : SqliteResultImpl DB) (count : s.nparams = value.columns.length) :
    Checked s (value.vectors strings) where
  required := by
    rw [count]
    exact fun none => some (List.length_eq_zero_iff.mp none)
  supplied := by rw [count, Frame.vectors, List.length_map]
  lengths := by
    rw [vectors_rowCount strings value some]
    exact value.vectors_length strings

theorem params_values (value : Frame χ) :
    value.params.values.map (Parameter.bindable strings.bytes) = value.vectors strings := by
  simp only [ParamList.values, Frame.params, List.map_map, Frame.vectors]
  rfl

theorem dbBind_anonymous (value : Frame χ) (some : value.columns ≠ [])
    (s : SqliteResultImpl DB)
    (anonymous : s.handles.program.parameterNames = List.replicate value.columns.length none) :
    leaves ((dbBind strings.bytes false value.params).run s) =
      leaves ((DbResult.bind (value.vectors strings)).run s) := by
  have reported : s.getPlaceholderNames = List.replicate value.columns.length "" := by
    rw [getPlaceholderNames, anonymous, List.map_replicate]
    rfl
  have nonempty : s.getPlaceholderNames ≠ [] := by
    rw [reported]
    exact fun none => some (List.length_eq_zero_iff.mp (List.replicate_eq_nil_iff _ |>.mp none))
  have positional : ∀ name ∈ s.getPlaceholderNames, name = "" := by
    rw [reported]
    exact fun name member => List.eq_of_mem_replicate member
  have resolved := resolve_positional s.getPlaceholderNames false value.params nonempty
    (Or.inl positional)
  rw [dbBind_ok strings.bytes false value.params s [] value.params.values resolved,
    params_values, EStateM.run_bind]
  cases (DbResult.bind (value.vectors strings)).run s <;> rfl

theorem dbBind_noColumns (value : Frame χ) (none : value.columns = []) (s : SqliteResultImpl DB)
    (noParams : s.handles.program.parameterNames = []) :
    (dbBind strings.bytes false value.params).run s =
      .error (.stop doesNotRequireParameters) s := by
  have names : s.getPlaceholderNames = [] := by rw [getPlaceholderNames, noParams, List.map_nil]
  have entries : value.params.entries = [] := List.map_eq_nil_iff.mpr none
  have resolved : resolve s.getPlaceholderNames false value.params = .ok ([], []) := by
    rw [names, resolve_named [] false value.params (by simp)]
    simp [matchParams, unmatchedIndexes, entries]
  have zero : s.nparams = 0 := congrArg List.length noParams
  rw [dbBind_ok strings.bytes false value.params s [] [] resolved, EStateM.run_bind]
  have refused : (DbResult.bind ([].map (Parameter.bindable strings.bytes))).run s =
      .error (.stop doesNotRequireParameters) s := by
    change (SqliteResultImpl.bind [] : Method DB Unit).run s = _
    rw [SqliteResultImpl.bind, EStateM.run_bind, EStateM.run_get]
    simp only [zero, ite_true, run_throwFault]
  rw [refused]

/-- The end of an insertion without columns. -/
def Ended.unbound : Ended Fault DB → Ended Fault DB
  | done db _ => failed (.stop doesNotRequireParameters) db
  | failed f db => failed f db
  | rolledBack f db => rolledBack f db

/-- How the insertion of all rows ends on this content. -/
def appended (name : String) (value : Frame χ) (db : DB) : Ended Fault DB :=
  match engine.prepare (.insert name value.names) db with
  | .error message => .failed (.stop message) db
  | .ok exec =>
      if value.columns.isEmpty then (execAll exec db [.ok []]).unbound
      else execAll exec db (paramRows (value.vectors strings))

/-- The statement without placeholders is executed once before its parameters are refused. -/
theorem sendProgram_noColumns (value : Frame χ) (none : value.columns = [])
    (exec : DB → List SqlValue → Ended String DB) (s : Connection DB) :
    leaves (sendProgram (dataProgram value.columns.length exec)
        (dbBind strings.bytes false value.params) s) =
      (execAll exec s.db [.ok []]).unbound.onConnection s := by
  have noParams : (dataProgram value.columns.length exec).parameterNames = [] := by
    rw [none]
    rfl
  have created := create_quiet _ s 0 false (dataProgram_quiet value.columns.length exec) noParams
  rw [runUntilFailure_dataProgram] at created
  rw [sendProgram]
  cases result : create (Handles.prepare (dataProgram value.columns.length exec) s 0) false with
  | error f r =>
      rw [result] at created
      cases ended : execAll exec s.db [.ok []] with
      | done db changes =>
          rw [ended] at created
          cases created
      | failed f' db | rolledBack f' db =>
          rw [ended] at created
          exact created
  | ok _ r =>
      obtain ⟨done, progress, _⟩ := (opened_of_noParams _ s 0 false r noParams result).run
      have refused := dbBind_noColumns strings value none r
        (by rw [progress.program]; exact noParams)
      rw [result] at created
      simp only [refused]
      cases ended : execAll exec s.db [.ok []] with
      | done db changes =>
          rw [ended] at created
          exact congrArg (Prod.mk _) (congrArg Prod.snd created)
      | failed f db | rolledBack f db =>
          rw [ended] at created
          cases created

theorem sendProgram_columns (value : Frame χ) (some : value.columns ≠ [])
    (exec : DB → List SqlValue → Ended String DB) (s : Connection DB) :
    leaves (sendProgram (dataProgram value.columns.length exec)
        (dbBind strings.bytes false value.params) s) =
      (execAll exec s.db (paramRows (value.vectors strings))).onConnection s := by
  have parameterised : (dataProgram value.columns.length exec).parameterNames ≠ [] :=
    fun none => some (List.length_eq_zero_iff.mp (List.replicate_eq_nil_iff _ |>.mp none))
  have bound := dbBind_anonymous strings value some
    (initialState (Handles.prepare (dataProgram value.columns.length exec) s 0) false) rfl
  have checked := vectors_checked strings value some
    (initialState (Handles.prepare (dataProgram value.columns.length exec) s 0) false)
    List.length_replicate
  rw [sendProgram, create_parameterised _ s 0 false parameterised,
    ← runUntilFailure_dataProgram value.columns.length]
  exact bound.trans (bind_quiet _ _ checked (dataProgram_quiet value.columns.length exec))

theorem insertRows_ending (name : String) (value : Frame χ) (s : Connection DB) :
    ending ((insertRows engine strings name value).run s) =
      (appended engine strings name value s.db).onConnection s := by
  cases prepared : engine.prepare (.insert name value.names) s.db with
  | error message =>
      have refused : prepareSql engine s (.data (.insert name value.names)) = .error message := by
        rw [prepareSql, prepared]
        rfl
      simp only [insertRows, dbExecuteParams, EStateM.run, refused, appended, prepared]
      rfl
  | ok exec =>
      have accepted : prepareSql engine s (.data (.insert name value.names)) =
          .ok (dataProgram value.columns.length exec) := by
        rw [prepareSql, prepared, Statement.parameterCount, Frame.names, List.length_map]
        rfl
      simp only [insertRows, dbExecuteParams, EStateM.run, accepted, appended, prepared]
      rw [ending_clearResult]
      by_cases none : value.columns = []
      · rw [sendProgram_noColumns strings value none exec s]
        simp only [none, List.isEmpty_nil, ite_true]
      · rw [sendProgram_columns strings value none exec s]
        simp only [List.isEmpty_iff, none, ite_false]

/-- All rows are inserted, one after the other. -/
inductive Inserted (exec : DB → List SqlValue → Ended String DB) :
    DB → List (List SqlValue) → DB → Prop
  | nil (db : DB) : Inserted exec db [] db
  | cons (db db' db'' : DB) (values : List SqlValue) (rest : List (List SqlValue)) (changes : Nat)
      (first : exec db values = .done db' changes) (inserted : Inserted exec db' rest db'') :
      Inserted exec db (values :: rest) db''

/-- The rows of a data frame are appended to a table. -/
def AllAppended (name : String) (value : Frame χ) (db db' : DB) : Prop :=
  ∃ exec rows, engine.prepare (.insert name value.names) db = .ok exec ∧
    rows.length = value.nrow ∧ paramRows (value.vectors strings) = rows.map .ok ∧
    Inserted exec db rows db'

/-- What must hold however a call on `s` ends. -/
def CommitsOrLeavesNoTrace (name : String) (value : Frame χ) (s : Connection DB) :
    Option Fault × Connection DB → Prop
  | (some _, s') => s' = s
  | (none, s') => s'.stack = s.stack ∧ AllAppended engine strings name value s.db s'.db

/-- The savepoint can be released at the end, after a rollback if the insertion fails.
A failure that makes SQLite roll back everything finds nothing else open. -/
def SavepointEnds (name : String) (value : Frame χ) (s : Connection DB) : Prop :=
  match appended engine strings name value s.db with
  | .done db _ => Releases engine s.stack s.db db
  | .failed _ _ => Releases engine s.stack s.db s.db
  | .rolledBack _ _ => s.stack.isOpen = false

theorem inserted_of_execAll (exec : DB → List SqlValue → Ended String DB)
    (rows : List (Outcome (List SqlValue))) (db db' : DB) (changes : Nat)
    (ended : execAll exec db rows = .done db' changes) :
    ∃ values, rows = values.map .ok ∧ Inserted exec db values db' := by
  induction rows generalizing db with
  | nil =>
      cases ended
      exact ⟨[], rfl, .nil _⟩
  | cons row rest ih =>
      cases row with
      | error f => cases ended
      | ok values =>
          rw [execAll] at ended
          cases first : exec db values with
          | done db'' own =>
              rw [first] at ended
              obtain ⟨later, rfl, inserted⟩ := ih db'' ended
              exact ⟨values :: later, rfl, .cons db db'' db' values later own first inserted⟩
          | failed message db'' | rolledBack message db'' =>
              rw [first] at ended
              cases ended

theorem appended_done (name : String) (value : Frame χ) (db db' : DB) (changes : Nat)
    (ended : appended engine strings name value db = .done db' changes) :
    AllAppended engine strings name value db db' := by
  rw [appended] at ended
  cases prepared : engine.prepare (.insert name value.names) db with
  | error message =>
      rw [prepared] at ended
      cases ended
  | ok exec =>
      rw [prepared] at ended
      by_cases some : value.columns = []
      · simp only [some, List.isEmpty_nil, ite_true] at ended
        cases once : execAll exec db [.ok []] with
        | done _ _ | failed _ _ | rolledBack _ _ =>
            rw [once] at ended
            cases ended
      · simp only [List.isEmpty_iff, some, ite_false] at ended
        obtain ⟨rows, all, inserted⟩ := inserted_of_execAll exec _ db db' changes ended
        have count := congrArg List.length all
        rw [paramRows, List.length_map, List.length_range', List.length_map,
          vectors_rowCount strings value some] at count
        exact ⟨exec, rows, prepared, count.symm, all, inserted⟩

theorem dbAppendTable_begun (pid random name : String) (value : Frame χ) (s : Connection DB)
    (r : Option Fault × Connection DB)
    (rest : ending ((do
      let out ← onExit (dbRollback engine (some (getSavepointId "dbAppendTable" pid random)))
        (insertRows engine strings name value)
      dbCommit engine (some (getSavepointId "dbAppendTable" pid random))
      pure out : Call DB (Option Int32)).run
        (s.savepoint (foldCase (getSavepointId "dbAppendTable" pid random)))) = r) :
    ending ((dbAppendTable engine strings pid random name value).run s) = r :=
  ending_bind _ _ _ _ _ (dbBegin_named engine _ s) (fun _ => rest)

section Ends

variable (pid random name : String) (value : Frame χ) (s : Connection DB)

theorem dbAppendTable_done (db : DB) (changes : Nat)
    (ended : appended engine strings name value s.db = .done db changes) :
    (Releases engine s.stack s.db db →
      ending ((dbAppendTable engine strings pid random name value).run s) =
        (none, s.withDb db)) ∧
    (¬ Releases engine s.stack s.db db → ∃ f id,
      ending ((dbAppendTable engine strings pid random name value).run s) =
        (some f, ⟨db, s.stack.push id s.db⟩)) := by
  have inserted := insertRows_ending engine strings name value
    (s.savepoint (foldCase (getSavepointId "dbAppendTable" pid random)))
  rw [show (s.savepoint _).db = s.db from rfl, ended] at inserted
  have returns := onExit_ok (dbRollback engine (some (getSavepointId "dbAppendTable" pid random)))
    _ _ _ inserted
  refine ⟨fun releases => ?_, fun refused => ?_⟩
  · refine dbAppendTable_begun engine strings pid random name value s _ ?_
    refine ending_bind _ _ _ _ _ returns (fun out => ?_)
    exact ending_bind _ _ _ _ _ (dbCommit_innermost engine _ s.stack s.db db releases)
      (fun _ => rfl)
  · obtain ⟨message, error⟩ := dbCommit_refused engine
      (getSavepointId "dbAppendTable" pid random) s.stack s.db db refused
    refine ⟨.stop message, foldCase (getSavepointId "dbAppendTable" pid random), ?_⟩
    refine dbAppendTable_begun engine strings pid random name value s _ ?_
    refine ending_bind _ _ _ _ _ returns (fun out => ?_)
    exact ending_bind_error _ _ _ _ _ error

theorem dbAppendTable_raises (f : Fault) (s' : Connection DB)
    (inserted : ending ((insertRows engine strings name value).run
      (s.savepoint (foldCase (getSavepointId "dbAppendTable" pid random)))) = (some f, s')) :
    ending ((dbAppendTable engine strings pid random name value).run s) =
      (some ((ending ((dbRollback engine
          (some (getSavepointId "dbAppendTable" pid random))).run s')).1.getD f),
        (ending ((dbRollback engine
          (some (getSavepointId "dbAppendTable" pid random))).run s')).2) := by
  refine dbAppendTable_begun engine strings pid random name value s _ ?_
  exact ending_bind_error _ _ _ _ _ (onExit_error _ _ _ _ _ inserted)

theorem dbAppendTable_failed (f : Fault) (db : DB)
    (ended : appended engine strings name value s.db = .failed f db) :
    (Releases engine s.stack s.db s.db →
      ending ((dbAppendTable engine strings pid random name value).run s) = (some f, s)) ∧
    (¬ Releases engine s.stack s.db s.db → ∃ f id,
      ending ((dbAppendTable engine strings pid random name value).run s) =
        (some f, ⟨s.db, s.stack.push id s.db⟩)) := by
  have inserted := insertRows_ending engine strings name value
    (s.savepoint (foldCase (getSavepointId "dbAppendTable" pid random)))
  rw [show (s.savepoint _).db = s.db from rfl, ended] at inserted
  have raises := dbAppendTable_raises engine strings pid random name value s f _ inserted
  have rolledBack := dbRollback_to engine (getSavepointId "dbAppendTable" pid random) s.stack
    s.db db
  refine ⟨fun releases => ?_, fun refused => ?_⟩
  · have released := rolledBack.trans (dbCommit_innermost engine _ s.stack s.db s.db releases)
    exact raises.trans (by
      rw [State.withDb, State.savepoint, released]
      rfl)
  · obtain ⟨message, error⟩ := dbCommit_refused engine
      (getSavepointId "dbAppendTable" pid random) s.stack s.db s.db refused
    refine ⟨.stop message, foldCase (getSavepointId "dbAppendTable" pid random), ?_⟩
    exact raises.trans (by
      rw [State.withDb, State.savepoint, rolledBack.trans error]
      rfl)

theorem dbAppendTable_rolledBack (f : Fault) (db : DB)
    (ended : appended engine strings name value s.db = .rolledBack f db) :
    ∃ f, ending ((dbAppendTable engine strings pid random name value).run s) =
      (some f, s.abandoned) := by
  have inserted := insertRows_ending engine strings name value
    (s.savepoint (foldCase (getSavepointId "dbAppendTable" pid random)))
  rw [show (s.savepoint _).db = s.db from rfl, ended] at inserted
  have start : (State.withDb (s.savepoint (foldCase (getSavepointId "dbAppendTable" pid random)))
      db).abandoned = s.abandoned := by
    rw [State.abandoned, State.withDb, State.savepoint, State.start_push]
    rfl
  have raises := dbAppendTable_raises engine strings pid random name value s f _ inserted
  rw [start, State.abandoned, dbRollback_closed] at raises
  exact ⟨_, raises⟩

end Ends

/-- A call that appends, or raises, commits or leaves no trace exactly where its savepoint
can be ended. -/
theorem commitsOrLeavesNoTrace_iff (pid random name : String) (value : Frame χ)
    (s : Connection DB) :
    CommitsOrLeavesNoTrace engine strings name value s
        (ending ((dbAppendTable engine strings pid random name value).run s)) ↔
      SavepointEnds engine strings name value s := by
  cases ended : appended engine strings name value s.db with
  | done db changes =>
      obtain ⟨ends, stays⟩ := dbAppendTable_done engine strings pid random name value s db
        changes ended
      simp only [SavepointEnds, ended]
      by_cases releases : Releases engine s.stack s.db db
      · rw [ends releases]
        exact iff_of_true ⟨rfl, appended_done engine strings name value s.db db changes ended⟩
          releases
      · obtain ⟨f, id, run⟩ := stays releases
        rw [run]
        exact iff_of_false (fun same => s.stack.push_ne id s.db (congrArg State.stack same))
          releases
  | failed f db =>
      obtain ⟨ends, stays⟩ := dbAppendTable_failed engine strings pid random name value s f db
        ended
      simp only [SavepointEnds, ended]
      by_cases releases : Releases engine s.stack s.db s.db
      · rw [ends releases]
        exact iff_of_true rfl releases
      · obtain ⟨f', id, run⟩ := stays releases
        rw [run]
        exact iff_of_false (fun same => s.stack.push_ne id s.db (congrArg State.stack same))
          releases
  | rolledBack f db =>
      obtain ⟨f', run⟩ := dbAppendTable_rolledBack engine strings pid random name value s f db
        ended
      simp only [SavepointEnds, ended]
      rw [run]
      refine ⟨fun same => ?_, fun closed => s.abandoned_closed closed⟩
      rw [← congrArg State.stack same]
      rfl

end Insert

/-- A table with a deferred foreign key that no row satisfies. -/
def deferredEngine : Engine (List (List SqlValue)) where
  prepare _ _ := .ok (fun db values => .done (db ++ [values]) 1)
  existsTable _ _ := .ok true
  listFields _ _ := .ok ["x"]
  columnCount _ _ := .ok 1
  commitError saved db := if saved = db then none else some "FOREIGN KEY constraint failed"

def utf8Strings : Strings Bytes where
  enc2utf8 := id
  bytes := id
  hex b := [b]
  tolower name := String.ofList (name.toList.map Char.toLower)

def oneRow : Frame Bytes where
  columns := [⟨"x", .vector (.int [1]), []⟩]
  nrow := 1
  lengths := by
    intro column member
    obtain rfl := List.mem_singleton.mp member
    rfl

/-- The connection is left inside the savepoint of the call. -/
theorem commitsOrLeavesNoTrace_deferred :
    ending ((dbAppendTable deferredEngine utf8Strings "1" "a" "t" oneRow).run ⟨[], .closed⟩) =
        (some (.stop "FOREIGN KEY constraint failed"),
          ⟨[[.integer 1]], ⟨none, [("dbappendtable_1_a", [])]⟩⟩) ∧
      ¬ CommitsOrLeavesNoTrace deferredEngine utf8Strings "t" oneRow ⟨[], .closed⟩
        (ending ((dbAppendTable deferredEngine utf8Strings "1" "a" "t" oneRow).run
          ⟨[], .closed⟩)) := by
  have run : ending ((dbAppendTable deferredEngine utf8Strings "1" "a" "t" oneRow).run
      ⟨[], .closed⟩) = (some (.stop "FOREIGN KEY constraint failed"),
        ⟨[[.integer 1]], ⟨none, [("dbappendtable_1_a", [])]⟩⟩) := rfl
  refine ⟨run, ?_⟩
  rw [run]
  exact fun same => by cases congrArg State.db same

end RSQLite
