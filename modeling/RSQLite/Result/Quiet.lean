import RSQLite.Result.Affected

/-!
Statements that never show a row. Creating a result or binding a list of parameters
executes them on every row of parameters in turn, up to the first failure.
-/
namespace RSQLite

open SqliteResultImpl

variable {DB : Type}

def Quiet (program : Program DB) : Prop := ∀ db values, (program.exec db values).rows = []

/-- The executions on a list of parameter rows, up to a row that cannot be bound or an
execution that fails. -/
def runUntilFailure (program : Program DB) : DB → List (Outcome (List SqlValue)) →
    Option Fault × DB
  | db, [] => (none, db)
  | db, .error f :: _ => (some f, db)
  | db, .ok values :: rest =>
      let e := program.exec db values
      match e.failure with
      | some message => (some (.stop message), e.database)
      | none => runUntilFailure program e.database rest

/-- What a method raises, and the database that it leaves. -/
def leaves {α : Type} : EStateM.Result Fault (SqliteResultImpl DB) α → Option Fault × DB
  | .ok _ s => (none, s.handles.database)
  | .error f s => (some f, s.handles.database)

theorem runUntilFailure_failed (program : Program DB) (db : DB) (values : List SqlValue)
    (rest : List (Outcome (List SqlValue))) (message : String)
    (failure : (program.exec db values).failure = some message) :
    runUntilFailure program db (.ok values :: rest) =
      (some (.stop message), (program.exec db values).database) := by
  simp only [runUntilFailure, failure]

theorem runUntilFailure_done (program : Program DB) (db : DB) (values : List SqlValue)
    (rest : List (Outcome (List SqlValue))) (failure : (program.exec db values).failure = none) :
    runUntilFailure program db (.ok values :: rest) =
      runUntilFailure program (program.exec db values).database rest := by
  simp only [runUntilFailure, failure]

/-- Stepping, from a state that shows no row, runs through all rows of parameters. -/
theorem stepLoop_quiet (rounds : Nat) :
    ∀ s : SqliteResultImpl DB, s.params.length = s.nparams → s.handles.current = none →
      Quiet s.handles.program → s.todo.length < rounds →
      leaves ((stepLoop rounds).run s) =
        runUntilFailure s.handles.program s.handles.database s.toRun := by
  induction rounds with
  | zero =>
      intro s _ _ _ enough
      omega
  | succ rounds ih =>
      intro s count hidden quiet enough
      have round := stepRun_round s count hidden
      have todo : s.group + 1 < s.groups → s.todo = paramRow s.params (s.group + 1) ::
          (s.moveTo s.handles (s.group + 1)).todo := paramRowsAfter_cons _ _ _
      rw [stepLoop, EStateM.run_bind, toRun_hidden s hidden]
      generalize stepRun.run s = result at round ⊢
      cases round with
      | shown row rest rows => cases rows.symm.trans (quiet _ _)
      | failed message _ failure =>
          rw [runUntilFailure_failed _ _ _ _ message failure]
          rfl
      | last _ failure last =>
          rw [runUntilFailure_done _ _ _ _ failure, todo_of_todo_nil s last]
          rfl
      | unbindable f bindings _ failure more row =>
          rw [runUntilFailure_done _ _ _ _ failure, todo more, row, leaves, moveTo,
            Handles.reset_eq]
          rfl
      | next values _ failure more row =>
          rw [todo more] at enough
          have rest := ih (s.bindNext values) (bindNext_count s values count) (current_reset _ _)
            (by rw [bindNext_handles]; exact quiet) (Nat.lt_of_succ_lt_succ enough)
          rw [toRun_hidden _ (current_reset _ _), bindNext_handles] at rest
          rw [runUntilFailure_done _ _ _ _ failure, todo more, row]
          exact rest

theorem step_quiet (s : SqliteResultImpl DB) (count : s.params.length = s.nparams)
    (hidden : s.handles.current = none) (quiet : Quiet s.handles.program) :
    leaves (step.run s) = runUntilFailure s.handles.program s.handles.database s.toRun := by
  have enough : s.todo.length < s.groups - s.group + 1 := by
    rw [todo, paramRowsAfter_length]
    omega
  exact stepLoop_quiet _ s count hidden quiet enough

theorem bind_quiet (s : SqliteResultImpl DB) (params : List RVector) (checked : Checked s params)
    (quiet : Quiet s.handles.program) :
    leaves ((DbResult.bind params).run s) =
      runUntilFailure s.handles.program s.handles.database (paramRows params) := by
  have runs := bind_runs s params
  generalize (DbResult.bind params).run s = result at runs ⊢
  cases runs with
  | refused message unchecked => exact absurd checked unchecked
  | empty _ none =>
      rw [paramRows_nil params none]
      rfl
  | unbindable f bindings _ rows row =>
      rw [paramRows_cons params rows, row, leaves, withHandles, Handles.reset_eq]
      rfl
  | stepped values _ rows row =>
      have handles := bound_handles s params values
      have ran := step_quiet (s.bound params values) (bound_count s params values checked)
        (by rw [handles]; rfl) (by rw [handles]; exact quiet)
      rw [toRun_bind s params values rows row, handles] at ran
      exact ran

theorem create_quiet (program : Program DB) (db : DB) (totalChanges : Int32) (withAltTypes : Bool)
    (quiet : Quiet program) (none : program.parameterNames = []) :
    leaves (create (Handles.prepare program db totalChanges) withAltTypes) =
      runUntilFailure program db [.ok []] := by
  have count : 0 = program.parameterNames.length := by rw [none, List.length_nil]
  have ran := step_quiet
    ((initialState (Handles.prepare program db totalChanges) withAltTypes).initialised true)
    count rfl quiet
  rw [create_noParams program db totalChanges withAltTypes none, ran, toRun_hidden _ rfl,
    todo_of_todo_nil _ (Nat.le_succ 0)]
  exact congrArg (fun values => runUntilFailure program db [.ok values])
    (prepare_bindings program db totalChanges none)

theorem create_parameterised (program : Program DB) (db : DB) (totalChanges : Int32)
    (withAltTypes : Bool) (some : program.parameterNames ≠ []) :
    create (Handles.prepare program db totalChanges) withAltTypes =
      .ok () (initialState (Handles.prepare program db totalChanges) withAltTypes) := by
  have parameterised :
      (initialState (Handles.prepare program db totalChanges) withAltTypes).nparams ≠ 0 :=
    fun zero => some (List.length_eq_zero_iff.mp zero)
  rw [create, if_neg parameterised]

end RSQLite
