import RSQLite.Result.Rows

/-!
Binding a data-modifying statement. `bind()` steps until the statement yields a
row, so that all parameter rows are executed only if none but the last execution
yields any. The changes of a statement that is showing a row are not counted yet.
-/
namespace RSQLite

open SqliteResultImpl

variable {DB : Type}

def Silent (program : Program DB) : DB → List (List SqlValue) → Prop
  | _, [] => True
  | db, values :: rest =>
      (program.exec db values).rows = [] ∧ Silent program (program.exec db values).database rest

/-- What is left to count after executions that stop at the first row of the last one,
if there is one. -/
def lastUncounted (program : Program DB) : DB → List (List SqlValue) → Int32 → Int32
  | _, [], before => before
  | db, values :: rest, _ =>
      let e := program.exec db values
      lastUncounted program e.database rest (if e.rows = [] then 0 else Int32.ofNat e.own)

theorem silent_append (program : Program DB) (db : DB) (first second : List (List SqlValue)) :
    Silent program db (first ++ second) ↔ Silent program db first ∧
      Silent program (Handles.runAll program db first).1 second := by
  induction first generalizing db with
  | nil => simp only [List.nil_append, Silent, Handles.runAll, true_and]
  | cons values rest ih => simp only [List.cons_append, Silent, Handles.runAll, ih, and_assoc]

theorem silent_dropLast_cons (program : Program DB) (db : DB) (values : List SqlValue)
    (rest : List (List SqlValue)) (silent : (program.exec db values).rows = [])
    (later : Silent program (program.exec db values).database rest.dropLast) :
    Silent program db (values :: rest).dropLast := by
  cases rest with
  | nil => trivial
  | cons next rest => exact ⟨silent, later⟩

/-- How stepping a statement that shows no row ends, when it ends without an error. -/
structure Stops (s s' : SqliteResultImpl DB) (done : List (List SqlValue)) : Prop where
  run : s.toRun = done.map .ok ++ s'.unrun
  silent : Silent s.handles.program s.handles.database done.dropLast
  yields : s'.complete = false → ¬ Silent s.handles.program s.handles.database done
  uncounted : ∀ before, s'.handles.uncounted =
    lastUncounted s.handles.program s.handles.database done before
  start : s'.totalChangesStart = s.totalChangesStart
  ready : s'.ready = s.ready

theorem toRun_hidden (s : SqliteResultImpl DB) (hidden : s.handles.current = none) :
    s.toRun = .ok s.handles.bindings :: s.todo := by
  cases vdbe : s.handles.vdbe with
  | run current rest failure own => simp [Handles.current, vdbe] at hidden
  | ready | halt =>
      simp only [toRun, Handles.toExecute, vdbe]
      rfl

theorem step_hidden (h : Handles DB) (hidden : h.current = none) :
    h.step = h.execute.emit (h.program.exec h.database h.bindings).failure
      (h.program.exec h.database h.bindings).own (h.program.exec h.database h.bindings).rows := by
  cases vdbe : h.vdbe with
  | run current rest failure own => simp [Handles.current, vdbe] at hidden
  | ready | halt => simp only [Handles.step, vdbe]

namespace SqliteResultImpl

/-- The state in which an execution without rows is done. -/
def executedOnce (s : SqliteResultImpl DB) : SqliteResultImpl DB :=
  s.withHandles (s.handles.execute.emit none
    (s.handles.program.exec s.handles.database s.handles.bindings).own []).2

/-- The state in which the next row of parameters is bound after it. -/
def bindNext (s : SqliteResultImpl DB) (values : List SqlValue) : SqliteResultImpl DB :=
  s.executedOnce.moveTo (s.executedOnce.handles.reset.withBindings values) (s.group + 1)

theorem bindNext_handles (s : SqliteResultImpl DB) (values : List SqlValue) :
    (s.bindNext values).handles =
      { s.executedOnce.handles with
        vdbe := .ready
        totalChanges := s.executedOnce.handles.totalChanges + s.executedOnce.handles.uncounted
        bindings := values } := by
  rw [bindNext, Handles.reset_eq]
  rfl

end SqliteResultImpl

theorem Stops.next {s s' : SqliteResultImpl DB} {values : List SqlValue}
    {done : List (List SqlValue)} (stops : Stops (s.bindNext values) s' done)
    (hidden : s.handles.current = none)
    (rows : (s.handles.program.exec s.handles.database s.handles.bindings).rows = [])
    (more : s.group + 1 < s.groups) (row : paramRow s.params (s.group + 1) = .ok values) :
    Stops s s' (s.handles.bindings :: done) := by
  have run := (toRun_hidden (s.bindNext values) (current_reset _ _)).symm.trans stops.run
  have silent := stops.silent
  have yields := stops.yields
  have uncounted := stops.uncounted
  rw [bindNext_handles] at run silent yields uncounted
  refine ⟨?_, ?_, ?_, ?_, stops.start, stops.ready⟩
  · rw [toRun_hidden s hidden, todo, paramRowsAfter_cons _ _ _ more, row]
    exact congrArg (Except.ok s.handles.bindings :: ·) run
  · exact silent_dropLast_cons _ _ _ _ rows silent
  · exact fun shown all => yields shown all.2
  · intro before
    rw [uncounted 0]
    simp only [lastUncounted, rows, ite_true]
    rfl

/-- What the next execution does. -/
abbrev Handles.execution (h : Handles DB) : Execution DB := h.program.exec h.database h.bindings

/-- One round, from a state that shows no row. -/
inductive Round (s : SqliteResultImpl DB) :
    EStateM.Result Fault (SqliteResultImpl DB) Bool → Prop
  | shown (row : Row) (rest : List Row) (rows : s.handles.execution.rows = row :: rest) :
      Round s (.ok false (s.withHandles (s.handles.execute.emit s.handles.execution.failure
        s.handles.execution.own (row :: rest)).2))
  | failed (message : String) (rows : s.handles.execution.rows = [])
      (failure : s.handles.execution.failure = some message) :
      Round s (.error (.stop message) (s.withHandles (s.handles.execute.emit (some message)
        s.handles.execution.own []).2))
  | last (rows : s.handles.execution.rows = []) (failure : s.handles.execution.failure = none)
      (last : s.groups ≤ s.group + 1) :
      Round s (.ok false
        { s.executedOnce.moveTo s.executedOnce.handles (s.group + 1) with complete := true })
  | unbindable (f : Fault) (bindings : List SqlValue)
      (rows : s.handles.execution.rows = []) (failure : s.handles.execution.failure = none)
      (more : s.group + 1 < s.groups) (row : paramRow s.params (s.group + 1) = .error f) :
      Round s (.error f (s.executedOnce.moveTo
        (s.executedOnce.handles.reset.withBindings bindings) (s.group + 1)))
  | next (values : List SqlValue)
      (rows : s.handles.execution.rows = []) (failure : s.handles.execution.failure = none)
      (more : s.group + 1 < s.groups) (row : paramRow s.params (s.group + 1) = .ok values) :
      Round s (.ok true (s.bindNext values))

theorem stepRun_round (s : SqliteResultImpl DB) (count : s.params.length = s.nparams)
    (hidden : s.handles.current = none) : Round s (stepRun.run s) := by
  have stepped := step_hidden s.handles hidden
  cases rows : (s.handles.program.exec s.handles.database s.handles.bindings).rows with
  | cons row rest =>
      rw [rows] at stepped
      rw [stepRun_row s _ stepped]
      exact .shown row rest rows
  | nil =>
      rw [rows] at stepped
      cases failure : (s.handles.program.exec s.handles.database s.handles.bindings).failure with
      | some message =>
          rw [failure] at stepped
          rw [stepRun_error s _ message stepped]
          exact .failed message rows failure
      | none =>
          rw [failure] at stepped
          have halted := stepRun_done s _ stepped
          by_cases last : s.groups ≤ s.group + 1
          · rw [halted.trans (stepDone_none _ last)]
            exact .last rows failure last
          · have more : s.group + 1 < s.groups := by omega
            cases row : paramRow s.params (s.group + 1) with
            | error f =>
                obtain ⟨bindings, failed⟩ := stepDone_error (executedOnce s) f more row
                rw [halted.trans failed]
                exact .unbindable f bindings rows failure more row
            | ok values =>
                rw [halted.trans (stepDone_ok (executedOnce s) values more count row)]
                exact .next values rows failure more row

theorem bindNext_count (s : SqliteResultImpl DB) (values : List SqlValue)
    (count : s.params.length = s.nparams) :
    (s.bindNext values).params.length = (s.bindNext values).nparams := by
  rw [nparams, bindNext_handles]
  exact count

theorem stepLoop_stops (rounds : Nat) :
    ∀ s s' : SqliteResultImpl DB, s.params.length = s.nparams → s.complete = false →
      s.handles.current = none → (stepLoop rounds).run s = .ok () s' → ∃ done, Stops s s' done := by
  induction rounds with
  | zero =>
      intro s s' _ _ _ run
      cases run
  | succ rounds ih =>
      intro s s' count running hidden run
      have first := toRun_hidden s hidden
      have round := stepRun_round s count hidden
      rw [stepLoop, EStateM.run_bind] at run
      generalize stepRun.run s = result at run round
      cases round with
      | shown row rest rows =>
          cases run
          refine ⟨[s.handles.bindings], ?_, trivial, fun _ silent => ?_, ?_, rfl, rfl⟩
          · rw [first, unrun]
            simp only [withHandles, running, Bool.false_eq_true, ite_false]
            rfl
          · cases rows.symm.trans silent.1
          · intro before
            simp only [lastUncounted, rows, reduceCtorEq, ite_false]
            rfl
      | failed message _ _ => cases run
      | last rows _ last =>
          cases run
          refine ⟨[s.handles.bindings], ?_, trivial, (fun more => by cases more), ?_, rfl, rfl⟩
          · rw [first, todo_of_todo_nil s last]
            rfl
          · intro before
            simp only [lastUncounted, rows, ite_true]
            rfl
      | unbindable f bindings _ _ _ _ => cases run
      | next values rows _ more row =>
          obtain ⟨done, stops⟩ := ih (s.bindNext values) s' (bindNext_count s values count) running
            (current_reset _ _) run
          exact ⟨s.handles.bindings :: done, stops.next hidden rows more row⟩

/-- How a bind ends that raises no error. -/
theorem bind_stops (s s' : SqliteResultImpl DB) (params : List RVector)
    (accepted : (DbResult.bind params).run s = .ok () s') :
    ∃ done, paramRows params = done.map .ok ++ s'.unrun ∧
      Silent s.handles.program s.handles.database done.dropLast ∧
      (s'.complete = false → ¬ Silent s.handles.program s.handles.database done) ∧
      s'.handles.uncounted =
        lastUncounted s.handles.program s.handles.database done s.handles.uncounted ∧
      s'.totalChangesStart = s.handles.totalChanges ∧ s'.ready = true := by
  have runs := bind_runs s params
  generalize (DbResult.bind params).run s = result at accepted runs
  cases runs with
  | refused message _ => cases accepted
  | empty checked none =>
      cases accepted
      rw [paramRows_nil params none]
      exact ⟨[], rfl, trivial, (fun more => by cases more), rfl, rfl, rfl⟩
  | unbindable f bindings _ _ _ => cases accepted
  | stepped values checked rows row =>
      have handles := bound_handles s params values
      have hidden : (s.bound params values).handles.current = none := by
        rw [handles]
        rfl
      obtain ⟨done, stops⟩ := stepLoop_stops _ _ s' (bound_count s params values checked) rfl
        hidden accepted
      have run := stops.run
      have silent := stops.silent
      have yields := stops.yields
      have uncounted := stops.uncounted s.handles.uncounted
      rw [toRun_bind s params values rows row] at run
      rw [handles] at silent yields uncounted
      exact ⟨done, run, silent, yields, uncounted, stops.start, stops.ready⟩

/-- What must hold after a bind that turned `s` into `s'`: the statement has been
executed once on each row of parameters in order, its changes are counted if their
number is an `int`, and finalizing the statement keeps them. -/
def ExecutedAll (s s' : SqliteResultImpl DB) (params : List RVector) : Prop :=
  ∃ values, paramRows params = values.map .ok ∧
    s'.handles.executed = s.handles.executed ++ values ∧
    ((Handles.runAll s.handles.program s.handles.database values).2 < 2 ^ 31 →
      s'.nRowsAffected.map Int32.toInt =
        some ((Handles.runAll s.handles.program s.handles.database values).2 : Int)) ∧
    s'.handles.finalize.database =
      (Handles.runAll s.handles.program s.handles.database values).1

/-- Every row of parameters can be bound, no execution but the last yields a row, and
what the last one leaves to count is what the statement had left before the bind. -/
def CountsAll (s : SqliteResultImpl DB) (params : List RVector) : Prop :=
  ∃ values, paramRows params = values.map .ok ∧
    Silent s.handles.program s.handles.database values.dropLast ∧
    ((Handles.runAll s.handles.program s.handles.database values).2 < 2 ^ 31 →
      lastUncounted s.handles.program s.handles.database values s.handles.uncounted =
        s.handles.uncounted)

/-- The affected rows are those of the executions, less what is not counted yet, and
more by what was counted late. -/
theorem nRowsAffected_of_progress (s s' : SqliteResultImpl DB) (done : List (List SqlValue))
    (progress : s.handles.Progress s'.handles done)
    (start : s'.totalChangesStart = s.handles.totalChanges) (ready : s'.ready = true) :
    s'.nRowsAffected = some
      (Int32.ofNat (Handles.runAll s.handles.program s.handles.database done).2 +
        (s.handles.uncounted - s'.handles.uncounted)) := by
  have settled := progress.settled
  simp only [Handles.settled] at settled
  rw [nRowsAffected, if_pos ready, start]
  grind

theorem int32_toInt_ofNat_add (n : Nat) (d : Int32) (short : n < 2 ^ 31) :
    (Int32.ofNat n + d).toInt = n ↔ d = 0 := by
  rw [← Int32.toInt_ofNat_of_lt short, Int32.toInt_inj]
  grind

theorem unrun_of_silent (s' : SqliteResultImpl DB) (program : Program DB) (db : DB)
    (values done : List (List SqlValue)) (run : values.map Except.ok = done.map .ok ++ s'.unrun)
    (silent : Silent program db values.dropLast)
    (yields : s'.complete = false → ¬ Silent program db done) : values = done := by
  obtain ⟨first, rest, rfl, first', rest'⟩ := List.map_eq_append_iff.mp run
  obtain rfl := List.map_injective_iff.mpr (fun _ _ => Except.ok.inj) first'
  cases rest with
  | nil => exact List.append_nil _
  | cons next rest =>
      have running : s'.complete = false := by
        cases complete : s'.complete with
        | false => rfl
        | true =>
            rw [unrun, complete] at rest'
            cases rest'
      rw [List.dropLast_append_of_ne_nil (List.cons_ne_nil next rest), silent_append] at silent
      exact absurd silent.1 (yields running)

/-- A bind that raises no error has executed and counted everything exactly when
`CountsAll` holds of the result before. -/
theorem executedAll_iff (s s' : SqliteResultImpl DB) (params : List RVector)
    (accepted : (DbResult.bind params).run s = .ok () s') :
    ExecutedAll s s' params ↔ CountsAll s params := by
  obtain ⟨done, run, silent, yields, uncounted, start, ready⟩ := bind_stops s s' params accepted
  obtain ⟨done', progress, run'⟩ := (opened_of_params s s' params accepted).run
  obtain rfl : done = done' := List.map_injective_iff.mpr (fun _ _ => Except.ok.inj)
    (List.append_cancel_right (run.symm.trans run'))
  have affected := nRowsAffected_of_progress s s' done progress start ready
  constructor
  · rintro ⟨values, rows, executed, counted, _⟩
    obtain rfl : done = values := List.append_cancel_left (progress.executed.symm.trans executed)
    refine ⟨done, rows, silent, fun short => ?_⟩
    have sum := counted short
    rw [affected, Option.map_some, Option.some_inj, int32_toInt_ofNat_add _ _ short, uncounted]
      at sum
    grind
  · rintro ⟨values, rows, quiet, counts⟩
    obtain rfl := unrun_of_silent s' _ _ values done (rows.symm.trans run) quiet yields
    refine ⟨values, rows, progress.executed, fun short => ?_, ?_⟩
    · rw [affected, Option.map_some, Option.some_inj, int32_toInt_ofNat_add _ _ short, uncounted,
        counts short, Int32.sub_self]
    · rw [Handles.finalize, Handles.reset_eq]
      exact progress.database

/-- `INSERT INTO t VALUES (?1)`. -/
def insertProgram : Program (List (List SqlValue)) where
  columnNames := []
  declTypes := []
  parameterNames := [none]
  exec db values := { rows := [], database := db ++ [values], own := 1 }

theorem executedAll_iff_insert :
    ∃ s, (DbResult.bind [.int [1, 2]]).run
        (initialState (Handles.prepare insertProgram [] (Int32.ofNat (2 ^ 31 - 1))) false) =
          .ok () s ∧
      ExecutedAll (initialState (Handles.prepare insertProgram [] (Int32.ofNat (2 ^ 31 - 1))) false)
        s [.int [1, 2]] :=
  ⟨_, rfl, (executedAll_iff _ _ [.int [1, 2]] rfl).mpr
    ⟨[[.integer 1], [.integer 2]], rfl, ⟨rfl, trivial⟩, fun _ => rfl⟩⟩

/-- `INSERT INTO t VALUES (?1) RETURNING *`. -/
def returningProgram : Program (List (List SqlValue)) where
  columnNames := ["x"]
  declTypes := [none]
  parameterNames := [none]
  exec db values := { rows := [values], database := db ++ [values], own := 1 }

/-- The second row of parameters is not executed. -/
theorem executedAll_returning :
    ∃ s, (DbResult.bind [.int [1, 2]]).run (initialState (Handles.prepare returningProgram [] 0)
        false) = .ok () s ∧
      ¬ ExecutedAll (initialState (Handles.prepare returningProgram [] 0) false) s
        [.int [1, 2]] := by
  refine ⟨_, rfl, ?_⟩
  rintro ⟨values, rows, executed, _⟩
  obtain rfl : [[.integer 1]] = values := executed
  cases rows

end RSQLite
