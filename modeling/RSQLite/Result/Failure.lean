import RSQLite.Library.Grows
import RSQLite.Result.Rows

/-!
Fetches after a fetch that raised the statement's error. The result is neither
complete nor unbound then, and no row is shown: a peek is harmless, but a fetch
delivers a row of NULLs and has SQLite execute the statement again.
-/
namespace RSQLite

open SqliteResultImpl Measured

variable {DB : Type} (cv : Conversions)

/-- How often the statement has been executed. -/
def executions (s : SqliteResultImpl DB) : Nat := s.handles.executed.length

theorem executions_step (s : SqliteResultImpl DB) :
    executions (s.withHandles s.handles.step.2) = executions s + s.handles.toExecute.length := by
  have progress : s.handles.Progress s.handles.step.2 s.handles.toExecute := by
    generalize stepped : s.handles.step = result
    cases stepped ▸ Handles.step_stepped s.handles with
    | row row rest own h upcoming progress => exact progress
    | done h rows failure progress => exact progress
    | error message h rows failure progress => exact progress
  rw [executions, executions, withHandles, progress.executed, List.length_append]

theorem grows_throwFault {α : Type} (f : Fault) :
    Grows executions (throwFault f : Method DB α) := fun _ => le_refl _

theorem grows_liftOutcome {α : Type} (o : Outcome α) :
    Grows executions (liftOutcome o : Method DB α) := by
  cases o with
  | ok a => exact grows_pure a
  | error f => exact grows_throwFault f

theorem grows_bindParameterPos (j : Nat) (value : RVector) :
    Grows executions (bindParameterPos j value : Method DB Unit) := by
  refine grows_bind _ _ grows_get (fun s => grows_bind _ _ (grows_liftOutcome _) (fun v => ?_))
  refine grows_modify _ (fun s => ?_)
  rw [Handles.bind]
  split <;> exact le_refl _

theorem grows_bindParameters (params : List RVector) :
    ∀ j, Grows executions (bindParameters j params : Method DB Unit) := by
  induction params with
  | nil => exact fun _ => grows_pure ()
  | cons value rest ih =>
      exact fun j => grows_bind _ _ (grows_bindParameterPos (j + 1) value) (fun _ => ih (j + 1))

theorem grows_bindRow : Grows executions (bindRow : Method DB Bool) := by
  refine grows_bind _ _ grows_get (fun s => grows_ite _ _ _ (grows_pure _) ?_)
  refine grows_bind _ _ (grows_modify _ (fun _ => ?_)) (fun _ => ?_)
  · rw [Handles.reset_eq]
    exact le_refl _
  · exact grows_bind _ _ (grows_bindParameters _ 0) (fun _ => grows_pure _)

theorem grows_stepDone : Grows executions (stepDone : Method DB Bool) := by
  refine grows_bind _ _ (grows_modify _ (fun _ => le_refl _)) (fun _ => ?_)
  refine grows_bind _ _ grows_bindRow (fun more => ?_)
  cases more with
  | true => exact grows_pure true
  | false => exact grows_bind _ _ (grows_modify _ (fun _ => le_refl _)) (fun _ => grows_pure false)

theorem grows_sqlite3Step : Grows executions (sqlite3Step : Method DB StepResult) := by
  intro s
  have step := executions_step s
  change executions s ≤ executions (s.withHandles s.handles.step.2)
  omega

/-- What `step_run()` does with the outcome of `sqlite3_step()`. -/
theorem grows_stepped (r : StepResult) : Grows executions (match r with
    | .done => stepDone
    | .row => pure false
    | .error message => throwFault (.stop message) : Method DB Bool) := by
  cases r with
  | done => exact grows_stepDone
  | row => exact grows_pure false
  | error message => exact grows_throwFault _

theorem grows_stepRun : Grows executions (stepRun : Method DB Bool) :=
  grows_bind _ _ grows_sqlite3Step grows_stepped

theorem grows_stepLoop (rounds : Nat) : Grows executions (stepLoop rounds : Method DB Unit) := by
  induction rounds with
  | zero => exact grows_throwFault _
  | succ rounds ih =>
      exact grows_bind _ _ grows_stepRun (fun again => grows_ite _ _ _ ih (grows_pure _))

theorem grows_step : Grows executions (step : Method DB Unit) :=
  grows_bind _ _ grows_get (fun _ => grows_stepLoop _)

theorem executions_lt_step (s : SqliteResultImpl DB) (hidden : s.handles.current = none) :
    executions s < executions (endState (step.run s)) := by
  have executes : s.handles.toExecute.length = 1 := by
    cases vdbe : s.handles.vdbe with
    | run current rest failure own => simp [Handles.current, vdbe] at hidden
    | ready | halt => simp [Handles.toExecute, vdbe]
  have first := executions_step s
  have run : executions (s.withHandles s.handles.step.2) ≤
      executions (endState ((stepRun : Method DB Bool).run s)) :=
    le_run_bind sqlite3Step _ grows_stepped s
  have loop : executions (endState ((stepRun : Method DB Bool).run s)) ≤
      executions (endState (step.run s)) :=
    le_run_bind stepRun _
      (fun again => grows_ite _ _ _ (grows_stepLoop (s.groups - s.group)) (grows_pure _)) s
  omega

theorem grows_setColValues {I : Type} [Counter I] (df : DbDataFrame I) :
    Grows executions (setColValues cv df : Method DB (DbDataFrame I)) :=
  grows_bind _ _ grows_get (fun _ => grows_liftOutcome _)

theorem grows_counted {I : Type} [Counter I] (loop : DbDataFrame I → Method DB (DbDataFrame I))
    (grows : ∀ df, Grows executions (loop df)) (df : DbDataFrame I) :
    Grows executions (do
      modify (fun s => { s with nrows := s.nrows + 1 })
      let (room, df) ← liftOutcome df.advance
      if room then loop df else pure df : Method DB (DbDataFrame I)) :=
  grows_bind _ _ (grows_modify _ (fun _ => le_refl _))
    (fun _ => grows_bind _ _ (grows_liftOutcome _)
      (fun counted => grows_ite _ _ _ (grows counted.2) (grows_pure _)))

theorem grows_fetchLoop {I : Type} [Counter I] (fuel : Nat) :
    ∀ df, Grows executions (fetchLoop cv fuel df : Method DB (DbDataFrame I)) := by
  induction fuel with
  | zero => exact fun df => grows_throwFault _
  | succ fuel ih =>
      intro df
      refine grows_bind _ _ grows_get (fun _ => grows_ite _ _ _ (grows_pure _) ?_)
      refine grows_bind _ _ (grows_setColValues cv df) (fun read => ?_)
      exact grows_bind _ _ grows_step (fun _ => grows_counted _ ih read)

theorem grows_getData {I : Type} [Counter I] (df : DbDataFrame I) :
    Grows executions (SqliteResultImpl.getData df : Method DB DataFrame) :=
  grows_bind _ _ (grows_liftOutcome _)
    (fun _ => grows_bind _ _ (grows_modify _ (fun _ => le_refl _)) (fun _ => grows_pure _))

theorem grows_fetchRows (fuel : Nat) (request : Int) :
    Grows executions (fetchRows cv Nat fuel request : Method DB DataFrame) :=
  grows_bind _ _ grows_get (fun _ => grows_bind _ _ (grows_fetchLoop cv fuel _)
    (fun _ => grows_bind _ _ (grows_getData _) (fun _ => grows_pure _)))

theorem grows_peekFirstRow : Grows executions (peekFirstRow cv : Method DB DataFrame) := by
  intro s
  obtain ⟨frame, types, run, _⟩ := peekFirstRow_run cv s
  rw [run]
  exact le_refl _

theorem grows_fetch (fuel : Nat) (request : Int) :
    Grows executions (DbResult.fetch cv fuel request : Method DB DataFrame) :=
  grows_bind _ _ grows_get (fun _ => grows_ite _ _ _
    (grows_ite _ _ _ (grows_fetchRows cv fuel request) (grows_peekFirstRow cv))
    (grows_throwFault _))

/-- The state that a failed step leaves. -/
structure Broken (s : SqliteResultImpl DB) : Prop where
  ready : s.ready = true
  running : s.complete = false
  hidden : s.handles.current = none

theorem executions_lt_fetchLoop (fuel : Nat) (s : SqliteResultImpl DB) (broken : Broken s)
    (df : DbDataFrame Nat) (framed : Framed cv s.columnSource s.types df []) :
    executions s < executions (endState ((fetchLoop cv (fuel + 1) df).run s)) := by
  obtain ⟨read, set, _⟩ := setColValues_run cv s.columnSource s.types s df [] framed (reaches_nat _)
  have ahead := executions_lt_step s broken.hidden
  rw [fetchLoop, EStateM.run_bind, EStateM.run_get]
  simp only [broken.running, Bool.false_eq_true, ite_false]
  rw [run_bind_ok _ _ _ _ _ set]
  exact lt_of_lt_of_le ahead
    (le_run_bind step _ (fun _ => grows_counted _ (grows_fetchLoop cv fuel) read) s)

theorem executions_lt_fetch (fuel : Nat) (s : SqliteResultImpl DB) (broken : Broken s)
    (request : Int) (asked : request ≠ 0) :
    executions s < executions (endState ((DbResult.fetch cv (fuel + 1) request).run s)) := by
  have loop := executions_lt_fetchLoop cv fuel s broken (s.newDataFrame request)
    (framed_create cv s.columnSource s.names request s.types)
  rw [DbResult.fetch, fetch, EStateM.run_bind, EStateM.run_get]
  simp only [broken.ready, ite_true, if_pos asked]
  rw [fetchRows, EStateM.run_bind, EStateM.run_get]
  exact lt_of_lt_of_le loop (le_run_bind (fetchLoop cv (fuel + 1) (s.newDataFrame request)) _
    (fun _ => grows_bind _ _ (grows_getData _) (fun _ => grows_pure _)) s)

theorem peek_broken (fuel : Nat) (s : SqliteResultImpl DB) (broken : Broken s) :
    ∃ frame s', (DbResult.fetch cv fuel 0).run s = .ok frame s' ∧ frame.rows = [] ∧ Broken s' ∧
      s'.handles = s.handles := by
  obtain ⟨frame, types, run, rows⟩ := peekFirstRow_run cv s
  refine ⟨frame, { s with types := types }, ?_, rows,
    ⟨broken.ready, broken.running, broken.hidden⟩, rfl⟩
  rw [DbResult.fetch, fetch, EStateM.run_bind, EStateM.run_get]
  refine Eq.trans ?_ run
  simp only [broken.ready, ite_true, ne_eq, not_true_eq_false, ite_false]

/-- Fetches that go on whether or not one of them raises. -/
def attempts (fuel : Nat) : List Int → SqliteResultImpl DB →
    List (Outcome DataFrame) × SqliteResultImpl DB
  | [], s => ([], s)
  | request :: requests, s =>
      match (DbResult.fetch cv fuel request).run s with
      | .ok frame s' => (.ok frame :: (attempts fuel requests s').1, (attempts fuel requests s').2)
      | .error f s' => (.error f :: (attempts fuel requests s').1, (attempts fuel requests s').2)

theorem attempts_state (fuel : Nat) (request : Int) (requests : List Int)
    (s : SqliteResultImpl DB) :
    (attempts cv fuel (request :: requests) s).2 =
      (attempts cv fuel requests (endState ((DbResult.fetch cv fuel request).run s))).2 := by
  rw [attempts]
  cases (DbResult.fetch cv fuel request).run s <;> rfl

theorem executions_le_attempts (fuel : Nat) (requests : List Int) (s : SqliteResultImpl DB) :
    executions s ≤ executions (attempts cv fuel requests s).2 := by
  induction requests generalizing s with
  | nil => exact le_refl _
  | cons request requests ih =>
      rw [attempts_state]
      exact le_trans (grows_fetch cv fuel request s) (ih _)

theorem executions_lt_attempts (fuel : Nat) (requests : List Int) (s : SqliteResultImpl DB)
    (broken : Broken s) (asked : ∃ request ∈ requests, request ≠ 0) :
    executions s < executions (attempts cv (fuel + 1) requests s).2 := by
  induction requests generalizing s with
  | nil => simp at asked
  | cons request requests ih =>
      rw [attempts_state]
      by_cases zero : request = 0
      · subst zero
        obtain ⟨frame, s', run, _, broken', handles⟩ := peek_broken cv (fuel + 1) s broken
        have same : executions s' = executions s := by rw [executions, handles, executions]
        rw [run, ← same]
        refine ih s' broken' ?_
        obtain ⟨other, member, nonzero⟩ := asked
        cases member with
        | head => exact absurd rfl nonzero
        | tail _ member => exact ⟨other, member, nonzero⟩
      · exact lt_of_lt_of_le (executions_lt_fetch cv fuel s broken request zero)
          (executions_le_attempts cv (fuel + 1) requests _)

theorem attempts_peeks (fuel : Nat) (requests : List Int) (s : SqliteResultImpl DB)
    (broken : Broken s) (peeks : ∀ request ∈ requests, request = 0) :
    (∀ frame, .ok frame ∈ (attempts cv fuel requests s).1 → frame.rows = []) ∧
      (attempts cv fuel requests s).2.handles = s.handles := by
  induction requests generalizing s with
  | nil => exact ⟨fun frame h => (List.not_mem_nil h).elim, rfl⟩
  | cons request requests ih =>
      obtain rfl := peeks request List.mem_cons_self
      obtain ⟨frame, s', run, rows, broken', handles⟩ := peek_broken cv fuel s broken
      obtain ⟨rest, handles'⟩ := ih s' broken' (fun r hr => peeks r (List.mem_cons_of_mem _ hr))
      rw [attempts, run]
      refine ⟨fun other h => ?_, handles'.trans handles⟩
      cases h with
      | head => exact rows
      | tail _ h => exact rest other h

/-- What must hold of fetches after a failed one: they deliver no row that the
statement did not yield and none that has been delivered, and the statement is not
executed again. -/
def SafeAfterFailure (fuel : Nat) (delivered : List (Option Row)) (later : List Int)
    (s : SqliteResultImpl DB) : Prop :=
  (∀ frame, .ok frame ∈ (attempts cv fuel later s).1 →
    ∀ row ∈ frame.rows, row ≠ none ∧ row ∉ delivered) ∧
  (attempts cv fuel later s).2.handles.executed = s.handles.executed

theorem safeAfterFailure_broken (fuel : Nat) (delivered : List (Option Row)) (later : List Int)
    (s : SqliteResultImpl DB) (broken : Broken s) :
    SafeAfterFailure cv (fuel + 1) delivered later s ↔ ∀ request ∈ later, request = 0 := by
  constructor
  · intro safe request member
    by_contra nonzero
    have more := executions_lt_attempts cv fuel later s broken ⟨request, member, nonzero⟩
    rw [executions, executions, safe.2] at more
    exact lt_irrefl _ more
  · intro peeks
    obtain ⟨rows, handles⟩ := attempts_peeks cv (fuel + 1) later s broken peeks
    refine ⟨fun frame h row member => ?_, by rw [handles]⟩
    rw [rows frame h] at member
    exact (List.not_mem_nil member).elim

/-- Fetches that succeed leave the rest of the stream pending, with its failure. -/
theorem fetches_pending (fuel : Nat) (requests : List Int) :
    ∀ (s s' : SqliteResultImpl DB) (frames : List DataFrame) (rows : List Row)
      (f : Option Fault), s.ready = true → s.params.length = s.nparams → s.Pending (rows, f) →
      rows.length < fuel → (fetches cv fuel requests).run s = .ok frames s' →
      s'.ready = true ∧ s'.params.length = s'.nparams ∧
        s'.Pending (Chunked.restAll requests rows, f) := by
  induction requests with
  | nil =>
      intro s s' frames rows f ready count pending _ run
      cases run
      exact ⟨ready, count, pending⟩
  | cons request requests ih =>
      intro s s' frames rows f ready count pending enough run
      have ended := fetch_end cv fuel s request rows f ready count pending (reaches_nat _) enough
      generalize ran : (fetch cv Nat fuel request).run s = result at ended
      cases ended with
      | delivered frame h g c n types done f _ _ progress _ pending' _ _ =>
          have count' : s.params.length = h.parameterCount :=
            count.trans progress.parameterCount.symm
          have shorter : (Chunked.rest request rows).length < fuel :=
            Nat.lt_of_le_of_lt (Chunked.rest_length_le request rows) enough
          rw [fetches, DbResult.fetch, run_bind_ok _ _ _ _ _ ran] at run
          cases rest : (fetches cv fuel requests).run (s.fetched h g c n types) with
          | ok frames' s'' =>
              rw [run_bind_ok _ _ _ _ _ rest] at run
              cases run
              exact ih (s.fetched h g c n types) _ frames' _ f ready count' pending' shorter rest
          | error e s'' =>
              rw [run_bind_error _ _ _ _ _ rest] at run
              cases run
      | failed h g n done f _ _ _ _ _ =>
          rw [fetches, DbResult.fetch, run_bind_error _ _ _ _ _ ran] at run
          cases run

theorem broken_of_failed (fuel : Nat) (s s' : SqliteResultImpl DB) (request : Int) (e : Fault)
    (rows : List Row) (f : Option Fault) (ready : s.ready = true)
    (count : s.params.length = s.nparams) (pending : s.Pending (rows, f))
    (enough : rows.length < fuel) (failed : (DbResult.fetch cv fuel request).run s = .error e s') :
    Broken s' := by
  have ended := fetch_end cv fuel s request rows f ready count pending (reaches_nat _) enough
  rw [DbResult.fetch] at failed
  rw [failed] at ended
  cases ended with
  | failed h g n done f _ _ hidden _ _ => exact ⟨ready, rfl, hidden⟩

/-- After a bind, some fetches and a fetch that raised, the result is safe to use
exactly as long as it is only peeked at. -/
theorem safeAfterFailure_iff (before : Handles DB) (todo : List (Outcome (List SqlValue)))
    (s s₁ s₂ : SqliteResultImpl DB) (bound : Bound before todo s) (fuel : Nat)
    (enough : (rowsFrom before.program before.database todo).1.length < fuel)
    (earlier : List Int) (frames : List DataFrame)
    (fetched : (fetches cv fuel earlier).run s = .ok frames s₁) (request : Int) (message : String)
    (failed : (DbResult.fetch cv fuel request).run s₁ = .error (.stop message) s₂)
    (later : List Int) (rounds : Nat) :
    SafeAfterFailure cv (rounds + 1) (frames.map DataFrame.rows).flatten later s₂ ↔
      ∀ request ∈ later, request = 0 := by
  have opened := opened_of_bound before todo s bound
  obtain ⟨ready, count, pending⟩ := fetches_pending cv fuel earlier s s₁ frames _ _ opened.ready
    opened.count opened.pending enough fetched
  have shorter : (Chunked.restAll earlier
      (rowsFrom before.program before.database todo).1).length < fuel := by
    have whole := congrArg List.length (Chunked.pieces_flatten earlier
      (rowsFrom before.program before.database todo).1)
    rw [List.length_append] at whole
    omega
  exact safeAfterFailure_broken cv rounds _ later s₂
    (broken_of_failed cv fuel s₁ s₂ request _ _ _ ready count pending shorter failed)

/-- Two rows, and an error behind them. -/
def failingProgram : Program Unit where
  columnNames := ["x"]
  declTypes := [none]
  parameterNames := []
  exec _ _ :=
    { rows := [[.integer 1], [.integer 2]], failure := some "integer overflow", database := () }

theorem safeAfterFailure_iff_peeks :
    ∃ s₁ s₂, create (Handles.prepare failingProgram () 0) false = .ok () s₁ ∧
      (DbResult.fetch noConversions 3 (-1)).run s₁ = .error (.stop "integer overflow") s₂ ∧
      SafeAfterFailure noConversions 3 [] [0, 0] s₂ := by
  refine ⟨_, _, rfl, rfl, ?_⟩
  exact (safeAfterFailure_iff noConversions (Handles.prepare failingProgram () 0) [.ok []] _ _ _
    (.noParams failingProgram () 0 false _ rfl rfl) 3 (by decide) [] [] rfl (-1) _ rfl [0, 0]
    2).mpr (by decide)

/-- A fetch after the error delivers a row of NULLs and executes the statement again. -/
theorem failure_refetch :
    ∃ s₁ s₂, create (Handles.prepare failingProgram () 0) false = .ok () s₁ ∧
      (DbResult.fetch noConversions 3 (-1)).run s₁ = .error (.stop "integer overflow") s₂ ∧
      ¬ SafeAfterFailure noConversions 3 [] [1] s₂ := by
  refine ⟨_, _, rfl, rfl, fun safe => ?_⟩
  have executed := safe.2
  cases executed

end RSQLite
