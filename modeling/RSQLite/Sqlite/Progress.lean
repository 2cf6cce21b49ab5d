import RSQLite.Sqlite.Statement

/-!
What any use of a statement amounts to: a list of executions, one after the
other, each on the database that the previous one left. The changes of these
executions are counted once the statement is no longer running.
-/
namespace RSQLite

namespace Handles

variable {DB : Type}

/-- The database after executions on these values, and the changes they made. -/
def runAll (program : Program DB) : DB → List (List SqlValue) → DB × Nat
  | db, [] => (db, 0)
  | db, values :: rest =>
      let e := program.exec db values
      ((runAll program e.database rest).1, e.changes + (runAll program e.database rest).2)

theorem runAll_append (program : Program DB) (db : DB) (first second : List (List SqlValue)) :
    runAll program db (first ++ second) =
      ((runAll program (runAll program db first).1 second).1,
        (runAll program db first).2 + (runAll program (runAll program db first).1 second).2) := by
  induction first generalizing db with
  | nil => simp only [List.nil_append, runAll, Nat.zero_add]
  | cons values rest ih => simp only [List.cons_append, runAll, ih, Nat.add_assoc]

/-- The change counter once the running statement has halted. -/
def settled (h : Handles DB) : Int32 := h.totalChanges + h.uncounted

/-- From `h` to `h'` the statement was executed on the values `done`, in this order. -/
structure Progress (h h' : Handles DB) (done : List (List SqlValue)) : Prop where
  program : h'.program = h.program
  executed : h'.executed = h.executed ++ done
  database : h'.database = (runAll h.program h.database done).1
  settled : h'.settled = h.settled + Int32.ofNat (runAll h.program h.database done).2

theorem Progress.refl (h : Handles DB) : Progress h h [] where
  program := rfl
  executed := (List.append_nil _).symm
  database := rfl
  settled := (Int32.add_zero _).symm

theorem Progress.trans {h h' h'' : Handles DB} {first second : List (List SqlValue)}
    (before : Progress h h' first) (after : Progress h' h'' second) :
    Progress h h'' (first ++ second) where
  program := after.program.trans before.program
  executed := by rw [after.executed, before.executed, List.append_assoc]
  database := by rw [after.database, before.program, before.database, runAll_append]
  settled := by
    rw [after.settled, before.settled, before.program, before.database, runAll_append,
      Int32.ofNat_add, Int32.add_assoc]

theorem Progress.parameterCount {h h' : Handles DB} {done : List (List SqlValue)}
    (progress : Progress h h' done) : h'.parameterCount = h.parameterCount := by
  rw [Handles.parameterCount, progress.program, Handles.parameterCount]

theorem progress_reset (h : Handles DB) : Progress h h.reset [] := by
  rw [reset_eq]
  exact ⟨rfl, (List.append_nil _).symm, rfl, rfl⟩

theorem progress_bindings (h : Handles DB) (bindings : List SqlValue) :
    Progress h (h.withBindings bindings) [] :=
  ⟨rfl, (List.append_nil _).symm, rfl, (Int32.add_zero _).symm⟩

/-- What the next step shows: the rest of the running execution, or a new one. -/
def upcoming (h : Handles DB) : List Row × Option String × DB :=
  match h.vdbe with
  | .run _ rest failure _ => (rest, failure, h.database)
  | .ready | .halt =>
      let e := h.program.exec h.database h.bindings
      (e.rows, e.failure, e.database)

/-- The values that the next step executes the statement on. -/
def toExecute (h : Handles DB) : List (List SqlValue) :=
  match h.vdbe with
  | .run _ _ _ _ => []
  | .ready | .halt => [h.bindings]

/-- One step: it shows the first of the upcoming rows, or ends the execution. -/
inductive Stepped (h : Handles DB) : StepResult × Handles DB → Prop
  | row (row : Row) (rest : List Row) (own : Nat) (h' : Handles DB)
      (upcoming : h.upcoming.1 = row :: rest) (progress : Progress h h' h.toExecute)
      (vdbe : h'.vdbe = .run row rest h.upcoming.2.1 own) (bindings : h'.bindings = h.bindings)
      (database : h'.database = h.upcoming.2.2) : Stepped h (.row, h')
  | done (h' : Handles DB) (rows : h.upcoming.1 = []) (failure : h.upcoming.2.1 = none)
      (progress : Progress h h' h.toExecute) (vdbe : h'.vdbe = .halt)
      (bindings : h'.bindings = h.bindings) (database : h'.database = h.upcoming.2.2) :
      Stepped h (.done, h')
  | error (message : String) (h' : Handles DB) (rows : h.upcoming.1 = [])
      (failure : h.upcoming.2.1 = some message) (progress : Progress h h' h.toExecute)
      (vdbe : h'.vdbe = .halt) (bindings : h'.bindings = h.bindings)
      (database : h'.database = h.upcoming.2.2) : Stepped h (.error message, h')

theorem emit_settled (h : Handles DB) (failure : Option String) (own : Nat) (rows : List Row) :
    (h.emit failure own rows).2.settled = h.totalChanges + Int32.ofNat own := by
  cases rows with
  | cons row rest => rfl
  | nil => cases failure <;> exact Int32.add_zero _

theorem emit_progress (g h : Handles DB) (done : List (List SqlValue)) (failure : Option String)
    (own : Nat) (rows : List Row) (program : h.program = g.program)
    (executed : h.executed = g.executed ++ done)
    (database : h.database = (runAll g.program g.database done).1)
    (settled : h.totalChanges + Int32.ofNat own =
      g.settled + Int32.ofNat (runAll g.program g.database done).2) :
    Progress g (h.emit failure own rows).2 done := by
  have count := (emit_settled h failure own rows).trans settled
  cases rows with
  | cons row rest => exact ⟨program, executed, database, count⟩
  | nil => cases failure <;> exact ⟨program, executed, database, count⟩

theorem emit_stepped (g h : Handles DB) (failure : Option String) (own : Nat) (rows : List Row)
    (upcoming : g.upcoming = (rows, failure, h.database))
    (progress : Progress g (h.emit failure own rows).2 g.toExecute)
    (bindings : h.bindings = g.bindings) : Stepped g (h.emit failure own rows) := by
  have database : h.database = g.upcoming.2.2 := by rw [upcoming]
  cases rows with
  | cons row rest =>
      refine .row row rest own _ (by rw [upcoming]) progress ?_ bindings database
      rw [upcoming]
  | nil =>
      cases failure with
      | none => exact .done _ (by rw [upcoming]) (by rw [upcoming]) progress rfl bindings database
      | some message =>
          exact .error message _ (by rw [upcoming]) (by rw [upcoming]) progress rfl bindings
            database

theorem execute_stepped (h : Handles DB) (idle : h.uncounted = 0)
    (upcoming : h.upcoming = ((h.program.exec h.database h.bindings).rows,
      (h.program.exec h.database h.bindings).failure,
      (h.program.exec h.database h.bindings).database))
    (toExecute : h.toExecute = [h.bindings]) :
    Stepped h (h.execute.emit (h.program.exec h.database h.bindings).failure
      (h.program.exec h.database h.bindings).own (h.program.exec h.database h.bindings).rows) := by
  refine emit_stepped h h.execute _ _ _ upcoming ?_ rfl
  rw [toExecute]
  refine emit_progress h h.execute [h.bindings] _ _ _ rfl rfl rfl ?_
  simp only [settled, idle, runAll, Nat.add_zero, Execution.changes, Int32.ofNat_add, execute,
    Int32.add_zero, Int32.add_assoc]

theorem step_stepped (h : Handles DB) : Stepped h h.step := by
  cases hv : h.vdbe with
  | run current rest failure own =>
      have shown : h.step = h.emit failure own rest := by simp only [step, hv]
      rw [shown]
      refine emit_stepped h h failure own rest (by simp only [upcoming, hv]) ?_ rfl
      rw [show h.toExecute = [] by simp only [toExecute, hv]]
      refine emit_progress h h [] failure own rest rfl (List.append_nil _).symm rfl ?_
      simp only [settled, uncounted, hv, runAll]
      exact (Int32.add_zero _).symm
  | ready | halt =>
      have shown : h.step = h.execute.emit (h.program.exec h.database h.bindings).failure
          (h.program.exec h.database h.bindings).own
          (h.program.exec h.database h.bindings).rows := by simp only [step, hv]
      rw [shown]
      apply execute_stepped h
      · simp only [uncounted, hv]
      · simp only [upcoming, hv]
      · simp only [toExecute, hv]

end Handles

end RSQLite
