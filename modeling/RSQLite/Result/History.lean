import RSQLite.Result.Ahead
import RSQLite.Result.Quiet

/-!
Whatever a result is used for, it remains the result of its statement.
-/
namespace RSQLite

open SqliteResultImpl Measured Simulation Invariant Ending

variable {DB : Type} (cv : Conversions)

/-- The result of a statement, whatever it has been used for, on a database of which
something is known. -/
structure BelongsTo (program : Program DB) (content : DB → Prop) (withAltTypes : Bool)
    (s : SqliteResultImpl DB) : Prop where
  program : s.handles.program = program
  database : content s.handles.database
  withAltTypes : s.withAltTypes = withAltTypes
  width : s.types.length = s.ncols
  count : s.ready = true → s.params.length = s.nparams

/-- What holds of the database before an execution of the statement holds after it. -/
def Preserves (program : Program DB) (content : DB → Prop) : Prop :=
  ∀ db values, content db → content (program.exec db values).database

theorem runAll_preserves (program : Program DB) (content : DB → Prop)
    (preserves : Preserves program content) (done : List (List SqlValue)) :
    ∀ db, content db → content (Handles.runAll program db done).1 := by
  induction done with
  | nil => exact fun _ holds => holds
  | cons values rest ih => exact fun db holds => ih _ (preserves db values holds)

variable {program : Program DB} {content : DB → Prop} {alt : Bool}
  (preserves : Preserves program content)

/-- While it is fetched from, a result is ready. -/
def BelongsReady (program : Program DB) (content : DB → Prop) (alt : Bool)
    (s : SqliteResultImpl DB) : Prop :=
  BelongsTo program content alt s ∧ s.ready = true

include preserves

theorem belongsTo_moveTo (s : SqliteResultImpl DB) (h : Handles DB) (g : Nat)
    (done : List (List SqlValue)) (belongs : BelongsTo program content alt s)
    (progress : s.handles.Progress h done) : BelongsTo program content alt (s.moveTo h g) where
  program := progress.program.trans belongs.program
  database := by
    have kept := runAll_preserves program content preserves done _ belongs.database
    rw [← belongs.program, ← progress.database] at kept
    exact kept
  withAltTypes := belongs.withAltTypes
  width := belongs.width.trans (congrArg (fun p => p.columnNames.length) progress.program).symm
  count ready := (belongs.count ready).trans progress.parameterCount.symm

theorem belongsTo_step : Kept (BelongsReady program content alt) (BelongsReady program content alt)
    (step : Method DB Unit) := by
  intro s holds
  obtain ⟨belongs, ready⟩ := holds
  have ended := step_end s (belongs.count ready)
  generalize step.run s = result at ended ⊢
  generalize s.upcoming = stream at ended
  cases ended with
  | row h g done row progress run shown =>
      exact ⟨belongsTo_moveTo preserves s h g done belongs progress, ready⟩
  | finished h g done progress run hidden =>
      have moved := belongsTo_moveTo preserves s h g done belongs progress
      exact ⟨⟨moved.program, moved.database, moved.withAltTypes, moved.width, moved.count⟩, ready⟩
  | failed h g done f progress run hidden =>
      exact ⟨belongsTo_moveTo preserves s h g done belongs progress, ready⟩

theorem belongsTo_fetchLoop {I : Type} [Counter I] (fuel : Nat) :
    ∀ df, Kept (BelongsReady program content alt) (BelongsReady program content alt)
      (fetchLoop cv fuel df : Method DB (DbDataFrame I)) := by
  induction fuel with
  | zero => exact fun df s holds => holds
  | succ fuel ih =>
      intro df
      apply kept_bind _ _ kept_get
      intro s
      apply kept_ite _ _ _ (kept_pure _)
      apply kept_bind
      · apply kept_bind _ _ kept_get
        intro s
        cases df.setColValues cv s.handles with
        | ok df' => exact kept_pure df'
        | error f => exact fun _ holds => holds
      · intro df'
        apply kept_bind _ _ (belongsTo_step preserves)
        intro _
        apply kept_bind
        · apply kept_modify
          intro s holds
          exact ⟨⟨holds.1.program, holds.1.database, holds.1.withAltTypes, holds.1.width,
            holds.1.count⟩, holds.2⟩
        · intro _
          apply kept_bind
          · cases df'.advance with
            | ok counted => exact kept_pure counted
            | error f => exact fun _ holds => holds
          · exact fun counted => kept_ite _ _ _ (ih counted.2) (kept_pure _)

theorem belongsTo_stepped (s : SqliteResultImpl DB) (belongs : BelongsTo program content alt s)
    (ready : s.ready = true) : BelongsTo program content alt (endState (step.run s)) := by
  have kept := belongsTo_step preserves s ⟨belongs, ready⟩
  cases run : step.run s with
  | ok a s' =>
      rw [run] at kept
      exact kept.1
  | error f s' =>
      rw [run] at kept
      exact kept.1

theorem belongsTo_bind (params : List RVector) (s : SqliteResultImpl DB)
    (belongs : BelongsTo program content alt s) :
    BelongsTo program content alt (endState ((DbResult.bind params).run s)) := by
  have runs := bind_runs s params
  generalize (DbResult.bind params).run s = result at runs ⊢
  cases runs with
  | refused message _ => exact belongs
  | empty checked _ =>
      exact ⟨belongs.program, belongs.database, belongs.withAltTypes, belongs.width,
        fun _ => checked.supplied⟩
  | unbindable f bindings checked rows row =>
      rw [Handles.reset_eq]
      exact ⟨belongs.program, belongs.database, belongs.withAltTypes, belongs.width,
        fun _ => checked.supplied⟩
  | stepped values checked rows row =>
      have handles := bound_handles s params values
      apply belongsTo_stepped preserves _ _ rfl
      refine ⟨?_, ?_, belongs.withAltTypes, ?_, fun _ => bound_count s params values checked⟩
      · rw [handles]
        exact belongs.program
      · rw [handles]
        exact belongs.database
      · rw [ncols, handles]
        exact belongs.width

omit preserves

theorem BelongsTo.width_eq {s : SqliteResultImpl DB} (belongs : BelongsTo program content alt s) :
    s.types.length = program.columnNames.length := by
  rw [belongs.width, ncols, Handles.columnCount, belongs.program]

theorem belongsTo_types (s : SqliteResultImpl DB) (belongs : BelongsTo program content alt s)
    (types : List DataType) (width : types.length = s.types.length) :
    BelongsTo program content alt { s with types := types } :=
  ⟨belongs.program, belongs.database, belongs.withAltTypes, width.trans belongs.width,
    belongs.count⟩

theorem getData_width {I : Type} [Counter I] (df : DbDataFrame I) (frame : DataFrame)
    (types : List DataType) (data : df.getData = .ok (frame, types)) :
    types.length = df.data.length := by
  simp only [DbDataFrame.getData, Bind.bind, Except.bind] at data
  split at data
  · cases data
  · cases data
    rw [List.length_map, List.length_map]

theorem setColValues_width {I : Type} [Counter I] (df df' : DbDataFrame I) (h : Handles DB)
    (read : df.setColValues cv h = .ok df') : df'.data.length = df.data.length := by
  simp only [DbDataFrame.setColValues, Bind.bind, Except.bind] at read
  split at read
  · cases read
  · next data all =>
      cases read
      rw [Traverse.mapM_length _ _ _ all, List.length_zipIdx]

theorem fetchLoop_width {I : Type} [Counter I] (fuel : Nat) :
    ∀ (df df' : DbDataFrame I) (s s' : SqliteResultImpl DB),
      (fetchLoop cv fuel df).run s = .ok df' s' → df'.data.length = df.data.length := by
  induction fuel with
  | zero =>
      intro df df' s s' run
      cases run
  | succ fuel ih =>
      intro df df' s s' run
      obtain ⟨_, rfl⟩ | ⟨_, read, next, s₁, set, _, advance, rest⟩ := fetchLoop_ok cv run
      · rfl
      · have width : next.data.length = df.data.length := by
          rw [(advance_counted advance).2.2.2, setColValues_width cv df read s.handles set]
        split at rest
        · exact (ih next df' _ s' rest).trans width
        · cases rest
          exact width

/-- A fetch, whether it returns or raises. -/
theorem belongsTo_fetch (preserves : Preserves program content) (fuel : Nat) (nMax : Int)
    (s : SqliteResultImpl DB) (belongs : BelongsTo program content alt s) :
    BelongsTo program content alt (endState ((DbResult.fetch cv fuel nMax).run s)) := by
  rw [DbResult.fetch, fetch, EStateM.run_bind, EStateM.run_get]
  cases ready : s.ready with
  | false =>
      simp only [ready, Bool.false_eq_true, ite_false, run_throwFault]
      exact belongs
  | true =>
      simp only [ready, ite_true]
      split
      · rw [fetchRows, EStateM.run_bind, EStateM.run_get]
        have kept := belongsTo_fetchLoop cv preserves fuel (s.newDataFrame nMax : DbDataFrame Nat) s
          ⟨belongs, ready⟩
        cases loop : (fetchLoop cv fuel (s.newDataFrame nMax : DbDataFrame Nat)).run s with
        | error f s' =>
            rw [loop] at kept
            simp only [run_bind_error _ _ _ _ _ loop]
            exact kept.1
        | ok df s' =>
            rw [loop] at kept
            have width := fetchLoop_width cv fuel (s.newDataFrame nMax) df s s' loop
            simp only [run_bind_ok _ _ _ _ _ loop]
            cases data : df.getData with
            | error f =>
                rw [SqliteResultImpl.getData, data]
                exact kept.1
            | ok filled =>
                obtain ⟨frame, types⟩ := filled
                simp only [run_bind_ok _ _ _ _ _ (getData_run s' df frame types data)]
                apply belongsTo_types s' kept.1
                rw [getData_width df frame types data, width, newDataFrame, DbDataFrame.create,
                  List.length_mapIdx, belongs.width_eq, kept.1.width_eq]
      · rw [peekFirstRow_eq cv s]
        exact belongsTo_types s belongs s.peekedTypes (peekedTypes_length s)

theorem belongsTo_answer (preserves : Preserves program content) (fuel : Nat) (request : Request)
    (s : SqliteResultImpl DB) (belongs : BelongsTo program content alt s) :
    BelongsTo program content alt (answer cv fuel request s).2 := by
  cases request with
  | fetch nMax => exact belongsTo_fetch cv preserves fuel nMax s belongs
  | bind params => exact belongsTo_bind preserves params s belongs
  | complete | nRowsFetched | nRowsAffected => exact belongs
  | columnInfo =>
      rw [answer, getColumnInfo, run_bind_ok _ _ _ _ _ (peekFirstRow_eq cv s)]
      exact belongsTo_types s belongs s.peekedTypes (peekedTypes_length s)

/-- No history of a result changes what it is the result of. -/
theorem belongsTo_answers (preserves : Preserves program content) (fuel : Nat)
    (history : List Request) :
    ∀ s : SqliteResultImpl DB, BelongsTo program content alt s →
      BelongsTo program content alt (answers (answer cv fuel) history s).2 :=
  invariant_answers (answer cv fuel) (BelongsTo program content alt)
    (belongsTo_answer cv preserves fuel) history

theorem belongsTo_prepared (program : Program DB) (content : DB → Prop) (db : DB)
    (holds : content db) (alt : Bool) (totalChanges : Int32) : BelongsTo program content alt
      (initialState (Handles.prepare program db totalChanges) alt) where
  program := rfl
  database := holds
  withAltTypes := rfl
  width := List.length_replicate
  count ready := by cases ready

theorem belongsTo_created (preserves : Preserves program content) (db : DB) (holds : content db)
    (totalChanges : Int32) (s : SqliteResultImpl DB)
    (created : create (Handles.prepare program db totalChanges) alt = .ok () s) :
    BelongsTo program content alt s := by
  have prepared := belongsTo_prepared program content db holds alt totalChanges
  by_cases none : program.parameterNames = []
  · have started : BelongsTo program content alt
        ((initialState (Handles.prepare program db totalChanges) alt).initialised true) :=
      ⟨rfl, holds, rfl, prepared.width, fun _ => (congrArg List.length none).symm⟩
    have stepped := belongsTo_stepped preserves _ started rfl
    rw [create_noParams program db totalChanges alt none] at created
    rw [created] at stepped
    exact stepped
  · rw [create_parameterised program db totalChanges alt none] at created
    cases created
    exact prepared

end RSQLite
