import RSQLite.Result.Look

/-!
Binding anew. Of what a result has been used for, a bind leaves the column types behind:
the rows depend on the statement, the database and the parameters alone.
-/
namespace RSQLite

open SqliteResultImpl Measured Simulation Invariant Ending

variable {DB : Type} (cv : Conversions)

/-- `dbBind()` followed by `dbFetch(n = -1)`. -/
def bindFetch (fuel : Nat) (params : List RVector) : Method DB DataFrame := do
  DbResult.bind params
  DbResult.fetch cv fuel (-1)

/-- Executions that leave the database as it is. -/
def ReadOnly (program : Program DB) (db : DB) : Prop :=
  ∀ values, (program.exec db values).database = db

/-- How a bind of checked parameters ends, given the rows for them. -/
inductive BindView (s : SqliteResultImpl DB) :
    List Row × Option Fault → EStateM.Result Fault (SqliteResultImpl DB) Unit → Prop
  | bound (s' : SqliteResultImpl DB) (rows : List Row) (f : Option Fault) (inUse : InUse s')
      (ahead : s'.ahead = (rows.map some, f)) (types : s'.types = s.types)
      (program : s'.handles.program = s.handles.program)
      (withAltTypes : s'.withAltTypes = s.withAltTypes) : BindView s (rows, f) (.ok () s')
  | failed (s' : SqliteResultImpl DB) (fault : Fault) :
      BindView s ([], some fault) (.error fault s')

theorem bind_view (s : SqliteResultImpl DB) (params : List RVector) (checked : Checked s params) :
    BindView s (rowsFrom s.handles.program s.handles.database (paramRows params))
      ((DbResult.bind params).run s) := by
  have runs := bind_runs s params
  generalize (DbResult.bind params).run s = result at runs ⊢
  cases runs with
  | refused message unchecked => exact absurd checked unchecked
  | empty _ none =>
      rw [paramRows_nil params none]
      exact .bound _ [] _ ⟨rfl, checked.supplied⟩ rfl rfl rfl rfl
  | unbindable f bindings _ rows row =>
      rw [paramRows_cons params rows, row]
      exact .failed _ f
  | stepped values _ rows row =>
      have count := bound_count s params values checked
      have program : (s.bound params values).handles.program = s.handles.program := by
        rw [bound_handles]
      have ended := step_end (s.bound params values) count
      rw [upcoming_bind s params values rows row] at ended
      generalize rowsFrom s.handles.program s.handles.database (paramRows params) = stream
        at ended ⊢
      generalize step.run (s.bound params values) = result at ended ⊢
      cases ended with
      | row h g done row progress run shown =>
          refine .bound _ _ _ ⟨rfl, count.trans progress.parameterCount.symm⟩ ?_ rfl
            (progress.program.trans program) rfl
          rw [ahead_running _ rfl, List.map_cons, ← shown]
          rfl
      | finished h g done progress run hidden =>
          exact .bound _ [] _ ⟨rfl, count.trans progress.parameterCount.symm⟩ rfl rfl
            (progress.program.trans program) rfl
      | failed h g done f progress run hidden => exact .failed _ f

theorem bindFetch_bound (fuel : Nat) (params : List RVector) (s s' : SqliteResultImpl DB)
    (accepted : (DbResult.bind params).run s = .ok () s') :
    (bindFetch cv fuel params).run s = (DbResult.fetch cv fuel (-1)).run s' := by
  rw [bindFetch, run_bind_ok _ _ _ _ _ accepted]

theorem bindFetch_refused (fuel : Nat) (params : List RVector) (s s' : SqliteResultImpl DB)
    (f : Fault) (refused : (DbResult.bind params).run s = .error f s') :
    outcomeOf ((bindFetch cv fuel params).run s) = .error f := by
  rw [bindFetch, run_bind_error _ _ _ _ _ refused]
  rfl

/-- A fetch of all rows reads all that is ahead, or raises the failure behind it. -/
theorem fetchAll_outcome (fuel : Nat) (s : SqliteResultImpl DB) (inUse : InUse s)
    (enough : s.ahead.1.length < fuel) :
    outcomeOf ((DbResult.fetch cv fuel (-1)).run s) =
      s.ahead.2.elim (.ok (s.fetchedFrame cv s.ahead.1)) .error := by
  have ended := advance_end s.ahead.1.length s inUse.count (Nat.le_refl _)
  have piece : Chunked.piece (-1) s.ahead.1 = s.ahead.1 := List.take_length
  have amount : Chunked.amount (-1) s.ahead.1.length = s.ahead.1.length := rfl
  rw [fetch_advance cv fuel s inUse.ready inUse.count (-1) (by decide) enough, piece, amount]
  generalize (advance s.ahead.1.length).run s = result at ended ⊢
  cases ended with
  | error h g n done f progress failure all =>
      rw [failure]
      rfl
  | ok h g c n done progress nrows ahead more =>
      rw [more.resolve_right (Nat.lt_irrefl _)]
      rfl

theorem bindFetch_failed (fuel : Nat) (params : List RVector) (s : SqliteResultImpl DB)
    (checked : Checked s params) (rows : List Row) (f : Fault)
    (stream : rowsFrom s.handles.program s.handles.database (paramRows params) = (rows, some f))
    (enough : rows.length < fuel) :
    outcomeOf ((bindFetch cv fuel params).run s) = .error f := by
  have ended := bind_view s params checked
  rw [stream] at ended
  generalize ran : (DbResult.bind params).run s = result at ended
  cases ended with
  | failed s' => exact bindFetch_refused cv fuel params s s' f ran
  | bound s' _ _ inUse ahead _ _ _ =>
      have length : s'.ahead.1.length < fuel := by
        rw [ahead, List.length_map]
        exact enough
      rw [bindFetch_bound cv fuel params s s' ran, fetchAll_outcome cv fuel s' inUse length, ahead]
      rfl

/-- The rows for the parameters are read into a frame that starts with the types left. -/
theorem bindFetch_returned (fuel : Nat) (params : List RVector) (s : SqliteResultImpl DB)
    (checked : Checked s params) (rows : List Row)
    (stream : rowsFrom s.handles.program s.handles.database (paramRows params) = (rows, none))
    (enough : rows.length < fuel) :
    ∃ s' : SqliteResultImpl DB, s'.ahead = (rows.map some, none) ∧ s'.types = s.types ∧
      s'.handles.program = s.handles.program ∧ s'.withAltTypes = s.withAltTypes ∧
      outcomeOf ((bindFetch cv fuel params).run s) =
        .ok (s'.fetchedFrame cv (rows.map some)) := by
  have ended := bind_view s params checked
  rw [stream] at ended
  generalize ran : (DbResult.bind params).run s = result at ended
  cases ended with
  | bound s' _ _ inUse ahead types program withAltTypes =>
      have length : s'.ahead.1.length < fuel := by
        rw [ahead, List.length_map]
        exact enough
      refine ⟨s', ahead, types, program, withAltTypes, ?_⟩
      rw [bindFetch_bound cv fuel params s s' ran, fetchAll_outcome cv fuel s' inUse length, ahead]
      rfl

/-- When a bind starts afresh: it is refused, an execution for the parameters fails, or
the types that are left read the rows for the parameters as no types would. -/
def StartsAfresh (s : SqliteResultImpl DB) (params : List RVector) : Prop :=
  let stream := rowsFrom s.handles.program s.handles.database (paramRows params)
  ¬ Checked s params ∨ stream.2 ≠ none ∨
    ∀ (j : Nat) (U : DataType), s.types[j]? = some U →
      StartsAlike cv (s.columnSource j) .unknown (initialType U)
        (stream.1.map (fun row => cellOf j (some row)))

theorem framesAlike_untyped (source : Nat → SqliteColumnDataSource) (types : List DataType)
    (rows : List Row) :
    FramesAlike cv source (List.replicate types.length .unknown) types (rows.map some) ↔
      ∀ (j : Nat) (U : DataType), types[j]? = some U →
        StartsAlike cv (source j) .unknown (initialType U)
          (rows.map (fun row => cellOf j (some row))) := by
  simp only [FramesAlike, List.map_map]
  constructor
  · intro alike j U hU
    have inside := (List.getElem?_eq_some_iff.mp hU).1
    exact alike j .unknown U (List.getElem?_replicate_of_lt inside) hU
  · intro alike j T U hT hU
    obtain rfl := List.eq_of_mem_replicate (List.mem_of_getElem? hT)
    exact alike j U hU

/-- The frame depends on the statement, on whether rows are ahead and on the types. -/
theorem fetchedFrame_congr (s t : SqliteResultImpl DB)
    (program : t.handles.program = s.handles.program)
    (withAltTypes : t.withAltTypes = s.withAltTypes) (complete : t.complete = s.complete)
    (read : List (Option Row)) :
    t.fetchedFrame cv read = (s.withTypes t.types).fetchedFrame cv read := by
  have source : t.columnSource = (s.withTypes t.types).columnSource := by
    funext j
    rw [columnSource, program, withAltTypes]
    rfl
  have names : t.names = (s.withTypes t.types).names := congrArg Program.columnNames program
  rw [fetchedFrame, fetchedFrame, source, names, complete]
  rfl

/-- Two results of one statement, bound to the same parameters. -/
theorem bindFetch_iff (fuel : Nat) (params : List RVector) (s t : SqliteResultImpl DB)
    (program : t.handles.program = s.handles.program)
    (database : t.handles.database = s.handles.database)
    (withAltTypes : t.withAltTypes = s.withAltTypes) (length : s.types.length = t.types.length)
    (checked : Checked s params) (rows : List Row)
    (stream : rowsFrom s.handles.program s.handles.database (paramRows params) = (rows, none))
    (enough : rows.length < fuel) :
    outcomeOf ((bindFetch cv fuel params).run s) = outcomeOf ((bindFetch cv fuel params).run t) ↔
      FramesAlike cv s.columnSource s.types t.types (rows.map some) := by
  obtain ⟨s', ahead, types, program₁, alt, returned⟩ :=
    bindFetch_returned cv fuel params s checked rows stream enough
  rw [← program, ← database] at stream
  obtain ⟨t', ahead', types', program₂, alt', returned'⟩ :=
    bindFetch_returned cv fuel params t (checked.of_program program) rows stream enough
  have complete : t'.complete = s'.complete := by
    apply Bool.eq_iff_iff.mpr
    rw [complete_iff_ahead, complete_iff_ahead, ahead, ahead']
  have source : s'.columnSource = s.columnSource := by
    funext j
    rw [columnSource, columnSource, program₁, alt]
  have same := fetchedFrame_congr cv s' t' (program₂.trans (program.trans program₁.symm))
    (alt'.trans (withAltTypes.trans alt.symm)) complete (rows.map some)
  have iff := fetchedFrame_eq_iff cv s' t'.types (by rw [types', types, length])
    (rows.map some)
  rw [returned, returned', same, ← source, ← types, ← types', ← iff]
  exact ⟨Except.ok.inj, congrArg Except.ok⟩

/-- Exactly when binding a used result and fetching all rows gives what a freshly
prepared result of the statement gives. -/
theorem startsAfresh_iff (program : Program DB) (db : DB) (readOnly : ReadOnly program db)
    (parameterised : program.parameterNames ≠ []) (withAltTypes : Bool) (n n' : Int32)
    (s₀ fresh : SqliteResultImpl DB)
    (prepared : create (Handles.prepare program db n) withAltTypes = .ok () s₀)
    (again : create (Handles.prepare program db n') withAltTypes = .ok () fresh)
    (history : List Request) (fuel fuel' : Nat) (params : List RVector)
    (enough : (rowsFrom program db (paramRows params)).1.length < fuel) :
    outcomeOf ((bindFetch cv fuel params).run (answers (answer cv fuel') history s₀).2) =
        outcomeOf ((bindFetch cv fuel params).run fresh) ↔
      StartsAfresh cv (answers (answer cv fuel') history s₀).2 params := by
  rw [create_parameterised program db n withAltTypes parameterised] at prepared
  rw [create_parameterised program db n' withAltTypes parameterised] at again
  obtain rfl : initialState (Handles.prepare program db n) withAltTypes = s₀ := by
    cases prepared
    rfl
  obtain rfl : initialState (Handles.prepare program db n') withAltTypes = fresh := by
    cases again
    rfl
  have preserves : Preserves program (· = db) := by
    intro db' values same
    rw [same, readOnly values]
  have unused : ∀ n, BelongsTo program (· = db) withAltTypes
      (initialState (Handles.prepare program db n) withAltTypes) :=
    belongsTo_prepared program (· = db) db rfl withAltTypes
  have belongs := belongsTo_answers cv preserves fuel' history _ (unused n)
  generalize (answers (answer cv fuel') history
    (initialState (Handles.prepare program db n) withAltTypes)).2 = s at belongs ⊢
  have fresh := unused n'
  have same : (initialState (Handles.prepare program db n') withAltTypes).handles.program =
      s.handles.program := belongs.program.symm
  rw [StartsAfresh, belongs.program, belongs.database]
  generalize stream : rowsFrom program db (paramRows params) = upcoming at enough ⊢
  obtain ⟨rows, f⟩ := upcoming
  by_cases checked : Checked s params
  · cases f with
    | some fault =>
        have failed := bindFetch_failed cv fuel params s checked rows fault
          (by rw [belongs.program, belongs.database, stream]) enough
        have failed' := bindFetch_failed cv fuel params _ (checked.of_program same) rows fault
          stream enough
        exact iff_of_true (failed.trans failed'.symm)
          (Or.inr (Or.inl (Option.some_ne_none fault)))
    | none =>
        have width := belongs.width_eq.trans fresh.width_eq.symm
        have untyped := framesAlike_untyped cv s.columnSource s.types rows
        have source : (initialState (Handles.prepare program db n') withAltTypes).columnSource =
            s.columnSource := by
          funext j
          rw [columnSource, columnSource, same, belongs.withAltTypes]
          rfl
        have iff := bindFetch_iff cv fuel params _ s same.symm belongs.database
          belongs.withAltTypes width.symm (checked.of_program same) rows stream enough
        rw [eq_comm, iff, source]
        have start : (initialState (Handles.prepare program db n') withAltTypes).types =
            List.replicate s.types.length .unknown := by
          rw [belongs.width_eq]
          rfl
        rw [start, untyped]
        simp only [checked, not_true_eq_false, ne_eq, false_or]
  · obtain ⟨message, refused⟩ := bind_unchecked s params checked
    have nparams : (initialState (Handles.prepare program db n') withAltTypes).nparams =
        s.nparams := by
      rw [SqliteResultImpl.nparams, SqliteResultImpl.nparams, Handles.parameterCount,
        Handles.parameterCount, same]
    refine iff_of_true ?_ (Or.inl checked)
    rw [bindFetch_refused cv fuel params s s _ (refused s rfl),
      bindFetch_refused cv fuel params _ _ _ (refused _ nparams)]

/-- A second integer is read as the first one was. -/
theorem startsAfresh_iff_integer :
    ∃ s₀, create (Handles.prepare twiceProgram () 0) false = .ok () s₀ ∧
      outcomeOf ((bindFetch noConversions 3 [.int [2]]).run
          (answers (answer noConversions 3) [.bind [.int [1]], .fetch (-1)] s₀).2) =
        outcomeOf ((bindFetch noConversions 3 [.int [2]]).run s₀) := by
  refine ⟨_, rfl, (startsAfresh_iff noConversions twiceProgram () (fun _ => rfl) (by decide)
    false 0 0 _ _ rfl rfl [.bind [.int [1]], .fetch (-1)] 3 3 [.int [2]] (by decide)).mpr ?_⟩
  refine Or.inr (Or.inr ?_)
  intro j U hU
  match j with
  | 0 =>
      obtain rfl : DataType.int = U := Option.some.inj hU
      decide
  | j + 1 => cases hU

/-- After an integer a text is read as a number. -/
theorem startsAfresh_text :
    ∃ s₀, create (Handles.prepare twiceProgram () 0) false = .ok () s₀ ∧
      outcomeOf ((bindFetch noConversions 3 [.str [some [97]]]).run
          (answers (answer noConversions 3) [.bind [.int [1]], .fetch (-1)] s₀).2) ≠
        outcomeOf ((bindFetch noConversions 3 [.str [some [97]]]).run s₀) := by
  refine ⟨_, rfl, fun equal => ?_⟩
  have checked : Checked (answers (answer noConversions 3) [.bind [.int [1]], .fetch (-1)]
      (initialState (Handles.prepare twiceProgram () 0) false)).2 [.str [some [97]]] :=
    ⟨Nat.one_ne_zero, rfl, by decide⟩
  have alike := (bindFetch_iff noConversions 3 [.str [some [97]]]
    (answers (answer noConversions 3) [.bind [.int [1]], .fetch (-1)]
      (initialState (Handles.prepare twiceProgram () 0) false)).2
    (initialState (Handles.prepare twiceProgram () 0) false) rfl rfl rfl rfl
    checked [[.text [97]], [.text [97]]] rfl (by decide)).mp equal
  have column := alike 0 .int .unknown rfl rfl
  revert column
  decide

end RSQLite
