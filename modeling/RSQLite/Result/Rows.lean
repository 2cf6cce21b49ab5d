import RSQLite.Result.Bind

/-!
Sequences of fetches after a bind. They deliver the rows of the parameter rows
piece by piece, as long as every row of parameters can be bound and the counter
of the rows, a C `int`, does not overflow.
-/
namespace RSQLite

open SqliteResultImpl

variable {DB : Type} (cv : Conversions)

def fetches (fuel : Nat) : List Int → Method DB (List DataFrame)
  | [] => pure []
  | request :: requests => do
      let frame ← DbResult.fetch cv fuel request
      let frames ← fetches fuel requests
      pure (frame :: frames)

/-- A result right after parameters have been bound, or after its creation when
there are none, with the handles before and the rows of parameters. -/
inductive Bound : Handles DB → List (Outcome (List SqlValue)) → SqliteResultImpl DB → Prop
  | params (s s' : SqliteResultImpl DB) (params : List RVector)
      (accepted : (DbResult.bind params).run s = .ok () s') :
      Bound s.handles (paramRows params) s'
  | noParams (program : Program DB) (database : DB) (totalChanges : Int32) (withAltTypes : Bool)
      (s' : SqliteResultImpl DB) (none : program.parameterNames = [])
      (created : create (Handles.prepare program database totalChanges) withAltTypes =
        .ok () s') :
      Bound (Handles.prepare program database totalChanges) [.ok []] s'

/-- What holds of a bound result, whatever its parameters are. -/
structure Opened (before : Handles DB) (todo : List (Outcome (List SqlValue)))
    (s : SqliteResultImpl DB) : Prop where
  ready : s.ready = true
  nrows : s.nrows = 0
  count : s.params.length = s.nparams
  lengths : ∀ v ∈ s.params, v.length = s.groups
  pending : s.Pending (rowsFrom before.program before.database todo)
  run : ∃ done, before.Progress s.handles done ∧ todo = done.map .ok ++ s.unrun

/-- A first stepping that does not fail opens the result. -/
theorem opened_of_stepped (s s' : SqliteResultImpl DB) (before : Handles DB)
    (todo : List (Outcome (List SqlValue))) (ready : s.ready = true) (nrows : s.nrows = 0)
    (running : s.complete = false) (count : s.params.length = s.nparams)
    (lengths : ∀ v ∈ s.params, v.length = s.groups) (progress : before.Progress s.handles [])
    (stream : s.upcoming = rowsFrom before.program before.database todo)
    (toRun : s.toRun = todo) (stepped : step.run s = .ok () s') : Opened before todo s' := by
  have ended := step_end s count
  rw [stepped, stream] at ended
  generalize streamed : rowsFrom before.program before.database todo = upcoming at ended
  cases ended with
  | row h g done row progress' run shown =>
      have count' : s.params.length = h.parameterCount :=
        count.trans progress'.parameterCount.symm
      have hidden : h.toExecute = [] := by
        cases vdbe : h.vdbe with
        | run current rest failure own => simp only [Handles.toExecute, vdbe]
        | ready | halt => simp [Handles.current, vdbe] at shown
      refine ⟨ready, nrows, count', lengths, ?_, done, progress.trans progress', ?_⟩
      · rw [streamed]
        exact Or.inr ⟨running, row, shown, rfl⟩
      · have more : (s.moveTo h g).complete = false := running
        rw [← toRun, run, unrun, more]
        simp only [Bool.false_eq_true, ite_false, SqliteResultImpl.toRun, moveTo, hidden]
        rfl
  | finished h g done progress' run hidden =>
      have count' : s.params.length = h.parameterCount :=
        count.trans progress'.parameterCount.symm
      refine ⟨ready, nrows, count', lengths, ?_, done, progress.trans progress', ?_⟩
      · rw [streamed]
        exact Or.inl ⟨rfl, rfl⟩
      · rw [← toRun, run]
        exact (List.append_nil _).symm

theorem step_of_row (s : SqliteResultImpl DB) (count : s.params.length = s.nparams) (row : Row)
    (rest : List Row) (f : Option Fault) (stream : s.upcoming = (row :: rest, f)) :
    ∃ s', step.run s = .ok () s' := by
  have ended := step_end s count
  rw [stream] at ended
  generalize step.run s = result at ended
  cases ended with
  | row h g done row progress run shown => exact ⟨_, rfl⟩

theorem opened_of_params (s₀ s : SqliteResultImpl DB) (params : List RVector)
    (accepted : (DbResult.bind params).run s₀ = .ok () s) :
    Opened s₀.handles (paramRows params) s := by
  have runs := bind_runs s₀ params
  generalize (DbResult.bind params).run s₀ = result at accepted runs
  cases runs with
  | refused message _ => cases accepted
  | empty checked none =>
      cases accepted
      refine ⟨rfl, rfl, checked.supplied, checked.lengths, ?_, [], Handles.Progress.refl _, ?_⟩
      · rw [paramRows_nil params none]
        exact Or.inl ⟨rfl, rfl⟩
      · rw [paramRows_nil params none]
        rfl
  | unbindable f bindings _ _ _ => cases accepted
  | stepped values checked rows row =>
      exact opened_of_stepped _ s s₀.handles (paramRows params) rfl rfl rfl
        (bound_count s₀ params values checked) checked.lengths (progress_bound s₀.handles values)
        (upcoming_bind s₀ params values rows row) (toRun_bind s₀ params values rows row) accepted

theorem create_noParams (program : Program DB) (database : DB) (totalChanges : Int32)
    (withAltTypes : Bool) (none : program.parameterNames = []) :
    create (Handles.prepare program database totalChanges) withAltTypes =
      step.run ((initialState (Handles.prepare program database totalChanges)
        withAltTypes).initialised true) := by
  have zero : (initialState (Handles.prepare program database totalChanges)
      withAltTypes).nparams = 0 := congrArg List.length none
  rw [create, if_pos zero, afterBind_true]

theorem prepare_bindings (program : Program DB) (database : DB) (totalChanges : Int32)
    (none : program.parameterNames = []) :
    (Handles.prepare program database totalChanges).bindings = [] := by
  simp [Handles.prepare, none]

theorem upcoming_prepared (program : Program DB) (database : DB) (totalChanges : Int32)
    (withAltTypes : Bool) (none : program.parameterNames = []) :
    ((initialState (Handles.prepare program database totalChanges) withAltTypes).initialised
      true).upcoming = rowsFrom program database [.ok []] := by
  rw [rowsFrom, ← prepare_bindings program database totalChanges none]
  rfl

theorem opened_of_noParams (program : Program DB) (database : DB) (totalChanges : Int32)
    (withAltTypes : Bool) (s : SqliteResultImpl DB) (none : program.parameterNames = [])
    (created : create (Handles.prepare program database totalChanges) withAltTypes = .ok () s) :
    Opened (Handles.prepare program database totalChanges) [.ok []] s := by
  rw [create_noParams program database totalChanges withAltTypes none] at created
  have bindings := prepare_bindings program database totalChanges none
  have count : 0 = program.parameterNames.length := by rw [none, List.length_nil]
  refine opened_of_stepped ((initialState (Handles.prepare program database totalChanges)
    withAltTypes).initialised true) s _ [.ok []] rfl rfl rfl count
    (by simp [initialised, initialState]) (Handles.Progress.refl _)
    (upcoming_prepared program database totalChanges withAltTypes none) ?_ created
  rw [← bindings]
  rfl

theorem opened_of_bound (before : Handles DB) (todo : List (Outcome (List SqlValue)))
    (s : SqliteResultImpl DB) (h : Bound before todo s) : Opened before todo s := by
  cases h with
  | params s₀ s params accepted => exact opened_of_params s₀ s params accepted
  | noParams program database totalChanges withAltTypes s none created =>
      exact opened_of_noParams program database totalChanges withAltTypes s none created

/-- A stream without a failure is delivered piece by piece. -/
theorem fetches_stream (fuel : Nat) (requests : List Int) :
    ∀ (s : SqliteResultImpl DB) (rows : List Row), s.ready = true →
      s.params.length = s.nparams → s.Pending (rows, none) → rows.length < fuel →
      ∃ frames s' done, (fetches cv fuel requests).run s = .ok frames s' ∧
        frames.map DataFrame.rows = (Chunked.pieces requests rows).map (List.map some) ∧
        s'.Pending (Chunked.restAll requests rows, none) ∧
        s'.nrows = s.nrows + Int32.ofNat (Chunked.pieces requests rows).flatten.length ∧
        s.handles.Progress s'.handles done ∧ s.unrun = done.map .ok ++ s'.unrun := by
  induction requests with
  | nil =>
      intro s rows _ _ pending _
      exact ⟨[], s, [], rfl, rfl, pending, (Int32.add_zero _).symm, Handles.Progress.refl _, rfl⟩
  | cons request requests ih =>
      intro s rows ready count pending enough
      have ended := fetch_end cv fuel s request rows none ready count pending (reaches_nat _) enough
      generalize ran : (fetch cv Nat fuel request).run s = result at ended
      cases ended with
      | delivered frame h g c n types done _ delivered _ progress run pending nrows _ =>
          have count' : s.params.length = h.parameterCount :=
            count.trans progress.parameterCount.symm
          have shorter : (Chunked.rest request rows).length < fuel :=
            Nat.lt_of_le_of_lt (Chunked.rest_length_le request rows) enough
          obtain ⟨frames, s', done', rest, rows', pending', nrows', progress', run'⟩ :=
            ih (s.fetched h g c n types) _ ready count' pending shorter
          refine ⟨frame :: frames, s', done ++ done', ?_, ?_, pending', ?_,
            progress.trans progress', ?_⟩
          · rw [fetches, DbResult.fetch, run_bind_ok _ _ _ _ _ ran, run_bind_ok _ _ _ _ _ rest]
            rfl
          · rw [List.map_cons, delivered, rows']
            rfl
          · rw [nrows', Chunked.pieces, List.flatten_cons, List.length_append,
              Chunked.piece_length, Int32.ofNat_add, ← Int32.add_assoc]
            exact congrArg (· + _) nrows
          · rw [run, run', List.map_append, List.append_assoc]

/-- Every sequence of fetches on the bound result `s` reads `rows` in order: each
fetch delivers its piece, the flag and the counter follow, and the executions so
far are the first parameter rows, each on exactly its own values. A parameter is
read at an index below `groups_` only. -/
def StreamsRows (before : Handles DB) (todo : List (Outcome (List SqlValue))) (rows : List Row)
    (s : SqliteResultImpl DB) : Prop :=
  (∀ v ∈ s.params, v.length = s.groups) ∧
  ∀ (requests : List Int) (fuel : Nat), rows.length < fuel →
    ∃ frames s' done, (fetches cv fuel requests).run s = .ok frames s' ∧
      frames.map DataFrame.rows = (Chunked.pieces requests rows).map (List.map some) ∧
      (frames.map DataFrame.rows).flatten ++ (Chunked.restAll requests rows).map some =
        rows.map some ∧
      (s'.complete = true ↔ Chunked.restAll requests rows = []) ∧
      s'.nRowsFetched.toInt = (Chunked.pieces requests rows).flatten.length ∧
      s'.handles.executed = before.executed ++ done ∧ done.map .ok <+: todo

theorem rowsFrom_complete_iff (program : Program DB)
    (noError : ∀ db values, (program.exec db values).failure = none)
    (todo : List (Outcome (List SqlValue))) (db : DB) :
    (rowsFrom program db todo).2 = none ↔ ∀ row ∈ todo, ∃ values, row = .ok values := by
  induction todo generalizing db with
  | nil => simp [rowsFrom]
  | cons row rest ih =>
      cases row with
      | error f => simp [rowsFrom]
      | ok values => simp [rowsFrom, noError, afterExecution, ih]

theorem pending_complete_iff (s : SqliteResultImpl DB) (rows : List Row) (f : Option Fault)
    (pending : s.Pending (rows, f)) : s.complete = true ↔ rows = [] := by
  cases rows with
  | nil => simp [(pending_nil s f pending).1]
  | cons row rows => simp [(pending_cons s row rows f pending).1]

theorem pieces_length_le (requests : List Int) (rows : List Row) :
    (Chunked.pieces requests rows).flatten.length ≤ rows.length := by
  have whole := congrArg List.length (Chunked.pieces_flatten requests rows)
  rw [List.length_append] at whole
  omega

theorem streamsRows_of_complete (before : Handles DB) (todo : List (Outcome (List SqlValue)))
    (rows : List Row) (s : SqliteResultImpl DB) (h : Opened before todo s)
    (stream : rowsFrom before.program before.database todo = (rows, none))
    (short : rows.length < 2 ^ 31) : StreamsRows cv before todo rows s := by
  obtain ⟨ready, nrows, count, lengths, pending, done, progress, run⟩ := h
  rw [stream] at pending
  refine ⟨lengths, ?_⟩
  intro requests fuel enough
  obtain ⟨frames, s', done', fetched, delivered, pending', nrows', progress', run'⟩ :=
    fetches_stream cv fuel requests s rows ready count pending enough
  refine ⟨frames, s', done ++ done', fetched, delivered, ?_,
    pending_complete_iff s' _ none pending', ?_, ?_, ?_⟩
  · rw [delivered, ← List.map_flatten, ← List.map_append, Chunked.pieces_flatten]
  · rw [nRowsFetched, nrows', nrows, Int32.zero_add, Int32.toInt_ofNat_of_lt]
    exact Nat.lt_of_le_of_lt (pieces_length_le requests rows) short
  · exact (progress.trans progress').executed
  · rw [run, run', List.map_append]
    exact List.prefix_append_right_inj _ |>.mpr (List.prefix_append _ _)

theorem length_of_streamsRows (before : Handles DB) (todo : List (Outcome (List SqlValue)))
    (rows : List Row) (s : SqliteResultImpl DB) (h : StreamsRows cv before todo rows s) :
    rows.length < 2 ^ 31 := by
  obtain ⟨frames, s', done, _, _, _, _, counted, _⟩ := h.2 [-1] (rows.length + 1) (Nat.lt_succ_self _)
  have bound := s'.nRowsFetched.toInt_lt
  have all : (Chunked.pieces [-1] rows).flatten = rows := by
    simp [Chunked.pieces, Chunked.piece, Chunked.amount]
  rw [all] at counted
  omega

theorem complete_of_streamsRows (before : Handles DB) (todo : List (Outcome (List SqlValue)))
    (s : SqliteResultImpl DB) (opened : Opened before todo s)
    (h : StreamsRows cv before todo (rowsFrom before.program before.database todo).1 s) :
    (rowsFrom before.program before.database todo).2 = none := by
  obtain ⟨frames, s', done, fetched, _⟩ := h.2 [-1] _ (Nat.lt_succ_self _)
  generalize stream : rowsFrom before.program before.database todo = upcoming at fetched opened
  obtain ⟨rows, f⟩ := upcoming
  have pending := opened.pending
  rw [stream] at pending
  have ended := fetch_end cv (rows.length + 1) s (-1) rows f opened.ready opened.count pending
    (reaches_nat _) (Nat.lt_succ_self _)
  generalize ran : (fetch cv Nat (rows.length + 1) (-1)).run s = result at ended
  cases ended with
  | delivered frame h g c n types done f _ _ _ _ _ _ enough =>
      obtain zero | none | less := enough
      · cases zero
      · exact none
      · simp [Chunked.amount] at less
  | failed h g n done f _ _ _ _ _ =>
      rw [fetches, DbResult.fetch, run_bind_error _ _ _ _ _ ran] at fetched
      cases fetched

/-- The row stream of a bound result, for a statement whose executions do not
fail: it is right exactly when every row of parameters can be bound and there are
fewer than 2^31 rows. -/
theorem streamsRows_iff (before : Handles DB) (todo : List (Outcome (List SqlValue)))
    (s : SqliteResultImpl DB) (bound : Bound before todo s)
    (noError : ∀ db values, (before.program.exec db values).failure = none) :
    StreamsRows cv before todo (rowsFrom before.program before.database todo).1 s ↔
      (∀ row ∈ todo, ∃ values, row = .ok values) ∧
        (rowsFrom before.program before.database todo).1.length < 2 ^ 31 := by
  have opened := opened_of_bound before todo s bound
  rw [← rowsFrom_complete_iff before.program noError todo before.database]
  constructor
  · intro h
    exact ⟨complete_of_streamsRows cv before todo s opened h, length_of_streamsRows cv before todo _ s h⟩
  · rintro ⟨complete, short⟩
    exact streamsRows_of_complete cv before todo _ s opened (Prod.ext rfl complete) short

/-- `VALUES (?1), (?1)`. -/
def twiceProgram : Program Unit where
  columnNames := ["column1"]
  declTypes := [none]
  parameterNames := [none]
  exec _ values := { rows := [values, values], database := () }

theorem streamsRows_iff_twice :
    ∃ s, (DbResult.bind [.int [1, 2]]).run
        (initialState (Handles.prepare twiceProgram () 0) false) = .ok () s ∧
      StreamsRows noConversions (Handles.prepare twiceProgram () 0) (paramRows [.int [1, 2]])
        [[.integer 1], [.integer 1], [.integer 2], [.integer 2]] s := by
  refine ⟨_, rfl, (streamsRows_iff noConversions (Handles.prepare twiceProgram () 0)
    (paramRows [.int [1, 2]]) _ (.params (initialState (Handles.prepare twiceProgram () 0) false)
      _ [.int [1, 2]] rfl) (fun _ _ => rfl)).mpr ⟨?_, by decide⟩⟩
  intro row hrow
  change row ∈ [.ok [.integer 1], .ok [.integer 2]] at hrow
  simp only [List.mem_cons, List.not_mem_nil, or_false] at hrow
  obtain rfl | rfl := hrow
  · exact ⟨[.integer 1], rfl⟩
  · exact ⟨[.integer 2], rfl⟩

/-- A statement without parameters that yields 2^31 rows of one column. -/
def longProgram : Program Unit where
  columnNames := ["NULL"]
  declTypes := [none]
  parameterNames := []
  exec _ _ := { rows := List.replicate (2 ^ 31) [.null], database := () }

/-- The counter of the fetched rows overflows. -/
theorem streamsRows_overflow :
    ∃ s, Bound (Handles.prepare longProgram () 0) [.ok []] s ∧
      ¬ StreamsRows noConversions (Handles.prepare longProgram () 0) [.ok []]
        (rowsFrom longProgram () [.ok []]).1 s := by
  have rows : (rowsFrom longProgram () [.ok []]).1.length = 2 ^ 31 := by
    simp only [rowsFrom, afterExecution, longProgram, List.append_nil, List.length_replicate]
  have stream : ((initialState (Handles.prepare longProgram () 0) false).initialised
      true).upcoming = rowsFrom longProgram () [.ok []] := rfl
  obtain ⟨row, rest, shown⟩ := List.exists_cons_of_length_pos
    (rows ▸ Nat.two_pow_pos 31 : 0 < (rowsFrom longProgram () [.ok []]).1.length)
  obtain ⟨s, stepped⟩ := step_of_row
    ((initialState (Handles.prepare longProgram () 0) false).initialised true) rfl row rest
    (rowsFrom longProgram () [.ok []]).2 (stream.trans (Prod.ext shown rfl))
  refine ⟨s, .noParams longProgram () 0 false s rfl ?_, fun h => ?_⟩
  · rw [create_noParams longProgram () 0 false rfl, stepped]
  · have short := length_of_streamsRows _ _ _ _ s h
    omega

end RSQLite
