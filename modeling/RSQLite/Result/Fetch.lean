import RSQLite.Library.Chunked
import RSQLite.Result.Stream

/-!
Fetching from the stream of a result. A fetch delivers a piece of the pending
rows and leaves the rest pending, unless the stream fails right behind the rows
it asks for: the row ahead is stepped to before the current one is delivered.
-/
namespace RSQLite

open SqliteResultImpl Counter

variable {DB I : Type} [Counter I] (cv : Conversions)

namespace SqliteResultImpl

/-- All that a fetch changes while it loops. -/
def fetchedTo (s : SqliteResultImpl DB) (h : Handles DB) (group : Nat) (complete : Bool)
    (nrows : Int32) : SqliteResultImpl DB :=
  { s.moveTo h group with complete := complete, nrows := nrows }

/-- The parameter rows that have not been executed. -/
def unrun (s : SqliteResultImpl DB) : List (Outcome (List SqlValue)) :=
  if s.complete then [] else s.toRun

end SqliteResultImpl

/-- How many rows a data frame still asks for. -/
def wanted (df : DbDataFrame I) : Int := if df.nMax < 0 then df.nMax else df.nMax - toNat df.i

/-- The loop goes on only while there is room. -/
def HasRoom (df : DbDataFrame I) : Prop := df.nMax < 0 ∨ (toNat df.i : Int) < df.nMax

instance (df : DbDataFrame I) : Decidable (HasRoom df) :=
  inferInstanceAs (Decidable (df.nMax < 0 ∨ (toNat df.i : Int) < df.nMax))

theorem wanted_advance (df df' : DbDataFrame I) (room : HasRoom df) (nMax : df'.nMax = df.nMax)
    (i : toNat df'.i = toNat df.i + 1) (n : Nat) :
    Chunked.amount (wanted df) (n + 1) = Chunked.amount (wanted df') n + 1 := by
  by_cases all : df.nMax < 0
  · have same : wanted df' = wanted df := by
      simp only [wanted, nMax, all, ite_true]
    rw [same]
    exact Chunked.amount_cons_negative _ n (by simp only [wanted, all, ite_true])
  · have less : wanted df' = wanted df - 1 := by
      simp only [wanted, nMax, i, all, ite_false]
      omega
    rw [less]
    apply Chunked.amount_cons_positive
    simp only [HasRoom] at room
    simp only [wanted, all, ite_false]
    omega

theorem amount_pos (df : DbDataFrame I) (room : HasRoom df) (n : Nat) :
    1 ≤ Chunked.amount (wanted df) (n + 1) := by
  simp only [HasRoom] at room
  by_cases all : df.nMax < 0
  · simp only [Chunked.amount, wanted, all, ite_true]
    omega
  · simp only [Chunked.amount, wanted, all, ite_false]
    split <;> omega

/-- The frame behind a row: it has counted the row, and goes on while there is room. -/
theorem advance_ok (df : DbDataFrame I) (far : Reaches I (toNat df.i + 1)) :
    ∃ df', df.advance = .ok (decide (HasRoom df'), df') ∧ toNat df'.i = toNat df.i + 1 ∧
      df'.nMax = df.nMax ∧ df'.names = df.names ∧ df'.data = df.data ∧ df'.reads = df.reads ∧
      df'.warnings = df.warnings := by
  obtain ⟨i, counted, same⟩ := next_ok far
  refine ⟨{ df with i := i }, ?_, same, rfl, rfl, rfl, rfl, rfl⟩
  simp only [DbDataFrame.advance, counted, Bind.bind, Except.bind]
  exact congrArg (fun room => Except.ok (room, _)) (Bool.decide_or _ _).symm

theorem wanted_full (df df' : DbDataFrame I) (room : HasRoom df) (nMax : df'.nMax = df.nMax)
    (i : toNat df'.i = toNat df.i + 1) (full : ¬ HasRoom df') : wanted df' = 0 := by
  simp only [HasRoom, not_or, nMax, i] at full
  simp only [HasRoom] at room
  simp only [wanted, nMax, i, full.1, ite_false]
  omega

theorem setColValues_run (source : Nat → SqliteColumnDataSource) (types : List DataType)
    (s : SqliteResultImpl DB) (df : DbDataFrame I) (seen : List (Option Row))
    (framed : Framed cv source types df seen) (far : Reaches I (seen.length + 1)) :
    ∃ df', (setColValues cv df).run s = .ok df' s ∧
      Framed cv source types df' (seen ++ [s.handles.current]) ∧
      df'.i = df.i ∧ df'.nMax = df.nMax ∧ df'.names = df.names := by
  obtain ⟨df', read, framed', i, nMax, names⟩ :=
    setColValues_framed cv source types df seen s.handles framed far
  refine ⟨df', ?_, framed', i, nMax, names⟩
  simp only [setColValues, EStateM.run_bind, EStateM.run_get, read, run_liftOutcome_ok]

/-- One round of the loop, but for the step: the row is read and counted. -/
theorem round_framed (source : Nat → SqliteColumnDataSource) (types : List DataType)
    (s : SqliteResultImpl DB) (df : DbDataFrame I) (seen : List (Option Row))
    (framed : Framed cv source types df seen) (counted : toNat df.i = seen.length)
    (far : Reaches I (toNat df.i + 1)) :
    ∃ read df', (setColValues cv df).run s = .ok read s ∧
      read.advance = .ok (decide (HasRoom df'), df') ∧
      Framed cv source types df' (seen ++ [s.handles.current]) ∧
      toNat df'.i = toNat df.i + 1 ∧ df'.nMax = df.nMax ∧ df'.names = df.names := by
  obtain ⟨read, set, framed', i, nMax, names⟩ :=
    setColValues_run cv source types s df seen framed (counted ▸ far)
  obtain ⟨df', advance, i', nMax', names', data, reads, warnings⟩ := advance_ok read (i ▸ far)
  refine ⟨read, df', set, advance, ⟨?_, ?_, ?_, ?_⟩, i ▸ i', nMax'.trans nMax, names'.trans names⟩
  · rw [data]
    exact framed'.width
  · rw [reads]
    exact framed'.reads
  · rw [warnings]
    exact framed'.warnings
  · rw [data]
    exact framed'.tracks

/-- Stepping to the next row behind a row that is shown. -/
inductive Advanced (s : SqliteResultImpl DB) : List Row → Option Fault →
    EStateM.Result Fault (SqliteResultImpl DB) Unit → Prop
  | ok (h : Handles DB) (g : Nat) (c : Bool) (done : List (List SqlValue)) (rows : List Row)
      (f : Option Fault) (progress : s.handles.Progress h done)
      (run : s.unrun = done.map .ok ++ (s.fetchedTo h g c s.nrows).unrun)
      (pending : (s.fetchedTo h g c s.nrows).Pending (rows, f)) :
      Advanced s rows f (.ok () (s.fetchedTo h g c s.nrows))
  | failed (h : Handles DB) (g : Nat) (done : List (List SqlValue)) (f : Fault)
      (progress : s.handles.Progress h done) (run : done.map .ok <+: s.unrun)
      (hidden : h.current = none) :
      Advanced s [] (some f) (.error f (s.fetchedTo h g false s.nrows))

theorem step_advanced (s : SqliteResultImpl DB) (row : Row) (rows : List Row) (f : Option Fault)
    (count : s.params.length = s.nparams) (pending : s.Pending (row :: rows, f)) :
    Advanced s rows f (step.run s) := by
  obtain ⟨_, stream⟩ | ⟨running, row', shown, stream⟩ := pending
  · cases stream
  · obtain ⟨same, rfl⟩ := Prod.mk.inj stream
    obtain ⟨rfl, rfl⟩ := List.cons.inj same
    have unrun : s.unrun = s.toRun := by simp [SqliteResultImpl.unrun, running]
    have moved : ∀ h g, s.moveTo h g = s.fetchedTo h g false s.nrows := by
      intro h g
      rw [← running]
      rfl
    generalize result : step.run s = r
    generalize stream : s.upcoming = upcoming
    cases stream ▸ result ▸ step_end s count with
    | row h g done row progress run shown =>
        have hidden : (s.moveTo h g).handles.toExecute = [] := by
          cases vdbe : h.vdbe with
          | run current rest failure own => simp only [moveTo, Handles.toExecute, vdbe]
          | ready | halt => simp [Handles.current, vdbe] at shown
        have rest : (s.moveTo h g).unrun = (s.moveTo h g).todo := by
          have more : (s.moveTo h g).complete = false := running
          simp only [SqliteResultImpl.unrun, more, toRun, hidden]
          rfl
        rw [← rest, ← unrun] at run
        rw [moved h g] at run ⊢
        exact .ok h g false done _ _ progress run (Or.inr ⟨rfl, row, shown, rfl⟩)
    | finished h g done progress run hidden =>
        exact .ok h g true done [] none progress (by rw [unrun, run]; exact (List.append_nil _).symm)
          (Or.inl ⟨rfl, rfl⟩)
    | failed h g done f progress run hidden =>
        rw [moved h g]
        exact .failed h g done f progress (unrun ▸ run) hidden

theorem fetchLoop_room (fuel : Nat) (s s' : SqliteResultImpl DB) (df read df' : DbDataFrame I)
    (running : s.complete = false) (set : (setColValues cv df).run s = .ok read s)
    (ahead : step.run s = .ok () s') (advance : read.advance = .ok (decide (HasRoom df'), df')) :
    (fetchLoop cv (fuel + 1) df).run s =
      (if HasRoom df' then fetchLoop cv fuel df' else pure df').run
        { s' with nrows := s'.nrows + 1 } := by
  rw [fetchLoop, EStateM.run_bind, EStateM.run_get]
  simp only [running, Bool.false_eq_true, ite_false]
  rw [run_bind_ok _ _ _ _ _ set, run_bind_ok _ _ _ _ _ ahead, EStateM.run_bind, EStateM.run_modify]
  simp only [advance, EStateM.run_bind, run_liftOutcome_ok, decide_eq_true_eq]

theorem fetchLoop_failed (fuel : Nat) (s s' : SqliteResultImpl DB) (df read : DbDataFrame I)
    (f : Fault) (running : s.complete = false)
    (set : (setColValues cv df).run s = .ok read s) (ahead : step.run s = .error f s') :
    (fetchLoop cv (fuel + 1) df).run s = .error f s' := by
  rw [fetchLoop, EStateM.run_bind, EStateM.run_get]
  simp only [running, Bool.false_eq_true, ite_false]
  rw [run_bind_ok _ _ _ _ _ set, run_bind_error _ _ _ _ _ ahead]

theorem fetchLoop_complete (fuel : Nat) (s : SqliteResultImpl DB) (df : DbDataFrame I)
    (complete : s.complete = true) : (fetchLoop cv (fuel + 1) df).run s = .ok df s := by
  rw [fetchLoop, EStateM.run_bind, EStateM.run_get]
  simp only [complete, ite_true]
  rfl

theorem advance_counted {df df' : DbDataFrame I} {room : Bool}
    (advance : df.advance = .ok (room, df')) : room = decide (HasRoom df') ∧
      toNat df'.i = toNat df.i + 1 ∧ df'.nMax = df.nMax ∧ df'.data = df.data := by
  rw [DbDataFrame.advance] at advance
  cases counted : next df.i with
  | error f =>
      rw [counted] at advance
      cases advance
  | ok i =>
      rw [counted] at advance
      cases advance
      exact ⟨(Bool.decide_or _ _).symm, toNat_next counted, rfl, rfl⟩

/-- What a loop that returns has done: nothing, or a round and then the rest. -/
theorem fetchLoop_ok {fuel : Nat} {s s' : SqliteResultImpl DB} {df df' : DbDataFrame I}
    (run : (fetchLoop cv (fuel + 1) df).run s = .ok df' s') :
    s.complete = true ∧ df' = df ∨ s.complete = false ∧ ∃ read next s₁,
      df.setColValues cv s.handles = .ok read ∧ step.run s = .ok () s₁ ∧
      read.advance = .ok (decide (HasRoom next), next) ∧
      (if HasRoom next then fetchLoop cv fuel next else pure next).run
        { s₁ with nrows := s₁.nrows + 1 } = .ok df' s' := by
  cases complete : s.complete with
  | true =>
      rw [fetchLoop_complete cv fuel s df complete] at run
      cases run
      exact Or.inl ⟨rfl, rfl⟩
  | false =>
      have set : (setColValues cv df).run s =
          (liftOutcome (df.setColValues cv s.handles) : Method DB (DbDataFrame I)).run s := rfl
      have loop := run
      rw [fetchLoop, EStateM.run_bind, EStateM.run_get] at run
      simp only [complete, Bool.false_eq_true, ite_false] at run
      cases read : df.setColValues cv s.handles with
      | error f =>
          rw [read] at set
          rw [run_bind_error _ _ _ _ _ set] at run
          cases run
      | ok filled =>
          rw [read] at set
          rw [run_bind_ok _ _ _ _ _ set] at run
          cases ahead : step.run s with
          | error f s₁ =>
              rw [run_bind_error _ _ _ _ _ ahead] at run
              cases run
          | ok _ s₁ =>
              rw [run_bind_ok _ _ _ _ _ ahead, EStateM.run_bind, EStateM.run_modify] at run
              cases advance : filled.advance with
              | error f =>
                  rw [advance] at run
                  cases run
              | ok counted =>
                  obtain ⟨room, next⟩ := counted
                  rw [(advance_counted advance).1] at advance
                  rw [fetchLoop_room cv fuel s s₁ df filled next complete set ahead advance] at loop
                  exact Or.inr ⟨rfl, filled, next, s₁, rfl, rfl, advance, loop⟩

/-- How the loop of a fetch ends, given the pending rows and what ends them. -/
inductive LoopEnd (source : Nat → SqliteColumnDataSource) (types : List DataType)
    (s : SqliteResultImpl DB) (df : DbDataFrame I) (seen : List (Option Row)) (rows : List Row) :
    Option Fault → EStateM.Result Fault (SqliteResultImpl DB) (DbDataFrame I) → Prop
  | delivered (df' : DbDataFrame I) (h : Handles DB) (g : Nat) (c : Bool) (n : Int32)
      (done : List (List SqlValue)) (f : Option Fault)
      (framed : Framed cv source types df'
        (seen ++ (Chunked.piece (wanted df) rows).map some))
      (i : toNat df'.i = toNat df.i + Chunked.amount (wanted df) rows.length)
      (names : df'.names = df.names)
      (progress : s.handles.Progress h done)
      (run : s.unrun = done.map .ok ++ (s.fetchedTo h g c n).unrun)
      (pending : (s.fetchedTo h g c n).Pending (Chunked.rest (wanted df) rows, f))
      (nrows : n = s.nrows + Int32.ofNat (Chunked.amount (wanted df) rows.length))
      (enough : f = none ∨ Chunked.amount (wanted df) rows.length < rows.length) :
      LoopEnd source types s df seen rows f (.ok df' (s.fetchedTo h g c n))
  | failed (h : Handles DB) (g : Nat) (n : Int32) (done : List (List SqlValue)) (f : Fault)
      (progress : s.handles.Progress h done) (run : done.map .ok <+: s.unrun)
      (hidden : h.current = none) (all : Chunked.amount (wanted df) rows.length = rows.length) :
      LoopEnd source types s df seen rows (some f) (.error f (s.fetchedTo h g false n))

theorem pending_nil (s : SqliteResultImpl DB) (f : Option Fault) (h : s.Pending ([], f)) :
    s.complete = true ∧ f = none := by
  obtain ⟨complete, stream⟩ | ⟨_, _, _, stream⟩ := h
  · exact ⟨complete, congrArg Prod.snd stream⟩
  · cases stream

theorem pending_cons (s : SqliteResultImpl DB) (row : Row) (rows : List Row) (f : Option Fault)
    (h : s.Pending (row :: rows, f)) :
    s.complete = false ∧ s.handles.current = some row := by
  obtain ⟨_, stream⟩ | ⟨running, row', shown, stream⟩ := h
  · cases stream
  · obtain ⟨rfl, _⟩ := List.cons.inj (Prod.mk.inj stream).1
    exact ⟨running, shown⟩

/-- One row in front of what the rest of the loop does. -/
theorem LoopEnd.cons {source : Nat → SqliteColumnDataSource} {types : List DataType}
    {s : SqliteResultImpl DB} {df df' : DbDataFrame I} {seen : List (Option Row)} {row : Row}
    {rows : List Row} {f : Option Fault} {h : Handles DB} {g : Nat} {c : Bool}
    {done : List (List SqlValue)}
    {result : EStateM.Result Fault (SqliteResultImpl DB) (DbDataFrame I)}
    (room : HasRoom df) (nMax : df'.nMax = df.nMax) (i : toNat df'.i = toNat df.i + 1)
    (names : df'.names = df.names) (progress : s.handles.Progress h done)
    (run : s.unrun = done.map .ok ++ (s.fetchedTo h g c s.nrows).unrun)
    (rest : LoopEnd cv source types (s.fetchedTo h g c (s.nrows + 1)) df' (seen ++ [some row])
      rows f result) :
    LoopEnd cv source types s df seen (row :: rows) f result := by
  have amount := wanted_advance df df' room nMax i rows.length
  obtain ⟨piece, rest'⟩ := Chunked.piece_cons (wanted df) (wanted df') row rows amount
  cases rest with
  | delivered df'' h' g' c' n' done' f framed i' names' progress' run' pending nrows enough =>
      refine .delivered df'' h' g' c' n' (done ++ done') f ?_ ?_ (names'.trans names)
        (progress.trans progress') ?_ ?_ ?_ ?_
      · rw [piece, List.map_cons]
        rwa [List.append_assoc] at framed
      · rw [i', i, List.length_cons, amount]
        omega
      · rw [run, List.map_append, List.append_assoc]
        exact congrArg (done.map .ok ++ ·) run'
      · rw [rest']
        exact pending
      · rw [nrows, List.length_cons, amount, Int32.ofNat_add, Int32.add_comm (Int32.ofNat _),
          ← Int32.add_assoc]
        rfl
      · rw [List.length_cons, amount]
        exact enough.imp id Nat.succ_lt_succ
  | failed h' g' n' done' f progress' run' hidden all =>
      refine .failed h' g' n' (done ++ done') f (progress.trans progress') ?_ hidden ?_
      · rw [run, List.map_append]
        exact (List.prefix_append_right_inj _).mpr run'
      · rw [List.length_cons, amount, all]

/-- Nothing is left to do, since no rows are asked for or no rows are pending. -/
theorem LoopEnd.stop {source : Nat → SqliteColumnDataSource} {types : List DataType}
    {s : SqliteResultImpl DB} {df : DbDataFrame I} {seen : List (Option Row)} {rows : List Row}
    {f : Option Fault} (framed : Framed cv source types df seen) (pending : s.Pending (rows, f))
    (none : Chunked.amount (wanted df) rows.length = 0) :
    LoopEnd cv source types s df seen rows f (.ok df s) := by
  refine .delivered df s.handles s.group s.complete s.nrows [] f ?_ ?_ rfl
    (Handles.Progress.refl _) rfl ?_ ?_ ?_
  · rwa [Chunked.piece_none _ _ none, List.map_nil, List.append_nil]
  · rw [none, Nat.add_zero]
  · rw [Chunked.rest_none _ _ none]
    exact pending
  · rw [none]
    exact (Int32.add_zero _).symm
  · rw [none]
    cases rows with
    | nil => exact Or.inl (pending_nil s f pending).2
    | cons row rows => exact Or.inr (Nat.succ_pos _)

theorem fetchLoop_end (source : Nat → SqliteColumnDataSource) (types : List DataType)
    (rows : List Row) :
    ∀ (fuel : Nat) (s : SqliteResultImpl DB) (df : DbDataFrame I) (seen : List (Option Row))
      (f : Option Fault), s.params.length = s.nparams → s.Pending (rows, f) →
      Framed cv source types df seen → toNat df.i = seen.length → HasRoom df →
      Reaches I (toNat df.i + Chunked.amount (wanted df) rows.length) → rows.length < fuel →
      LoopEnd cv source types s df seen rows f ((fetchLoop cv fuel df).run s) := by
  induction rows with
  | nil =>
      intro fuel s df seen f _ pending framed _ _ _ enough
      obtain ⟨fuel, rfl⟩ := Nat.exists_eq_add_one_of_ne_zero (Nat.ne_of_gt enough)
      rw [fetchLoop_complete cv fuel s df (pending_nil s f pending).1]
      exact .stop cv framed pending (Chunked.amount_of_none _)
  | cons row rows ih =>
      intro fuel s df seen f count pending framed counted room far enough
      obtain ⟨running, shown⟩ := pending_cons s row rows f pending
      obtain ⟨fuel, rfl⟩ := Nat.exists_eq_add_one_of_ne_zero (Nat.ne_of_gt (Nat.zero_lt_of_lt enough))
      have one : toNat df.i + 1 ≤ toNat df.i + Chunked.amount (wanted df) (row :: rows).length :=
        Nat.add_le_add_left (amount_pos df room rows.length) _
      obtain ⟨read, df', set, advance, framed', i, nMax, names⟩ :=
        round_framed cv source types s df seen framed counted (far.le one)
      rw [shown] at framed'
      have amount := wanted_advance df df' room nMax i
      generalize ahead : step.run s = result
      cases ahead ▸ step_advanced s row rows f count pending with
      | failed h g done f progress run hidden =>
          rw [fetchLoop_failed cv fuel s _ df read f running set ahead]
          refine .failed h g s.nrows done f progress run hidden ?_
          rw [List.length_singleton, ← Nat.zero_add 1, amount 0, Chunked.amount_of_none]
      | ok h g c done _ _ progress run pending' =>
          rw [fetchLoop_room cv fuel s _ df read df' running set ahead advance]
          refine LoopEnd.cons cv room nMax i names progress run ?_
          have count' : s.params.length = h.parameterCount :=
            count.trans progress.parameterCount.symm
          have counted' : toNat df'.i = (seen ++ [some row]).length := by
            rw [i, counted, List.length_append, List.length_singleton]
          by_cases more : HasRoom df'
          · rw [if_pos more]
            refine ih fuel _ df' _ f count' pending' framed' counted' more ?_
              (Nat.lt_of_succ_lt_succ enough)
            rw [List.length_cons, amount] at far
            rwa [i, Nat.add_assoc, Nat.add_comm 1]
          · rw [if_neg more]
            refine .stop cv framed' pending' ?_
            rw [wanted_full df df' room nMax i more, Chunked.amount_zero]

namespace SqliteResultImpl

/-- All that a fetch changes. -/
def fetched (s : SqliteResultImpl DB) (h : Handles DB) (group : Nat) (complete : Bool)
    (nrows : Int32) (types : List DataType) : SqliteResultImpl DB :=
  { s.fetchedTo h group complete nrows with types := types }

/-- The frame of a fetch that reads these rows. -/
def fetchedFrame (s : SqliteResultImpl DB) (rows : List (Option Row)) : DataFrame where
  names := s.names
  columns := frameColumns cv s.columnSource s.types rows
  rowNames := rows.length
  warnings := (if s.complete ∧ s.types.length = 0 then [onlyForSelect] else []) ++
    frameWarnings cv s.columnSource s.types s.names rows
  reads := rows

/-- The row that a peek reads. -/
def shown (s : SqliteResultImpl DB) : List (Option Row) :=
  if s.complete then [] else [s.handles.current]

def peekedTypes (s : SqliteResultImpl DB) : List DataType :=
  frameTypes s.columnSource s.types s.shown

def peekedFrame (s : SqliteResultImpl DB) : DataFrame where
  names := s.names
  columns := s.peekedTypes.map (DbColumnStorage.allocate 0)
  rowNames := 0
  warnings := frameWarnings cv s.columnSource s.types s.names s.shown
  reads := s.shown

/-- A peek changes the column types only. -/
def peeked (s : SqliteResultImpl DB) : SqliteResultImpl DB := { s with types := s.peekedTypes }

end SqliteResultImpl

/-- How a fetch ends, given the pending rows and what ends them. -/
inductive FetchEnd (s : SqliteResultImpl DB) (request : Int) (rows : List Row) :
    Option Fault → EStateM.Result Fault (SqliteResultImpl DB) DataFrame → Prop
  | delivered (frame : DataFrame) (h : Handles DB) (g : Nat) (c : Bool) (n : Int32)
      (types : List DataType) (done : List (List SqlValue)) (f : Option Fault)
      (delivered : frame.rows = (Chunked.piece request rows).map some)
      (whole : request ≠ 0 → frame = s.fetchedFrame cv frame.rows ∧
        types = frameTypes s.columnSource s.types frame.rows)
      (progress : s.handles.Progress h done)
      (run : s.unrun = done.map .ok ++ (s.fetched h g c n types).unrun)
      (pending : (s.fetched h g c n types).Pending (Chunked.rest request rows, f))
      (nrows : n = s.nrows + Int32.ofNat (Chunked.amount request rows.length))
      (enough : request = 0 ∨ f = none ∨ Chunked.amount request rows.length < rows.length) :
      FetchEnd s request rows f (.ok frame (s.fetched h g c n types))
  | failed (h : Handles DB) (g : Nat) (n : Int32) (done : List (List SqlValue)) (f : Fault)
      (progress : s.handles.Progress h done) (run : done.map .ok <+: s.unrun)
      (hidden : h.current = none) (asked : request ≠ 0)
      (all : Chunked.amount request rows.length = rows.length) :
      FetchEnd s request rows (some f) (.error f (s.fetchedTo h g false n))

theorem getData_run (s : SqliteResultImpl DB) (df : DbDataFrame I) (frame : DataFrame)
    (types : List DataType) (data : df.getData = .ok (frame, types)) :
    (SqliteResultImpl.getData df).run s = .ok frame { s with types := types } := by
  simp only [SqliteResultImpl.getData, data, EStateM.run_bind, run_liftOutcome_ok,
    EStateM.run_modify, EStateM.run_pure]

theorem newDataFrame_hasRoom (s : SqliteResultImpl DB) {request : Int} (asked : request ≠ 0) :
    HasRoom (s.newDataFrame request : DbDataFrame I) := by
  simp only [HasRoom, newDataFrame, DbDataFrame.create, toNat_zero]
  omega

theorem newDataFrame_wanted (s : SqliteResultImpl DB) (request : Int) :
    wanted (s.newDataFrame request : DbDataFrame I) = request := by
  simp [wanted, newDataFrame, DbDataFrame.create, toNat_zero]

theorem fetchRows_end (fuel : Nat) (s : SqliteResultImpl DB) (request : Int) (rows : List Row)
    (f : Option Fault) (count : s.params.length = s.nparams) (pending : s.Pending (rows, f))
    (asked : request ≠ 0) (far : Reaches I (Chunked.amount request rows.length))
    (enough : rows.length < fuel) :
    FetchEnd cv s request rows f ((fetchRows cv I fuel request).run s) := by
  have framed : Framed cv s.columnSource s.types (s.newDataFrame request : DbDataFrame I) [] :=
    framed_create cv s.columnSource s.names request s.types
  have room := newDataFrame_hasRoom (I := I) s asked
  have want := newDataFrame_wanted (I := I) s request
  have zero : toNat (s.newDataFrame request : DbDataFrame I).i = 0 := toNat_zero
  have loop := fetchLoop_end cv s.columnSource s.types rows fuel s
    (s.newDataFrame request : DbDataFrame I) [] f count pending framed zero room
    (by rwa [zero, want, Nat.zero_add]) enough
  rw [fetchRows, EStateM.run_bind, EStateM.run_get]
  generalize ran : (fetchLoop cv fuel (s.newDataFrame request : DbDataFrame I)).run s = result
    at loop
  cases loop with
  | delivered df h g c n done _ framed' i names progress run pending' nrows enough =>
      rw [want] at framed' i pending' nrows enough
      rw [List.nil_append] at framed'
      have counted : toNat df.i = ((Chunked.piece request rows).map some).length := by
        rw [i, zero, Nat.zero_add, List.length_map, Chunked.piece_length]
      have data := getData_framed cv s.columnSource s.types df _ framed' counted
      simp only [run_bind_ok _ _ _ _ _ ran, run_bind_ok _ _ _ _ _ (getData_run _ df _ _ data),
        EStateM.run_pure]
      refine .delivered _ h g c n _ done f ?_ ?_ progress run pending' nrows (Or.inr enough)
      · exact List.take_length
      · intro _
        rw [DataFrame.rows]
        simp only [List.take_length, fetchedFrame, names]
        exact ⟨rfl, trivial⟩
  | failed h g n done f progress run hidden all =>
      rw [want] at all
      simp only [run_bind_error _ _ _ _ _ ran]
      exact .failed h g n done f progress run hidden asked all

theorem fetched_self (s : SqliteResultImpl DB) (types : List DataType) :
    { s with types := types } = s.fetched s.handles s.group s.complete s.nrows types := rfl

theorem peekFirstRow_eq (s : SqliteResultImpl DB) :
    (peekFirstRow cv).run s = .ok (s.peekedFrame cv) s.peeked := by
  have framed : Framed cv s.columnSource s.types (s.newDataFrame 1 : DbDataFrame CInt) [] :=
    framed_create cv s.columnSource s.names 1 s.types
  have zero : toNat (s.newDataFrame 1 : DbDataFrame CInt).i = 0 := rfl
  rw [peekFirstRow, EStateM.run_bind, EStateM.run_get]
  cases complete : s.complete with
  | true =>
      have data := getData_peeked cv s.columnSource s.types _ [] framed zero
      simp only [complete, ite_true]
      refine (getData_run s _ _ _ data).trans ?_
      simp only [peekedFrame, peeked, peekedTypes, shown, complete, ite_true]
      rfl
  | false =>
      obtain ⟨df, set, framed', i, _, names⟩ :=
        setColValues_run cv s.columnSource s.types s _ [] framed (reaches_cInt.mpr (by decide))
      have data := getData_peeked cv s.columnSource s.types df _ framed' (i ▸ zero)
      simp only [complete, Bool.false_eq_true, ite_false, run_bind_ok _ _ _ _ _ set]
      refine (getData_run s df _ _ data).trans ?_
      simp only [peekedFrame, peeked, peekedTypes, shown, complete, Bool.false_eq_true, ite_false,
        names]
      rfl

theorem peekFirstRow_running (s : SqliteResultImpl DB) (running : s.complete = false) :
    ∃ frame types, (peekFirstRow cv).run s = .ok frame { s with types := types } ∧
      frame.rows = [] ∧ frame.reads = [s.handles.current] := by
  refine ⟨_, _, peekFirstRow_eq cv s, rfl, ?_⟩
  simp only [peekedFrame, shown, running, Bool.false_eq_true, ite_false]

theorem peekFirstRow_run (s : SqliteResultImpl DB) :
    ∃ frame types, (peekFirstRow cv).run s = .ok frame { s with types := types } ∧
      frame.rows = [] :=
  ⟨_, _, peekFirstRow_eq cv s, rfl⟩

theorem peekFirstRow_end (s : SqliteResultImpl DB) (rows : List Row) (f : Option Fault)
    (pending : s.Pending (rows, f)) :
    FetchEnd cv s 0 rows f ((peekFirstRow cv).run s) := by
  obtain ⟨frame, types, run, none⟩ := peekFirstRow_run cv s
  rw [run, fetched_self]
  refine .delivered frame s.handles s.group s.complete s.nrows types [] f ?_ ?_
    (Handles.Progress.refl _) rfl ?_ ?_ (Or.inl rfl)
  · rw [Chunked.piece_none _ _ (Chunked.amount_zero _), none]
    rfl
  · intro asked
    exact absurd rfl asked
  · rw [Chunked.rest_none _ _ (Chunked.amount_zero _)]
    exact pending
  · rw [Chunked.amount_zero]
    exact (Int32.add_zero _).symm

theorem fetch_end (fuel : Nat) (s : SqliteResultImpl DB) (request : Int) (rows : List Row)
    (f : Option Fault) (ready : s.ready = true) (count : s.params.length = s.nparams)
    (pending : s.Pending (rows, f)) (far : Reaches I (Chunked.amount request rows.length))
    (enough : rows.length < fuel) :
    FetchEnd cv s request rows f ((fetch cv I fuel request).run s) := by
  rw [fetch, EStateM.run_bind, EStateM.run_get]
  simp only [ready, ite_true]
  by_cases asked : request = 0
  · subst asked
    exact peekFirstRow_end cv s rows f pending
  · rw [if_pos asked]
    exact fetchRows_end cv fuel s request rows f count pending asked far enough

end RSQLite
