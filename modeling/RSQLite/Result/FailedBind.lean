import RSQLite.Library.Invariant
import RSQLite.Library.Simulation
import RSQLite.Result.Failure

/-!
A bind that raises before the statement is stepped. The checks of the whole list
come before anything is written; a value that cannot be bound is found only when
the previous binding is gone. What the user of a result can then notice is stated
by requests and replies.
-/
namespace RSQLite

open SqliteResultImpl Simulation Measured Invariant

variable {DB : Type} (cv : Conversions)

/-- What can be asked of a result. -/
inductive Request
  | fetch (nMax : Int)
  | bind (params : List RVector)
  | complete
  | nRowsFetched
  | nRowsAffected
  | columnInfo

inductive Reply
  | frame (o : Outcome DataFrame)
  | bound (o : Outcome Unit)
  | complete (flag : Bool)
  | nRowsFetched (n : Int32)
  | nRowsAffected (n : Option Int32)
  | columnInfo (o : Outcome (List String × List String))

def outcomeOf {α : Type} : EStateM.Result Fault (SqliteResultImpl DB) α → Outcome α
  | .ok a _ => .ok a
  | .error f _ => .error f

def answer (fuel : Nat) : Request → SqliteResultImpl DB → Reply × SqliteResultImpl DB
  | .fetch nMax, s =>
      let result := (DbResult.fetch cv fuel nMax).run s
      (.frame (outcomeOf result), endState result)
  | .bind params, s =>
      let result := (DbResult.bind params).run s
      (.bound (outcomeOf result), endState result)
  | .complete, s => (.complete s.complete, s)
  | .nRowsFetched, s => (.nRowsFetched s.nRowsFetched, s)
  | .nRowsAffected, s => (.nRowsAffected s.nRowsAffected, s)
  | .columnInfo, s =>
      let result := (getColumnInfo cv).run s
      (.columnInfo (outcomeOf result), endState result)

/-- No list of requests tells the two results apart: neither by a reply, nor by the
executions and the database that it leads to. -/
def Indistinguishable (s t : SqliteResultImpl DB) : Prop :=
  ∀ (fuel : Nat) (requests : List Request),
    (answers (answer cv fuel) requests s).1 = (answers (answer cv fuel) requests t).1 ∧
    (answers (answer cv fuel) requests s).2.handles.executed =
      (answers (answer cv fuel) requests t).2.handles.executed ∧
    (answers (answer cv fuel) requests s).2.handles.database =
      (answers (answer cv fuel) requests t).2.handles.database

/-- Every fetch raises, as long as no bind has succeeded. -/
def RaisesUntilBound (s : SqliteResultImpl DB) : Prop :=
  ∀ (fuel : Nat) (requests : List Request) (nMax : Int),
    .bound (.ok ()) ∉ (answers (answer cv fuel) requests s).1 →
    ∃ f s', (DbResult.fetch cv fuel nMax).run (answers (answer cv fuel) requests s).2 =
      .error f s'

/-- What must hold after a bind that turned `s` into `s'` and raised. -/
def NothingHalfBound (s s' : SqliteResultImpl DB) : Prop :=
  Indistinguishable cv s s' ∨ RaisesUntilBound cv s'

/-- When a bind of `params` that raises is without consequences: the checks refuse
the whole list, the result was never bound, or it is complete and neither counts
changes nor has any to count. -/
def KeepsBinding (s : SqliteResultImpl DB) (params : List RVector) : Prop :=
  ¬ Checked s params ∨ s.ready = false ∨
    s.complete = true ∧ s.nRowsAffected = some 0 ∧ s.handles.uncounted = 0

/-- The states that a user of a result with placeholders reaches by binds and fetches
that succeed, and binds that fail without consequences. -/
inductive Reachable : SqliteResultImpl DB → Prop
  | created (program : Program DB) (database : DB) (totalChanges : Int32) (withAltTypes : Bool)
      (s : SqliteResultImpl DB) (parameterised : program.parameterNames ≠ [])
      (created : create (Handles.prepare program database totalChanges) withAltTypes = .ok () s) :
      Reachable s
  | bound (s s' : SqliteResultImpl DB) (params : List RVector) (reachable : Reachable s)
      (accepted : (DbResult.bind params).run s = .ok () s') : Reachable s'
  | refused (s s' : SqliteResultImpl DB) (params : List RVector) (f : Fault)
      (reachable : Reachable s) (failed : (DbResult.bind params).run s = .error f s')
      (unstepped : s'.handles.executed = s.handles.executed) (keeps : KeepsBinding s params) :
      Reachable s'
  | fetched (s s' : SqliteResultImpl DB) (fuel : Nat) (nMax : Int) (frame : DataFrame)
      (reachable : Reachable s) (fetched : (DbResult.fetch cv fuel nMax).run s = .ok frame s') :
      Reachable s'
  | informed (s s' : SqliteResultImpl DB) (info : List String × List String)
      (reachable : Reachable s) (informed : (getColumnInfo cv).run s = .ok info s') :
      Reachable s'

/-- A bound result shows a row unless it is complete. -/
structure Live (s : SqliteResultImpl DB) : Prop where
  ready : s.ready = true
  count : s.params.length = s.nparams
  shown : s.complete = false → s.handles.current ≠ none

/-- Never bound, or bound. -/
def Usable (s : SqliteResultImpl DB) : Prop :=
  s.ready = false ∧ s.complete = false ∧ s.handles.vdbe = .ready ∨ Live s

/-- The state after a bind that could not bind its first row. -/
def refusedState (s : SqliteResultImpl DB) (params : List RVector) (bindings : List SqlValue) :
    SqliteResultImpl DB :=
  (s.started params).withHandles (s.handles.reset.withBindings bindings)

/-- A bind that raises before stepping was refused as a whole, or at its first row. -/
theorem failed_bind (s s' : SqliteResultImpl DB) (params : List RVector) (f : Fault)
    (failed : (DbResult.bind params).run s = .error f s')
    (unstepped : s'.handles.executed = s.handles.executed) :
    ¬ Checked s params ∧ s' = s ∨
      Checked s params ∧ 0 < rowCount params ∧ paramRow params 0 = .error f ∧
        ∃ bindings, s' = refusedState s params bindings := by
  have runs := bind_runs s params
  generalize (DbResult.bind params).run s = result at failed runs
  cases runs with
  | refused message unchecked =>
      cases failed
      exact Or.inl ⟨unchecked, rfl⟩
  | empty checked none => cases failed
  | unbindable f' bindings checked rows row =>
      cases failed
      exact Or.inr ⟨checked, rows, row, bindings, rfl⟩
  | stepped values checked rows row =>
      have more := executions_lt_step (s.bound params values) (current_reset s.handles values)
      rw [failed, endState, executions, executions, unstepped, bound_handles] at more
      exact absurd more (Nat.lt_irrefl _)

theorem kept_liftOutcome {α : Type} (P : SqliteResultImpl DB → Prop) (o : Outcome α) :
    Kept P (fun _ => True) (liftOutcome o : Method DB α) := by
  cases o with
  | ok a => exact kept_pure a
  | error f => exact fun _ _ => trivial

theorem live_step : Kept Live (fun _ => True) (step : Method DB Unit) := by
  refine kept_of_ok _ (fun s a s' live run => ?_)
  have ended := step_end s live.count
  rw [run] at ended
  generalize s.upcoming = stream at ended
  have count : ∀ h done, s.handles.Progress h done → s.params.length = h.parameterCount := by
    intro h done progress
    exact live.count.trans progress.parameterCount.symm
  cases ended with
  | row h g done row progress _ shown =>
      exact ⟨live.ready, count h done progress, fun _ hidden => by cases hidden.symm.trans shown⟩
  | finished h g done progress _ _ =>
      exact ⟨live.ready, count h done progress, fun running => by cases running⟩

theorem live_fetchLoop {I : Type} [Counter I] (fuel : Nat) :
    ∀ df, Kept Live (fun _ => True) (fetchLoop cv fuel df : Method DB (DbDataFrame I)) := by
  induction fuel with
  | zero => exact fun df s _ => trivial
  | succ fuel ih =>
      intro df
      refine kept_bind _ _ kept_get (fun _ => kept_ite _ _ _ (kept_pure _) ?_)
      refine kept_bind _ _ (kept_bind _ _ kept_get (fun _ => kept_liftOutcome Live _)) (fun _ => ?_)
      refine kept_bind _ _ live_step (fun _ => ?_)
      refine kept_bind _ _ (kept_modify _ (fun s live => ?_)) (fun _ => ?_)
      · exact ⟨live.ready, live.count, live.shown⟩
      · exact kept_bind _ _ (kept_liftOutcome Live _)
          (fun _ => kept_ite _ _ _ (ih _) (kept_pure _))

theorem live_getData {I : Type} [Counter I] (df : DbDataFrame I) :
    Kept Live (fun _ => True) (SqliteResultImpl.getData df : Method DB DataFrame) := by
  refine kept_bind _ _ (kept_liftOutcome Live _) (fun _ => ?_)
  refine kept_bind _ _ (kept_modify _ (fun s live => ?_)) (fun _ => kept_pure _)
  exact ⟨live.ready, live.count, live.shown⟩

theorem live_peekFirstRow (s s' : SqliteResultImpl DB) (frame : DataFrame) (live : Live s)
    (run : (peekFirstRow cv).run s = .ok frame s') : Live s' := by
  obtain ⟨frame', types, ran, _⟩ := peekFirstRow_run cv s
  rw [ran] at run
  cases run
  exact ⟨live.ready, live.count, live.shown⟩

theorem live_fetch (fuel : Nat) (nMax : Int) :
    Kept Live (fun _ => True) (DbResult.fetch cv fuel nMax : Method DB DataFrame) := by
  refine kept_bind _ _ kept_get (fun _ => kept_ite _ _ _ (kept_ite _ _ _ ?_ ?_) ?_)
  · exact kept_bind _ _ kept_get (fun _ => kept_bind _ _ (live_fetchLoop cv fuel _)
      (fun _ => kept_bind _ _ (live_getData _) (fun _ => kept_pure _)))
  · exact kept_of_ok _ (fun s frame s' live run => live_peekFirstRow cv s s' frame live run)
  · exact fun s _ => trivial

theorem getColumnInfo_run (s : SqliteResultImpl DB) :
    ∃ types info, (getColumnInfo cv).run s = .ok info { s with types := types } := by
  obtain ⟨frame, types, run, _⟩ := peekFirstRow_run cv s
  refine ⟨types, (s.names, types.map columnTypeName), ?_⟩
  rw [getColumnInfo, run_bind_ok _ _ _ _ _ run]
  rfl

theorem usable_refused (s s' : SqliteResultImpl DB) (params : List RVector) (f : Fault)
    (usable : Usable s) (failed : (DbResult.bind params).run s = .error f s')
    (unstepped : s'.handles.executed = s.handles.executed) (keeps : KeepsBinding s params) :
    Usable s' := by
  obtain ⟨_, rfl⟩ | ⟨checked, _, _, bindings, rfl⟩ := failed_bind s s' params f failed unstepped
  · exact usable
  · have vdbe : (s.handles.reset.withBindings bindings).vdbe = .ready := by
      rw [Handles.reset_eq]
      rfl
    obtain ⟨unbound, running, _⟩ | live := usable
    · exact Or.inl ⟨unbound, running, vdbe⟩
    · obtain unchecked | unbound | ⟨complete, _⟩ := keeps
      · exact absurd checked unchecked
      · cases unbound.symm.trans live.ready
      · have count : params.length = (s.handles.reset.withBindings bindings).parameterCount := by
          rw [Handles.reset_eq]
          exact checked.supplied
        exact Or.inr ⟨live.ready, count, fun running => by cases running.symm.trans complete⟩

theorem usable_of_reachable (s : SqliteResultImpl DB) (reachable : Reachable cv s) :
    Usable s := by
  induction reachable with
  | created program database totalChanges withAltTypes s parameterised created =>
      have some : (initialState (Handles.prepare program database totalChanges)
          withAltTypes).nparams ≠ 0 := fun zero =>
        parameterised (List.length_eq_zero_iff.mp zero)
      rw [create, if_neg some] at created
      cases created
      exact Or.inl ⟨rfl, rfl, rfl⟩
  | bound s s' params _ accepted _ =>
      have opened := opened_of_params s s' params accepted
      refine Or.inr ⟨opened.ready, opened.count, fun running hidden => ?_⟩
      obtain ⟨complete, _⟩ | ⟨_, row, shown, _⟩ := opened.pending
      · cases running.symm.trans complete
      · cases hidden.symm.trans shown
  | refused s s' params f _ failed unstepped keeps ih =>
      exact usable_refused s s' params f ih failed unstepped keeps
  | fetched s s' fuel nMax frame _ fetched ih =>
      obtain ⟨unbound, _, _⟩ | live := ih
      · rw [DbResult.fetch, fetch, EStateM.run_bind, EStateM.run_get] at fetched
        simp only [unbound, Bool.false_eq_true, ite_false, run_throwFault] at fetched
        cases fetched
      · exact Or.inr ((live_fetch cv fuel nMax).ok s s' frame live fetched)
  | informed s s' info _ informed ih =>
      obtain ⟨types, info', run⟩ := getColumnInfo_run cv s
      rw [run] at informed
      cases informed
      obtain ⟨unbound, running, vdbe⟩ | live := ih
      · exact Or.inl ⟨unbound, running, vdbe⟩
      · exact Or.inr ⟨live.ready, live.count, live.shown⟩

/-- Two results that differ at most in a binding that nothing reads any more. -/
structure Alike (s t : SqliteResultImpl DB) : Prop where
  ready : s.ready = t.ready
  complete : s.complete = t.complete
  nrows : s.nrows = t.nrows
  types : s.types = t.types
  withAltTypes : s.withAltTypes = t.withAltTypes
  program : s.handles.program = t.handles.program
  database : s.handles.database = t.handles.database
  executed : s.handles.executed = t.handles.executed
  totalChanges : s.handles.totalChanges = t.handles.totalChanges
  idle : s.handles.uncounted = 0 ∧ t.handles.uncounted = 0
  unbound : s.ready = false → s.handles.current = none ∧ t.handles.current = none
  bound : s.ready = true → s.complete = true ∧ s.totalChangesStart = t.totalChangesStart

def SameOrAlike (s t : SqliteResultImpl DB) : Prop := s = t ∨ Alike s t

/-- Two runs with the same outcome and related states. -/
inductive Matched {α : Type} : EStateM.Result Fault (SqliteResultImpl DB) α →
    EStateM.Result Fault (SqliteResultImpl DB) α → Prop
  | ok (a : α) (s t : SqliteResultImpl DB) (related : SameOrAlike s t) :
      Matched (.ok a s) (.ok a t)
  | error (f : Fault) (s t : SqliteResultImpl DB) (related : SameOrAlike s t) :
      Matched (.error f s) (.error f t)

theorem Matched.refl {α : Type} (r : EStateM.Result Fault (SqliteResultImpl DB) α) :
    Matched r r := by
  cases r with
  | ok a s => exact .ok a s s (Or.inl rfl)
  | error f s => exact .error f s s (Or.inl rfl)

theorem Matched.outcome {α : Type} {r r' : EStateM.Result Fault (SqliteResultImpl DB) α}
    (matched : Matched r r') :
    outcomeOf r = outcomeOf r' ∧ SameOrAlike (endState r) (endState r') := by
  cases matched with
  | ok a s t related => exact ⟨rfl, related⟩
  | error f s t related => exact ⟨rfl, related⟩

theorem Matched.bind {α β : Type} {x y : Method DB α} {f g : α → Method DB β}
    {s t : SqliteResultImpl DB} (first : Matched (x.run s) (y.run t))
    (second : ∀ a s t, SameOrAlike s t → Matched ((f a).run s) ((g a).run t)) :
    Matched ((x >>= f).run s) ((y >>= g).run t) := by
  rw [EStateM.run_bind, EStateM.run_bind]
  generalize x.run s = r at first
  generalize y.run t = r' at first
  cases first with
  | ok a s t related => exact second a s t related
  | error f s t related => exact .error f s t related

theorem matched_same {α : Type} (x : Method DB α) (s t : SqliteResultImpl DB) (same : s = t) :
    Matched (x.run s) (x.run t) := same ▸ Matched.refl _

namespace Alike

variable {s t : SqliteResultImpl DB} {I : Type} [Counter I]

theorem withTypes (alike : Alike s t) (types : List DataType) :
    Alike { s with types := types } { t with types := types } :=
  { alike with types := rfl }

theorem newDataFrame (alike : Alike s t) (nMax : Int) :
    (s.newDataFrame nMax : DbDataFrame I) = t.newDataFrame nMax := by
  have source : s.columnSource = t.columnSource := by
    funext j
    rw [columnSource, columnSource, alike.program, alike.withAltTypes]
  rw [SqliteResultImpl.newDataFrame, SqliteResultImpl.newDataFrame, names, names, alike.program,
    alike.types, source]

theorem getData (alike : Alike s t) (df : DbDataFrame I) :
    Matched ((SqliteResultImpl.getData df).run s) ((SqliteResultImpl.getData df).run t) := by
  cases data : df.getData with
  | ok filled =>
      obtain ⟨frame, types⟩ := filled
      rw [getData_run s df frame types data, getData_run t df frame types data]
      exact .ok frame _ _ (Or.inr (alike.withTypes types))
  | error f =>
      have thrown : ∀ s : SqliteResultImpl DB,
          (SqliteResultImpl.getData df).run s = .error f s := fun s => by
        rw [SqliteResultImpl.getData, data, run_bind_error _ _ _ _ _ (run_liftOutcome_error f s)]
      rw [thrown s, thrown t]
      exact .error f s t (Or.inr alike)

theorem setColValues (alike : Alike s t) (running : s.complete = false) (df : DbDataFrame I) :
    Matched ((SqliteResultImpl.setColValues cv df).run s)
      ((SqliteResultImpl.setColValues cv df).run t) := by
  have unbound : s.ready = false := by
    cases ready : s.ready with
    | false => rfl
    | true => cases running.symm.trans (alike.bound ready).1
  obtain ⟨hidden, hidden'⟩ := alike.unbound unbound
  have same : df.setColValues cv s.handles = df.setColValues cv t.handles := by
    simp only [DbDataFrame.setColValues, Handles.columnValue, hidden, hidden']
  have read : ∀ s : SqliteResultImpl DB, (SqliteResultImpl.setColValues cv df).run s =
      (liftOutcome (df.setColValues cv s.handles) : Method DB (DbDataFrame I)).run s := fun _ => rfl
  rw [read s, read t, same]
  cases df.setColValues cv t.handles with
  | ok df' => exact .ok df' s t (Or.inr alike)
  | error f => exact .error f s t (Or.inr alike)

end Alike

theorem matched_getData {I : Type} [Counter I] (df : DbDataFrame I) (s t : SqliteResultImpl DB)
    (related : SameOrAlike s t) :
    Matched ((SqliteResultImpl.getData df).run s) ((SqliteResultImpl.getData df).run t) := by
  obtain same | alike := related
  · exact matched_same _ s t same
  · exact alike.getData df

theorem matched_peekFirstRow (s t : SqliteResultImpl DB) (related : SameOrAlike s t) :
    Matched ((peekFirstRow cv).run s) ((peekFirstRow cv).run t) := by
  obtain same | alike := related
  · exact matched_same _ s t same
  · rw [peekFirstRow, EStateM.run_bind, EStateM.run_get, EStateM.run_bind, EStateM.run_get]
    simp only [← alike.newDataFrame, ← alike.complete]
    cases running : s.complete with
    | true => exact Matched.bind (.ok _ s t (Or.inr alike)) matched_getData
    | false => exact Matched.bind (alike.setColValues cv running _) matched_getData

theorem matched_fetch (fuel : Nat) (nMax : Int) (s t : SqliteResultImpl DB)
    (related : SameOrAlike s t) :
    Matched ((DbResult.fetch cv fuel nMax).run s) ((DbResult.fetch cv fuel nMax).run t) := by
  obtain same | alike := related
  · exact matched_same _ s t same
  · rw [DbResult.fetch, fetch, EStateM.run_bind, EStateM.run_get, EStateM.run_bind,
      EStateM.run_get]
    simp only [← alike.ready]
    cases ready : s.ready with
    | false => exact .error _ s t (Or.inr alike)
    | true =>
        have complete := (alike.bound ready).1
        have complete' := alike.complete.symm.trans complete
        simp only [ite_true]
        split
        · rw [fetchRows, EStateM.run_bind, EStateM.run_get, EStateM.run_bind, EStateM.run_get]
          simp only [← alike.newDataFrame, ← alike.complete, ← alike.types]
          refine Matched.bind ?_ (fun df s t related =>
            Matched.bind (matched_getData df s t related) (fun _ s t related => .ok _ s t related))
          cases fuel with
          | zero => exact .error _ s t (Or.inr alike)
          | succ fuel =>
              rw [fetchLoop_complete cv fuel s _ complete, fetchLoop_complete cv fuel t _ complete']
              exact .ok _ s t (Or.inr alike)
        · exact matched_peekFirstRow cv s t (Or.inr alike)

theorem Checked.of_program {s t : SqliteResultImpl DB} {params : List RVector}
    (checked : Checked s params) (program : t.handles.program = s.handles.program) :
    Checked t params := by
  have nparams : t.nparams = s.nparams := by
    rw [SqliteResultImpl.nparams, SqliteResultImpl.nparams, Handles.parameterCount,
      Handles.parameterCount, program]
  exact ⟨nparams ▸ checked.required, nparams ▸ checked.supplied, checked.lengths⟩

theorem bound_of_alike (s t : SqliteResultImpl DB) (alike : Alike s t) (params : List RVector)
    (values : List SqlValue) : s.bound params values = t.bound params values := by
  obtain ⟨h, complete, ready, nrows, start, params₁, group, groups, types, alt⟩ := s
  obtain ⟨h', complete', ready', nrows', start', params₂, group', groups', types', alt'⟩ := t
  obtain ⟨rfl, rfl, rfl, rfl, rfl, program, database, executed, totalChanges, idle, _, _⟩ := alike
  simp only at program database executed totalChanges idle
  simp only [bound, started, initialised, withHandles, Handles.reset_eq, Handles.withBindings,
    program, database, executed, totalChanges, idle.1, idle.2]

theorem matched_bind (params : List RVector) (s t : SqliteResultImpl DB)
    (related : SameOrAlike s t) :
    Matched ((DbResult.bind params).run s) ((DbResult.bind params).run t) := by
  obtain same | alike := related
  · exact matched_same _ s t same
  · by_cases checked : Checked s params
    · have checked' := checked.of_program alike.program.symm
      by_cases empty : rowCount params = 0
      · rw [bind_empty s params checked empty, bind_empty t params checked' empty]
        exact .ok () _ _ (Or.inr { alike with
          ready := rfl
          complete := rfl
          nrows := rfl
          unbound := fun unbound => by cases unbound
          bound := fun _ => ⟨rfl, alike.totalChanges⟩ })
      · have rows : 0 < rowCount params := Nat.pos_of_ne_zero empty
        cases row : paramRow params 0 with
        | ok values =>
            rw [bind_row_ok s params values checked rows row,
              bind_row_ok t params values checked' rows row]
            exact matched_same step _ _ (bound_of_alike s t alike params values)
        | error f =>
            obtain ⟨bindings, refused⟩ := bind_row_error s params f checked rows row
            obtain ⟨bindings', refused'⟩ := bind_row_error t params f checked' rows row
            rw [refused, refused']
            refine .error f _ _ (Or.inr ?_)
            simp only [Handles.reset_eq]
            exact { alike with
              totalChanges := by
                simp only [withHandles, started, Handles.withBindings, alike.idle.1, alike.idle.2,
                  alike.totalChanges]
              idle := ⟨rfl, rfl⟩
              unbound := fun _ => ⟨rfl, rfl⟩
              bound := fun ready => ⟨(alike.bound ready).1, alike.totalChanges⟩ }
    · obtain ⟨message, refused⟩ := bind_unchecked s params checked
      have nparams : t.nparams = s.nparams := by
        rw [SqliteResultImpl.nparams, SqliteResultImpl.nparams, Handles.parameterCount,
          Handles.parameterCount, alike.program]
      rw [refused s rfl, refused t nparams]
      exact .error _ s t (Or.inr alike)

theorem matched_getColumnInfo (s t : SqliteResultImpl DB) (related : SameOrAlike s t) :
    Matched ((getColumnInfo cv).run s) ((getColumnInfo cv).run t) := by
  refine Matched.bind (matched_peekFirstRow cv s t related) (fun _ s t related => ?_)
  obtain rfl | alike := related
  · exact Matched.refl _
  · have same : (s.names, s.types.map columnTypeName) = (t.names, t.types.map columnTypeName) := by
      rw [names, names, alike.program, alike.types]
    have info : ∀ s : SqliteResultImpl DB, (do
        let s ← get
        pure (s.names, s.types.map columnTypeName) : Method DB _).run s =
          .ok (s.names, s.types.map columnTypeName) s := fun _ => rfl
    rw [info s, info t, same]
    exact .ok _ s t (Or.inr alike)

theorem simulates_sameOrAlike (fuel : Nat) :
    Simulates (answer cv fuel) (SameOrAlike : SqliteResultImpl DB → SqliteResultImpl DB → Prop) := by
  intro request s t related
  cases request with
  | fetch nMax =>
      obtain ⟨same, related'⟩ := (matched_fetch cv fuel nMax s t related).outcome
      exact ⟨congrArg Reply.frame same, related'⟩
  | bind params =>
      obtain ⟨same, related'⟩ := (matched_bind params s t related).outcome
      exact ⟨congrArg Reply.bound same, related'⟩
  | columnInfo =>
      obtain ⟨same, related'⟩ := (matched_getColumnInfo cv s t related).outcome
      exact ⟨congrArg Reply.columnInfo same, related'⟩
  | complete =>
      obtain rfl | alike := related
      · exact ⟨rfl, Or.inl rfl⟩
      · exact ⟨congrArg Reply.complete alike.complete, Or.inr alike⟩
  | nRowsFetched =>
      obtain rfl | alike := related
      · exact ⟨rfl, Or.inl rfl⟩
      · exact ⟨congrArg Reply.nRowsFetched alike.nrows, Or.inr alike⟩
  | nRowsAffected =>
      obtain rfl | alike := related
      · exact ⟨rfl, Or.inl rfl⟩
      · refine ⟨congrArg Reply.nRowsAffected ?_, Or.inr alike⟩
        cases ready : s.ready with
        | false => simp only [nRowsAffected, ← alike.ready, ready, Bool.false_eq_true, ite_false]
        | true =>
            simp only [nRowsAffected, ← alike.ready, ready, ite_true, alike.totalChanges,
              (alike.bound ready).2]

theorem indistinguishable_of_related (s t : SqliteResultImpl DB) (related : SameOrAlike s t) :
    Indistinguishable cv s t := by
  intro fuel requests
  obtain ⟨replies, related'⟩ := answers_of_simulates (answer cv fuel) SameOrAlike
    (simulates_sameOrAlike cv fuel) requests s t related
  refine ⟨replies, ?_⟩
  obtain same | alike := related'
  · rw [same]
    exact ⟨rfl, rfl⟩
  · exact ⟨alike.executed, alike.database⟩

/-- A bind that could not bind its first row leaves a result alike, unless it was in use. -/
theorem alike_refused (s : SqliteResultImpl DB) (params : List RVector)
    (bindings : List SqlValue) (usable : Usable s) (checked : Checked s params)
    (keeps : KeepsBinding s params) : Alike s (refusedState s params bindings) := by
  have refused : refusedState s params bindings = (s.started params).withHandles
      { s.handles with
        vdbe := .ready, totalChanges := s.handles.totalChanges + s.handles.uncounted,
        bindings := bindings } := by
    rw [refusedState, Handles.reset_eq]
    rfl
  have idle : s.handles.uncounted = 0 ∧ (s.ready = true → s.complete = true ∧
      s.totalChangesStart = s.handles.totalChanges) ∧
      (s.ready = false → s.handles.current = none) := by
    obtain unchecked | unbound | ⟨complete, unchanged, uncounted⟩ := keeps
    · exact absurd checked unchecked
    · obtain ⟨_, _, vdbe⟩ | live := usable
      · refine ⟨by rw [Handles.uncounted, vdbe], fun ready => ?_, fun _ => ?_⟩
        · cases ready.symm.trans unbound
        · rw [Handles.current, vdbe]
      · cases unbound.symm.trans live.ready
    · have ready : s.ready = true := by
        cases ready : s.ready with
        | true => rfl
        | false => simp [nRowsAffected, ready] at unchanged
      refine ⟨uncounted, fun _ => ⟨complete, ?_⟩, fun unbound => by cases unbound.symm.trans ready⟩
      simp only [nRowsAffected, ready, ite_true, Option.some.injEq] at unchanged
      exact ((Int32.sub_eq_iff_eq_add.mp unchanged).trans (Int32.zero_add _)).symm
  obtain ⟨uncounted, bound, unbound⟩ := idle
  rw [refused]
  exact {
    ready := rfl, complete := rfl, nrows := rfl, types := rfl, withAltTypes := rfl
    program := rfl, database := rfl, executed := rfl
    totalChanges := by simp only [withHandles, uncounted, Int32.add_zero]
    idle := ⟨uncounted, rfl⟩
    unbound := fun h => ⟨unbound h, rfl⟩
    bound := bound }

theorem not_raisesUntilBound (s : SqliteResultImpl DB) (ready : s.ready = true) :
    ¬ RaisesUntilBound cv s := by
  intro raises
  obtain ⟨f, s', failed⟩ := raises 0 [] 0 (fun bound => by cases bound)
  obtain ⟨frame, types, run, _⟩ := peekFirstRow_run cv s
  rw [answers, DbResult.fetch, fetch, EStateM.run_bind, EStateM.run_get] at failed
  simp only [ready, ite_true, ne_eq, not_true_eq_false, ite_false, run] at failed
  cases failed

theorem shown_of_indistinguishable (s t : SqliteResultImpl DB) (same : Indistinguishable cv s t)
    (ready : s.ready = true ∧ t.ready = true) (running : s.complete = false ∧ t.complete = false) :
    s.handles.current = t.handles.current := by
  have peek : ∀ s : SqliteResultImpl DB, s.ready = true → s.complete = false →
      ∃ frame, (answers (answer cv 0) [.fetch 0] s).1 = [.frame (.ok frame)] ∧
        frame.reads = [s.handles.current] := by
    intro s ready running
    obtain ⟨frame, types, run, _, reads⟩ := peekFirstRow_running cv s running
    refine ⟨frame, ?_, reads⟩
    simp only [answers, answer, DbResult.fetch, fetch, EStateM.run_bind, EStateM.run_get, ready,
      ite_true, ne_eq, not_true_eq_false, ite_false, run, outcomeOf]
  obtain ⟨frame, reply, reads⟩ := peek s ready.1 running.1
  obtain ⟨frame', reply', reads'⟩ := peek t ready.2 running.2
  have replies := (same 0 [.fetch 0]).1
  rw [reply, reply'] at replies
  cases replies
  exact List.head_eq_of_cons_eq (reads.symm.trans reads')

theorem nRowsAffected_of_indistinguishable (s t : SqliteResultImpl DB)
    (same : Indistinguishable cv s t) : s.nRowsAffected = t.nRowsAffected := by
  have replies := (same 0 [.nRowsAffected]).1
  simp only [answers, answer] at replies
  exact Reply.nRowsAffected.inj (List.head_eq_of_cons_eq replies)

theorem nRowsAffected_of_bind (s t : SqliteResultImpl DB) (params : List RVector)
    (same : Indistinguishable cv s t) :
    (endState ((DbResult.bind params).run s)).nRowsAffected =
      (endState ((DbResult.bind params).run t)).nRowsAffected := by
  have replies := (same 0 [.bind params, .nRowsAffected]).1
  simp only [answers, answer] at replies
  exact Reply.nRowsAffected.inj (List.head_eq_of_cons_eq (List.tail_eq_of_cons_eq replies))

theorem nRowsAffected_refused (s : SqliteResultImpl DB) (params : List RVector)
    (bindings : List SqlValue) (ready : s.ready = true) :
    (refusedState s params bindings).nRowsAffected = some s.handles.uncounted := by
  have start : s.handles.totalChanges + s.handles.uncounted - s.handles.totalChanges =
      s.handles.uncounted := by
    rw [Int32.add_comm, Int32.add_sub_cancel]
  rw [refusedState, Handles.reset_eq]
  simp only [nRowsAffected, withHandles, started, ready, ite_true]
  exact congrArg some start

theorem uncounted_of_indistinguishable (s : SqliteResultImpl DB) (params : List RVector)
    (f : Fault) (bindings : List SqlValue) (ready : s.ready = true) (checked : Checked s params)
    (rows : 0 < rowCount params) (row : paramRow params 0 = .error f)
    (failed : (DbResult.bind params).run s = .error f (refusedState s params bindings))
    (same : Indistinguishable cv s (refusedState s params bindings)) :
    s.handles.uncounted = 0 := by
  have program : (refusedState s params bindings).handles.program = s.handles.program := by
    rw [refusedState, Handles.reset_eq]
    rfl
  have vdbe : (refusedState s params bindings).handles.uncounted = 0 := by
    rw [refusedState, Handles.reset_eq]
    rfl
  obtain ⟨bindings', refused⟩ := bind_row_error (refusedState s params bindings) params f
    (checked.of_program program) rows row
  have counted := nRowsAffected_of_bind cv s _ params same
  rw [failed, refused] at counted
  change (refusedState s params bindings).nRowsAffected =
    (refusedState (refusedState s params bindings) params bindings').nRowsAffected at counted
  rw [nRowsAffected_refused s params bindings ready,
    nRowsAffected_refused (refusedState s params bindings) params bindings' ready, vdbe] at counted
  exact Option.some.inj counted

/-- A bind that raises before the statement is stepped is without consequences in
exactly the cases of `KeepsBinding`, in every reachable state. -/
theorem nothingHalfBound_iff (s s' : SqliteResultImpl DB) (reachable : Reachable cv s)
    (params : List RVector) (f : Fault) (failed : (DbResult.bind params).run s = .error f s')
    (unstepped : s'.handles.executed = s.handles.executed) :
    NothingHalfBound cv s s' ↔ KeepsBinding s params := by
  have usable := usable_of_reachable cv s reachable
  obtain ⟨unchecked, rfl⟩ | ⟨checked, rows, row, bindings, rfl⟩ :=
    failed_bind s s' params f failed unstepped
  · exact ⟨fun _ => Or.inl unchecked, fun _ =>
      Or.inl (indistinguishable_of_related cv s' s' (Or.inl rfl))⟩
  · constructor
    · intro whole
      refine Or.inr ?_
      obtain ⟨unbound, _⟩ | live := usable
      · exact Or.inl unbound
      · obtain same | raises := whole
        · cases complete : s.complete with
          | false =>
              have shown := shown_of_indistinguishable cv s (refusedState s params bindings) same
                ⟨live.ready, live.ready⟩ ⟨complete, complete⟩
              exact absurd (shown.trans (current_reset s.handles bindings)) (live.shown complete)
          | true =>
              have affected := nRowsAffected_of_indistinguishable cv s _ same
              have idle := uncounted_of_indistinguishable cv s params f bindings live.ready checked
                rows row failed same
              rw [nRowsAffected_refused s params bindings live.ready, idle] at affected
              exact Or.inr ⟨rfl, affected, idle⟩
        · exact absurd raises (not_raisesUntilBound cv _ live.ready)
    · intro keeps
      exact Or.inl (indistinguishable_of_related cv _ _
        (Or.inr (alike_refused s params bindings usable checked keeps)))

/-- A list that holds a string cannot be bound; before any bind, this is without consequences. -/
theorem nothingHalfBound_iff_unbound :
    ∃ s s', create (Handles.prepare twiceProgram () 0) false = .ok () s ∧
      (DbResult.bind [.list [.other "character"]]).run s =
        .error (.stop RVector.cannotBindList) s' ∧
      NothingHalfBound noConversions s s' := by
  refine ⟨_, _, rfl, rfl, ?_⟩
  exact (nothingHalfBound_iff noConversions _ _ (.created twiceProgram () 0 false _ (by decide) rfl)
    [.list [.other "character"]] _ rfl rfl).mpr (Or.inr (Or.inl rfl))

/-- With a row pending, the same list leaves a result that delivers a row of NULLs. -/
theorem nothingHalfBound_pending :
    ∃ s₀ s s', create (Handles.prepare twiceProgram () 0) false = .ok () s₀ ∧
      (DbResult.bind [.int [1]]).run s₀ = .ok () s ∧
      (DbResult.bind [.list [.other "character"]]).run s =
        .error (.stop RVector.cannotBindList) s' ∧
      ¬ NothingHalfBound noConversions s s' := by
  refine ⟨_, _, _, rfl, rfl, rfl, fun whole => ?_⟩
  obtain same | raises := whole
  · have shown := shown_of_indistinguishable noConversions _ _ same ⟨rfl, rfl⟩ ⟨rfl, rfl⟩
    cases shown
  · exact not_raisesUntilBound noConversions _ rfl raises

end RSQLite
