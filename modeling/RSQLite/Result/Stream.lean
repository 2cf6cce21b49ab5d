import RSQLite.Result.Impl
import RSQLite.Sqlite.Progress

/-!
The row stream of a result. `rowsFrom` is what a list of parameter rows yields,
one execution after the other, up to the first failure. `Pending` ties the state
of a result to the part of that stream that has not been delivered: the row that
is shown, the rest of its execution, and the executions still to come.
-/
namespace RSQLite

open SqliteResultImpl

variable {DB : Type}

/-- The rest of an execution, and what follows it if it does not fail. -/
def afterExecution (rows : List Row) (failure : Option String)
    (next : List Row × Option Fault) : List Row × Option Fault :=
  match failure with
  | some message => (rows, some (.stop message))
  | none => (rows ++ next.1, next.2)

/-- The rows of a list of parameter rows. A row of parameters that cannot be bound
ends it. -/
def rowsFrom (program : Program DB) : DB → List (Outcome (List SqlValue)) →
    List Row × Option Fault
  | _, [] => ([], none)
  | _, .error f :: _ => ([], some f)
  | db, .ok values :: rest =>
      let e := program.exec db values
      afterExecution e.rows e.failure (rowsFrom program e.database rest)

/-- The rows of parameters after `group`. -/
def paramRowsAfter (params : List RVector) (group groups : Nat) :
    List (Outcome (List SqlValue)) :=
  (List.range' (group + 1) (groups - (group + 1))).map (paramRow params)

theorem paramRowsAfter_cons (params : List RVector) (group groups : Nat)
    (h : group + 1 < groups) :
    paramRowsAfter params group groups =
      paramRow params (group + 1) :: paramRowsAfter params (group + 1) groups := by
  have count : groups - (group + 1) = groups - (group + 1 + 1) + 1 := by omega
  rw [paramRowsAfter, count, List.range'_succ, List.map_cons]
  rfl

theorem paramRowsAfter_nil (params : List RVector) (group groups : Nat)
    (h : groups ≤ group + 1) : paramRowsAfter params group groups = [] := by
  rw [paramRowsAfter, Nat.sub_eq_zero_of_le h]
  rfl

theorem paramRowsAfter_length (params : List RVector) (group groups : Nat) :
    (paramRowsAfter params group groups).length = groups - (group + 1) := by
  simp only [paramRowsAfter, List.length_map, List.length_range']

namespace SqliteResultImpl

/-- The executions still to come, after the current one. -/
def todo (s : SqliteResultImpl DB) : List (Outcome (List SqlValue)) :=
  paramRowsAfter s.params s.group s.groups

/-- What stepping will show. -/
def upcoming (s : SqliteResultImpl DB) : List Row × Option Fault :=
  afterExecution s.handles.upcoming.1 s.handles.upcoming.2.1
    (rowsFrom s.handles.program s.handles.upcoming.2.2 s.todo)

/-- A shown row and what stepping will show after it, or nothing once complete. -/
def Pending (s : SqliteResultImpl DB) (stream : List Row × Option Fault) : Prop :=
  s.complete = true ∧ stream = ([], none) ∨
    s.complete = false ∧ ∃ row, s.handles.current = some row ∧
      stream = (row :: s.upcoming.1, s.upcoming.2)

end SqliteResultImpl

section Monad

variable {α β : Type}

theorem run_bind_ok (x : Method DB α) (f : α → Method DB β) (s s' : SqliteResultImpl DB) (a : α)
    (h : x.run s = .ok a s') : (x >>= f).run s = (f a).run s' := by
  rw [EStateM.run_bind, h]

theorem run_bind_error (x : Method DB α) (f : α → Method DB β) (s s' : SqliteResultImpl DB)
    (e : Fault) (h : x.run s = .error e s') : (x >>= f).run s = .error e s' := by
  rw [EStateM.run_bind, h]

@[simp] theorem run_throwFault (e : Fault) (s : SqliteResultImpl DB) :
    (throwFault e : Method DB α).run s = .error e s := rfl

@[simp] theorem run_liftOutcome_ok (a : α) (s : SqliteResultImpl DB) :
    (liftOutcome (.ok a) : Method DB α).run s = .ok a s := rfl

@[simp] theorem run_liftOutcome_error (e : Fault) (s : SqliteResultImpl DB) :
    (liftOutcome (.error e) : Method DB α).run s = .error e s := rfl

end Monad

theorem bindParameterPos_run (s : SqliteResultImpl DB) (j : Nat) (value : RVector) (v : SqlValue)
    (read : value.boundValue s.group = .ok v) (ready : s.handles.vdbe = .ready) :
    (bindParameterPos (j + 1) value).run s =
      .ok () (s.withHandles (s.handles.withBindings (s.handles.bindings.set j v))) := by
  simp [bindParameterPos, read, Handles.bind, ready]

theorem bindParameterPos_error (s : SqliteResultImpl DB) (j : Nat) (value : RVector) (f : Fault)
    (read : value.boundValue s.group = .error f) :
    (bindParameterPos j value).run s = .error f s := by
  simp [bindParameterPos, read]

/-- Binding the remaining parameters behind the ones that are bound already. -/
theorem bindParameters_ok (rest : List RVector) :
    ∀ (s : SqliteResultImpl DB) (pre blanks values : List SqlValue),
      s.handles.vdbe = .ready → s.handles.bindings = pre ++ blanks →
      blanks.length = rest.length → paramRow rest s.group = .ok values →
      (bindParameters pre.length rest).run s =
        .ok () (s.withHandles (s.handles.withBindings (pre ++ values))) := by
  induction rest with
  | nil =>
      intro s pre blanks values _ bindings length h
      obtain rfl : blanks = [] := List.length_eq_zero_iff.mp length
      obtain rfl : [] = values := Except.ok.inj h
      rw [← bindings]
      rfl
  | cons value rest ih =>
      intro s pre blanks values ready bindings length h
      obtain ⟨blank, blanks, rfl⟩ : ∃ b bs, blanks = b :: bs :=
        List.exists_cons_of_length_pos (by simp [length])
      obtain ⟨v, others, first, later, rfl⟩ := (Traverse.mapM_ok_cons _ _ _ _).mp h
      have bound := bindParameterPos_run s pre.length value v first ready
      rw [bindings, List.set_append_right _ _ (Nat.le_refl _), Nat.sub_self,
        List.set_cons_zero] at bound
      have next := ih (s.withHandles (s.handles.withBindings (pre ++ v :: blanks))) (pre ++ [v])
        blanks others ready (by simp [withHandles]) (by simpa using length) later
      rw [List.length_append, List.length_singleton] at next
      rw [bindParameters, run_bind_ok _ _ _ _ _ bound, next]
      simp [withHandles]

theorem bindParameters_error (rest : List RVector) :
    ∀ (s : SqliteResultImpl DB) (j : Nat) (f : Fault),
      s.handles.vdbe = .ready → paramRow rest s.group = .error f →
      ∃ bindings, (bindParameters j rest).run s =
        .error f (s.withHandles (s.handles.withBindings bindings)) := by
  induction rest with
  | nil =>
      intro s j f _ h
      cases h
  | cons value rest ih =>
      intro s j f ready h
      rw [bindParameters]
      obtain first | ⟨v, first, later⟩ := (Traverse.mapM_error_cons _ _ _ _).mp h
      · exact ⟨s.handles.bindings,
          run_bind_error _ _ _ _ _ (bindParameterPos_error s (j + 1) value f first)⟩
      · have bound := bindParameterPos_run s j value v first ready
        obtain ⟨bindings, next⟩ := ih
          (s.withHandles (s.handles.withBindings (s.handles.bindings.set j v))) (j + 1) f ready later
        refine ⟨bindings, ?_⟩
        rw [run_bind_ok _ _ _ _ _ bound, next]
        rfl

theorem bindRow_none (s : SqliteResultImpl DB) (h : s.groups ≤ s.group) :
    bindRow.run s = .ok false s := by
  simp [bindRow, h]

theorem bindRow_ok (s : SqliteResultImpl DB) (values : List SqlValue) (h : s.group < s.groups)
    (count : s.params.length = s.nparams) (row : paramRow s.params s.group = .ok values) :
    bindRow.run s = .ok true (s.withHandles (s.handles.reset.withBindings values)) := by
  have program : s.handles.reset.parameterCount = s.params.length := by
    rw [count, Handles.reset_eq]
    rfl
  have bound := bindParameters_ok s.params
    (s.withHandles s.handles.reset.clearBindings) [] (List.replicate s.params.length .null) values
    (by rw [Handles.reset_eq]; rfl)
    (by rw [Handles.clearBindings_eq, program]; rfl)
    List.length_replicate row
  simp only [List.length_nil, List.nil_append, Handles.clearBindings_eq] at bound
  simp only [bindRow, EStateM.run_bind, EStateM.run_get, Nat.not_le.mpr h, ite_false,
    EStateM.run_modify, Handles.clearBindings_eq, bound, EStateM.run_pure]
  rfl

theorem bindRow_error (s : SqliteResultImpl DB) (f : Fault) (h : s.group < s.groups)
    (row : paramRow s.params s.group = .error f) :
    ∃ bindings, bindRow.run s =
      .error f (s.withHandles (s.handles.reset.withBindings bindings)) := by
  obtain ⟨bindings, bound⟩ := bindParameters_error s.params
    (s.withHandles s.handles.reset.clearBindings) 0 f (by rw [Handles.reset_eq]; rfl) row
  refine ⟨bindings, ?_⟩
  simp only [Handles.clearBindings_eq] at bound
  simp only [bindRow, EStateM.run_bind, EStateM.run_get, Nat.not_le.mpr h, ite_false,
    EStateM.run_modify, Handles.clearBindings_eq, bound]
  rfl

namespace SqliteResultImpl

/-- All that stepping changes, apart from the flag `complete_`. -/
def moveTo (s : SqliteResultImpl DB) (h : Handles DB) (group : Nat) : SqliteResultImpl DB :=
  { s with handles := h, group := group }

/-- The values that the executions up to the end of the stream run on. -/
def toRun (s : SqliteResultImpl DB) : List (Outcome (List SqlValue)) :=
  s.handles.toExecute.map .ok ++ s.todo

end SqliteResultImpl

/-- How stepping ends, given what it will show: at a row, at the end, or with the
failure of an execution or of a row of parameters. -/
inductive StepEnd (s : SqliteResultImpl DB) : List Row × Option Fault →
    EStateM.Result Fault (SqliteResultImpl DB) Unit → Prop
  | row (h : Handles DB) (g : Nat) (done : List (List SqlValue)) (row : Row)
      (progress : s.handles.Progress h done)
      (run : s.toRun = done.map .ok ++ (s.moveTo h g).todo) (shown : h.current = some row) :
      StepEnd s (row :: (s.moveTo h g).upcoming.1, (s.moveTo h g).upcoming.2)
        (.ok () (s.moveTo h g))
  | finished (h : Handles DB) (g : Nat) (done : List (List SqlValue))
      (progress : s.handles.Progress h done) (run : s.toRun = done.map .ok)
      (hidden : h.vdbe = .halt) :
      StepEnd s ([], none) (.ok () { s.moveTo h g with complete := true })
  | failed (h : Handles DB) (g : Nat) (done : List (List SqlValue)) (f : Fault)
      (progress : s.handles.Progress h done) (run : done.map .ok <+: s.toRun)
      (hidden : h.current = none) :
      StepEnd s ([], some f) (.error f (s.moveTo h g))

theorem StepEnd.after {s : SqliteResultImpl DB} {h : Handles DB} {g : Nat}
    {first : List (List SqlValue)} {stream : List Row × Option Fault}
    {result : EStateM.Result Fault (SqliteResultImpl DB) Unit}
    (progress : s.handles.Progress h first)
    (run : s.toRun = first.map .ok ++ (s.moveTo h g).toRun)
    (rest : StepEnd (s.moveTo h g) stream result) : StepEnd s stream result := by
  cases rest with
  | row h' g' done row progress' run' shown =>
      exact .row h' g' (first ++ done) row (progress.trans progress')
        (by rw [run, run', List.map_append, List.append_assoc]; rfl) shown
  | finished h' g' done progress' run' hidden =>
      exact .finished h' g' (first ++ done) (progress.trans progress')
        (by rw [run, run', List.map_append]) hidden
  | failed h' g' done f progress' run' hidden =>
      exact .failed h' g' (first ++ done) f (progress.trans progress')
        (by rw [run, List.map_append]; exact List.prefix_append_right_inj _ |>.mpr run') hidden

theorem afterExecution_cons (row : Row) (rows : List Row) (failure : Option String)
    (next : List Row × Option Fault) :
    afterExecution (row :: rows) failure next =
      (row :: (afterExecution rows failure next).1, (afterExecution rows failure next).2) := by
  cases failure <;> rfl

theorem todo_of_todo_nil (s : SqliteResultImpl DB) (h : s.groups ≤ s.group + 1) : s.todo = [] :=
  paramRowsAfter_nil s.params s.group s.groups h

theorem sqlite3Step_run (s : SqliteResultImpl DB) (r : StepResult) (h : Handles DB)
    (stepped : s.handles.step = (r, h)) : sqlite3Step.run s = .ok r (s.withHandles h) := by
  change EStateM.Result.ok s.handles.step.1 (s.withHandles s.handles.step.2) = _
  rw [stepped]

/-- A statement that has not started shows the rows of the row bound to it. -/
theorem upcoming_bound (s : SqliteResultImpl DB) (h : Handles DB) (values : List SqlValue)
    (g : Nat) :
    (s.moveTo (h.reset.withBindings values) g).upcoming =
      rowsFrom h.program h.database (.ok values :: (s.moveTo h g).todo) := by
  simp only [SqliteResultImpl.upcoming, moveTo, Handles.upcoming, Handles.reset_eq, rowsFrom]
  rfl

theorem toRun_bound (s : SqliteResultImpl DB) (h : Handles DB) (values : List SqlValue) (g : Nat) :
    (s.moveTo (h.reset.withBindings values) g).toRun = .ok values :: (s.moveTo h g).todo := by
  have ready : (h.reset.withBindings values).vdbe = .ready := by
    rw [Handles.withBindings_vdbe, Handles.reset_eq]
  simp only [toRun, moveTo, Handles.toExecute, ready]
  rfl

theorem current_reset (h : Handles DB) (bindings : List SqlValue) :
    (h.reset.withBindings bindings).current = none := by
  rw [Handles.reset_eq]
  rfl

theorem progress_bound (h : Handles DB) (values : List SqlValue) :
    h.Progress (h.reset.withBindings values) [] :=
  (Handles.progress_reset h).trans (Handles.progress_bindings h.reset values)

theorem stepRun_row (s : SqliteResultImpl DB) (h : Handles DB)
    (stepped : s.handles.step = (.row, h)) : stepRun.run s = .ok false (s.withHandles h) := by
  rw [stepRun, run_bind_ok _ _ _ _ _ (sqlite3Step_run s _ h stepped)]
  rfl

theorem stepRun_error (s : SqliteResultImpl DB) (h : Handles DB) (message : String)
    (stepped : s.handles.step = (.error message, h)) :
    stepRun.run s = .error (.stop message) (s.withHandles h) := by
  rw [stepRun, run_bind_ok _ _ _ _ _ (sqlite3Step_run s _ h stepped)]
  rfl

theorem stepRun_done (s : SqliteResultImpl DB) (h : Handles DB)
    (stepped : s.handles.step = (.done, h)) : stepRun.run s = stepDone.run (s.withHandles h) := by
  rw [stepRun, run_bind_ok _ _ _ _ _ (sqlite3Step_run s _ h stepped)]

theorem stepDone_none (s : SqliteResultImpl DB) (h : s.groups ≤ s.group + 1) :
    stepDone.run s = .ok false { s.moveTo s.handles (s.group + 1) with complete := true } := by
  have last := bindRow_none (s.moveTo s.handles (s.group + 1)) h
  rw [stepDone, run_bind_ok _ _ s (s.moveTo s.handles (s.group + 1)) () rfl,
    run_bind_ok _ _ _ _ _ last]
  rfl

theorem stepDone_ok (s : SqliteResultImpl DB) (values : List SqlValue)
    (h : s.group + 1 < s.groups) (count : s.params.length = s.nparams)
    (row : paramRow s.params (s.group + 1) = .ok values) :
    stepDone.run s =
      .ok true (s.moveTo (s.handles.reset.withBindings values) (s.group + 1)) := by
  have next := bindRow_ok (s.moveTo s.handles (s.group + 1)) values h count row
  rw [stepDone, run_bind_ok _ _ s (s.moveTo s.handles (s.group + 1)) () rfl,
    run_bind_ok _ _ _ _ _ next]
  rfl

theorem stepDone_error (s : SqliteResultImpl DB) (f : Fault) (h : s.group + 1 < s.groups)
    (row : paramRow s.params (s.group + 1) = .error f) :
    ∃ bindings, stepDone.run s =
      .error f (s.moveTo (s.handles.reset.withBindings bindings) (s.group + 1)) := by
  obtain ⟨bindings, next⟩ := bindRow_error (s.moveTo s.handles (s.group + 1)) f h row
  refine ⟨bindings, ?_⟩
  rw [stepDone, run_bind_ok _ _ s (s.moveTo s.handles (s.group + 1)) () rfl,
    run_bind_error _ _ _ _ _ next]
  rfl

/-- Stepping follows the stream: it ends at its first row, or as the stream ends. -/
theorem stepLoop_end (rounds : Nat) :
    ∀ s : SqliteResultImpl DB, s.params.length = s.nparams → s.todo.length < rounds →
      StepEnd s s.upcoming ((stepLoop rounds).run s) := by
  induction rounds with
  | zero =>
      intro s _ enough
      omega
  | succ rounds ih =>
      intro s count enough
      rw [stepLoop]
      generalize stepped : s.handles.step = result
      cases stepped ▸ Handles.step_stepped s.handles with
      | row row rest own h upcoming progress vdbe bindings database =>
          have shown : h.current = some row := by simp only [Handles.current, vdbe]
          have stream : s.upcoming = (row :: (s.moveTo h s.group).upcoming.1,
              (s.moveTo h s.group).upcoming.2) := by
            rw [SqliteResultImpl.upcoming, upcoming, afterExecution_cons]
            simp only [SqliteResultImpl.upcoming, moveTo, Handles.upcoming, vdbe, database,
              progress.program]
            rfl
          have executed : (s.moveTo h s.group).toRun = s.todo := by
            simp only [toRun, moveTo, Handles.toExecute, vdbe]
            rfl
          rw [run_bind_ok _ _ _ _ _ (stepRun_row s h stepped), stream]
          exact .row h s.group s.handles.toExecute row progress rfl shown
      | done h rows failure progress vdbe bindings database =>
          have stream : s.upcoming = rowsFrom h.program h.database s.todo := by
            rw [SqliteResultImpl.upcoming, rows, failure, database, progress.program]
            rfl
          by_cases last : s.groups ≤ s.group + 1
          · have none := stepDone_none (s.withHandles h) last
            rw [run_bind_ok _ _ _ _ _ ((stepRun_done s h stepped).trans none), stream,
              todo_of_todo_nil s last]
            refine .finished h (s.group + 1) s.handles.toExecute progress ?_ vdbe
            rw [toRun, todo_of_todo_nil s last, List.append_nil]
          · have more : s.group + 1 < s.groups := by omega
            have todo : s.todo = paramRow s.params (s.group + 1) ::
                (s.moveTo h (s.group + 1)).todo := paramRowsAfter_cons _ _ _ more
            cases row : paramRow s.params (s.group + 1) with
            | ok values =>
                have count' : s.params.length = h.parameterCount :=
                  count.trans progress.parameterCount.symm
                have next := stepDone_ok (s.withHandles h) values more count' row
                rw [todo, List.length_cons] at enough
                have rest := ih (s.moveTo (h.reset.withBindings values) (s.group + 1))
                  (by rw [Handles.reset_eq]; exact count') (Nat.lt_of_succ_lt_succ enough)
                rw [run_bind_ok _ _ _ _ _ ((stepRun_done s h stepped).trans next), stream, todo,
                  row]
                rw [upcoming_bound] at rest
                refine StepEnd.after (progress.trans (progress_bound h values)) ?_ rest
                rw [List.append_nil, toRun_bound, toRun, todo, row]
            | error f =>
                obtain ⟨b, next⟩ := stepDone_error (s.withHandles h) f more row
                rw [run_bind_error _ _ _ _ _ ((stepRun_done s h stepped).trans next), stream, todo,
                  row]
                refine .failed _ (s.group + 1) s.handles.toExecute f ?_ ?_ ?_
                · exact (List.append_nil s.handles.toExecute) ▸ progress.trans (progress_bound h b)
                · exact List.prefix_append _ _
                · rw [Handles.reset_eq]
                  rfl
      | error message h rows failure progress vdbe bindings database =>
          have stream : s.upcoming = ([], some (.stop message)) := by
            rw [SqliteResultImpl.upcoming, rows, failure]
            rfl
          have hidden : h.current = none := by simp only [Handles.current, vdbe]
          rw [run_bind_error _ _ _ _ _ (stepRun_error s h message stepped), stream]
          exact .failed h s.group s.handles.toExecute _ progress (List.prefix_append _ _) hidden

theorem step_end (s : SqliteResultImpl DB) (count : s.params.length = s.nparams) :
    StepEnd s s.upcoming (step.run s) := by
  have enough : s.todo.length < s.groups - s.group + 1 := by
    rw [todo, paramRowsAfter_length]
    omega
  exact stepLoop_end (s.groups - s.group + 1) s count enough

end RSQLite
