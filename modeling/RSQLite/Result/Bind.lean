import RSQLite.Result.Fetch

/-!
Binding a list of parameters. The list is checked as a whole first, then its
first row is bound, and the statement is stepped up to the first row that it
shows. A statement without parameters is stepped by the constructor.
-/
namespace RSQLite

open SqliteResultImpl

variable {DB : Type}

/-- The number of rows of a parameter list. -/
def rowCount (params : List RVector) : Nat := ((params.head?).map RVector.length).getD 0

def paramRows (params : List RVector) : List (Outcome (List SqlValue)) :=
  (List.range' 0 (rowCount params)).map (paramRow params)

theorem paramRows_cons (params : List RVector) (h : 0 < rowCount params) :
    paramRows params =
      paramRow params 0 :: paramRowsAfter params 0 (rowCount params) := by
  obtain ⟨n, count⟩ := Nat.exists_eq_add_one_of_ne_zero (Nat.ne_of_gt h)
  rw [paramRows, paramRowsAfter, count, List.range'_succ, List.map_cons, Nat.zero_add,
    Nat.add_sub_cancel]

theorem paramRows_nil (params : List RVector) (h : rowCount params = 0) :
    paramRows params = [] := by
  rw [paramRows, h]
  rfl

/-- The checks that `DbResult::bind` and `SqliteResultImpl::bind` make first. -/
structure Checked (s : SqliteResultImpl DB) (params : List RVector) : Prop where
  required : s.nparams ≠ 0
  supplied : params.length = s.nparams
  lengths : ∀ v ∈ params, v.length = rowCount params

theorem validateFrom_iff (n j : Nat) (params : List RVector) :
    DbResult.validateFrom n j params = .ok () ↔ ∀ v ∈ params, v.length = n := by
  induction params generalizing j with
  | nil => simp [DbResult.validateFrom]
  | cons v rest ih =>
      by_cases same : v.length = n
      · simpa [DbResult.validateFrom, same] using ih (j + 1)
      · simp [DbResult.validateFrom, same]

theorem validateParams_iff (params : List RVector) :
    DbResult.validateParams params = .ok () ↔ ∀ v ∈ params, v.length = rowCount params := by
  cases params with
  | nil => simp [DbResult.validateParams]
  | cons first rest => simp [DbResult.validateParams, validateFrom_iff, rowCount]

theorem validateParams_error (params : List RVector) (f : Fault)
    (h : DbResult.validateParams params = .error f) :
    ∃ j, f = .stop (DbResult.doesNotHaveLength j (rowCount params)) := by
  have from_error : ∀ (rest : List RVector) (n j : Nat),
      DbResult.validateFrom n j rest = .error f → ∃ j, f = .stop (DbResult.doesNotHaveLength j n) := by
    intro rest n
    induction rest with
    | nil =>
        intro j h
        cases h
    | cons v rest ih =>
        intro j h
        rw [DbResult.validateFrom] at h
        split at h
        · exact ⟨j + 1, (Except.error.inj h).symm⟩
        · exact ih (j + 1) h
  cases params with
  | nil => cases h
  | cons first rest => exact from_error rest first.length 1 h

namespace SqliteResultImpl

/-- The state in which the first row is bound. -/
def started (s : SqliteResultImpl DB) (params : List RVector) : SqliteResultImpl DB :=
  { s with
    params := params
    groups := rowCount params
    group := 0
    totalChangesStart := s.handles.totalChanges }

/-- The state after `init()`. -/
def initialised (s : SqliteResultImpl DB) (paramsHaveRows : Bool) : SqliteResultImpl DB :=
  { s with ready := true, nrows := 0, complete := !paramsHaveRows }

end SqliteResultImpl

theorem bind_checked (s : SqliteResultImpl DB) (params : List RVector)
    (checked : Checked s params) :
    (DbResult.bind params).run s =
      (bindRow >>= fun hasParams => afterBind hasParams).run (s.started params) := by
  have valid := (validateParams_iff params).mpr checked.lengths
  rw [DbResult.bind, valid, run_bind_ok _ _ s s () (run_liftOutcome_ok () s),
    SqliteResultImpl.bind, EStateM.run_bind, EStateM.run_get]
  simp only [checked.required, checked.supplied, ne_eq, not_true_eq_false, ite_false]
  rw [run_bind_ok _ _ s (s.started params) () rfl]

/-- A list that fails the checks leaves the result as it is, with a message that only
depends on the number of placeholders. -/
theorem bind_unchecked (s : SqliteResultImpl DB) (params : List RVector)
    (unchecked : ¬ Checked s params) :
    ∃ message, ∀ t : SqliteResultImpl DB, t.nparams = s.nparams →
      (DbResult.bind params).run t = .error (.stop message) t := by
  cases valid : DbResult.validateParams params with
  | error f =>
      obtain ⟨j, rfl⟩ := validateParams_error params f valid
      refine ⟨DbResult.doesNotHaveLength j (rowCount params), fun t _ => ?_⟩
      rw [DbResult.bind, valid, run_bind_error _ _ t t _ (run_liftOutcome_error _ t)]
  | ok _ =>
      have lengths := (validateParams_iff params).mp valid
      have reached : ∀ t : SqliteResultImpl DB,
          (DbResult.bind params).run t = (SqliteResultImpl.bind params).run t := by
        intro t
        rw [DbResult.bind, valid, run_bind_ok _ _ t t () (run_liftOutcome_ok () t)]
      by_cases none : s.nparams = 0
      · refine ⟨doesNotRequireParameters, fun t same => ?_⟩
        rw [reached, SqliteResultImpl.bind, EStateM.run_bind, EStateM.run_get]
        simp only [same, none, ite_true, run_throwFault]
      · have count : params.length ≠ s.nparams := fun supplied =>
          unchecked ⟨none, supplied, lengths⟩
        refine ⟨requiresParams s.nparams params.length, fun t same => ?_⟩
        rw [reached, SqliteResultImpl.bind, EStateM.run_bind, EStateM.run_get]
        simp only [same, none, count, ne_eq, not_false_eq_true, ite_true, ite_false,
          run_throwFault]

theorem afterBind_true (s : SqliteResultImpl DB) :
    (afterBind true).run s = step.run (s.initialised true) := by
  rw [afterBind, run_bind_ok _ _ s (s.initialised true) () rfl]
  rfl

theorem afterBind_false (s : SqliteResultImpl DB) :
    (afterBind false).run s = .ok () (s.initialised false) := by
  rw [afterBind, run_bind_ok _ _ s (s.initialised false) () rfl]
  rfl

theorem bind_empty (s : SqliteResultImpl DB) (params : List RVector)
    (checked : Checked s params) (empty : rowCount params = 0) :
    (DbResult.bind params).run s = .ok () ((s.started params).initialised false) := by
  have none := bindRow_none (s.started params) (Nat.le_of_eq empty)
  rw [bind_checked s params checked, run_bind_ok _ _ _ _ _ none, afterBind_false]

theorem bind_row_error (s : SqliteResultImpl DB) (params : List RVector) (f : Fault)
    (checked : Checked s params) (rows : 0 < rowCount params)
    (row : paramRow params 0 = .error f) :
    ∃ bindings, (DbResult.bind params).run s =
      .error f ((s.started params).withHandles (s.handles.reset.withBindings bindings)) := by
  obtain ⟨bindings, bound⟩ := bindRow_error (s.started params) f rows row
  refine ⟨bindings, ?_⟩
  rw [bind_checked s params checked, run_bind_error _ _ _ _ _ bound]
  rfl

namespace SqliteResultImpl

/-- The state in which a statement is first stepped on its first row of parameters. -/
def bound (s : SqliteResultImpl DB) (params : List RVector) (values : List SqlValue) :
    SqliteResultImpl DB :=
  ((s.started params).withHandles (s.handles.reset.withBindings values)).initialised true

end SqliteResultImpl

theorem bind_row_ok (s : SqliteResultImpl DB) (params : List RVector) (values : List SqlValue)
    (checked : Checked s params) (rows : 0 < rowCount params)
    (row : paramRow params 0 = .ok values) :
    (DbResult.bind params).run s = step.run (s.bound params values) := by
  have bound := bindRow_ok (s.started params) values rows checked.supplied row
  rw [bind_checked s params checked, run_bind_ok _ _ _ _ _ bound, afterBind_true]
  rfl

/-- How a bind goes: refused as a whole, without rows, refused at its first row, or stepped
from there. -/
inductive BindRun (s : SqliteResultImpl DB) (params : List RVector) :
    EStateM.Result Fault (SqliteResultImpl DB) Unit → Prop
  | refused (message : String) (unchecked : ¬ Checked s params) :
      BindRun s params (.error (.stop message) s)
  | empty (checked : Checked s params) (none : rowCount params = 0) :
      BindRun s params (.ok () ((s.started params).initialised false))
  | unbindable (f : Fault) (bindings : List SqlValue) (checked : Checked s params)
      (rows : 0 < rowCount params) (row : paramRow params 0 = .error f) :
      BindRun s params
        (.error f ((s.started params).withHandles (s.handles.reset.withBindings bindings)))
  | stepped (values : List SqlValue) (checked : Checked s params) (rows : 0 < rowCount params)
      (row : paramRow params 0 = .ok values) : BindRun s params (step.run (s.bound params values))

theorem bind_runs (s : SqliteResultImpl DB) (params : List RVector) :
    BindRun s params ((DbResult.bind params).run s) := by
  by_cases checked : Checked s params
  · by_cases none : rowCount params = 0
    · rw [bind_empty s params checked none]
      exact .empty checked none
    · have rows : 0 < rowCount params := Nat.pos_of_ne_zero none
      cases row : paramRow params 0 with
      | error f =>
          obtain ⟨bindings, refused⟩ := bind_row_error s params f checked rows row
          rw [refused]
          exact .unbindable f bindings checked rows row
      | ok values =>
          rw [bind_row_ok s params values checked rows row]
          exact .stepped values checked rows row
  · obtain ⟨message, refused⟩ := bind_unchecked s params checked
    rw [refused s rfl]
    exact .refused message checked

theorem bound_handles (s : SqliteResultImpl DB) (params : List RVector) (values : List SqlValue) :
    (s.bound params values).handles =
      { s.handles with
        vdbe := .ready
        totalChanges := s.handles.totalChanges + s.handles.uncounted
        bindings := values } := by
  rw [bound, Handles.reset_eq]
  rfl

theorem bound_count (s : SqliteResultImpl DB) (params : List RVector) (values : List SqlValue)
    (checked : Checked s params) :
    (s.bound params values).params.length = (s.bound params values).nparams := by
  rw [nparams, bound_handles]
  exact checked.supplied

theorem upcoming_bind (s : SqliteResultImpl DB) (params : List RVector) (values : List SqlValue)
    (rows : 0 < rowCount params) (row : paramRow params 0 = .ok values) :
    (s.bound params values).upcoming =
      rowsFrom s.handles.program s.handles.database (paramRows params) := by
  have upcoming := upcoming_bound (s.started params) s.handles values 0
  rw [paramRows_cons params rows, row]
  exact upcoming

theorem toRun_bind (s : SqliteResultImpl DB) (params : List RVector) (values : List SqlValue)
    (rows : 0 < rowCount params) (row : paramRow params 0 = .ok values) :
    (s.bound params values).toRun = paramRows params := by
  have toRun := toRun_bound (s.started params) s.handles values 0
  rw [paramRows_cons params rows, row]
  exact toRun

end RSQLite
