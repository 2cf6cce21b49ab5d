import Mathlib.Logic.Function.Basic
import RSQLite.Bind.DbBind
import RSQLite.Library.Ending
import RSQLite.Library.Runs
import RSQLite.Library.Weakest

/-!
The results obtained from one connection, of which at most one is open: it is the one that
`conn@ref$result` holds. Sending a query closes it, and a result that can no longer be
reached by its connection is closed on exit.
-/
namespace RSQLite

open Ending Weakest Runs

/-- What `sqlite3_prepare_v2()` makes of a statement, and what it leaves behind. -/
structure PreparedQuery (DB : Type) where
  program : Program DB
  tail : Option String

/-- The external pointers of the results that have been created, with what they hold: nothing
any more, once the result is released. -/
structure SQLiteConnection (DB : Type) where
  database : DB
  totalChanges : Int32
  withAltTypes : Bool
  results : Nat → Option (SqliteResultImpl DB)
  created : Nat
  current : Option Nat
  warnings : List String

/-- What R code can be left with: an error, or an assertion of `stopifnot()` that fails. -/
inductive Condition
  | error (f : Fault)
  | stopifnot (expression : String)
deriving DecidableEq

abbrev OnConnection (DB : Type) := EStateM Condition (SQLiteConnection DB)

namespace SQLiteConnection

variable {DB : Type}

def connected (database : DB) (withAltTypes : Bool) : SQLiteConnection DB where
  database := database
  totalChanges := 0
  withAltTypes := withAltTypes
  results := fun _ => none
  created := 0
  current := none
  warnings := []

/-- What the handles of a result have made of the connection. -/
def synced (s : SQLiteConnection DB) (h : Handles DB) : SQLiteConnection DB :=
  { s with database := h.database, totalChanges := h.totalChanges }

def store (s : SQLiteConnection DB) (r : Nat) (impl : Option (SqliteResultImpl DB)) :
    SQLiteConnection DB :=
  { s with results := Function.update s.results r impl }

/-- The handles of a result on the connection as it is now. -/
def attached (s : SQLiteConnection DB) (impl : SqliteResultImpl DB) : SqliteResultImpl DB :=
  impl.withHandles
    { impl.handles with database := s.database, totalChanges := s.totalChanges }

def register (s : SQLiteConnection DB) (current : Option Nat) : SQLiteConnection DB :=
  { s with current := current }

/-- Open: from the creation to the release. -/
def IsOpen (s : SQLiteConnection DB) (r : Nat) : Prop := (s.results r).isSome = true

instance (s : SQLiteConnection DB) (r : Nat) : Decidable (s.IsOpen r) :=
  inferInstanceAs (Decidable (_ = true))

section Programs

variable {χ : Type} (prepare : DB → String → Except String (PreparedQuery DB))
  (enc2utf8 : χ → Bytes) (cv : Conversions)

def warning (message : String) : OnConnection DB Unit :=
  modify (fun s => { s with warnings := s.warnings ++ [message] })

def stop {α : Type} (message : String) : OnConnection DB α := throw (.error (.stop message))

def invalidResultSet : String := "Invalid result set"

/-- A method of the result behind an external pointer. -/
def onResult {α : Type} (r : Nat) (method : Method DB α) : OnConnection DB α := fun s =>
  match s.results r with
  | none => .error (.error (.stop invalidResultSet)) s
  | some impl =>
      match method.run (s.attached impl) with
      | .ok a impl' => .ok a ((s.synced impl'.handles).store r (some impl'))
      | .error f impl' => .error (.error f) ((s.synced impl'.handles).store r (some impl'))

def dbIsValid (r : Nat) : OnConnection DB Bool := do pure (decide ((← get).IsOpen r))

def ignoringRemaining (tail : String) : String := "Ignoring remaining part of query: " ++ tail

/-- `result_create()`. A constructor that throws leaves no result. -/
def resultCreate (statement : String) : OnConnection DB Nat := do
  let s ← get
  match prepare s.database statement with
  | .error message => stop message
  | .ok query => do
      query.tail.elim (pure ()) (fun tail => warning (ignoringRemaining tail))
      match SqliteResultImpl.create
          (Handles.prepare query.program s.database s.totalChanges) s.withAltTypes with
      | .error f impl => do
          modify (fun s => s.synced impl.handles.finalize)
          throw (.error f)
      | .ok _ impl => do
          modify (fun s => { (s.synced impl.handles).store s.created (some impl) with
            created := s.created + 1 })
          pure s.created

def resultRelease (r : Nat) : OnConnection DB Unit := do
  let s ← get
  match s.results r with
  | none => pure ()
  | some impl => modify (fun s => (s.synced (s.attached impl).handles.finalize).store r none)

def expired : String := "Expired, result set already closed"

def dbClearResult (r : Nat) : OnConnection DB Unit := do
  if (← dbIsValid r) = false then warning expired
  else do
    resultRelease r
    modify (fun s => s.register none)

def closingOpenResultSet : String := "Closing open result set, pending rows"

def dbBindResult (r : Nat) (params : ParamList χ) : OnConnection DB Unit := do
  let warnings ← onResult r (dbBind enc2utf8 false params)
  modify (fun s => { s with warnings := s.warnings ++ warnings })

/-- The result that is registered is closed first. -/
def closeCurrent : OnConnection DB Unit := do
  match (← get).current with
  | none => pure ()
  | some r => do
      warning closingOpenResultSet
      dbClearResult r
      if (← get).current.isSome then throw (.stopifnot "is.null(conn@ref$result)")

/-- A result whose parameters cannot be bound is closed on exit. -/
def dbSendQuery (statement : String) (params : Option (ParamList χ)) : OnConnection DB Nat := do
  closeCurrent
  let rs ← resultCreate prepare statement
  onExit (dbClearResult rs) (params.elim (pure ()) (dbBindResult enc2utf8 rs))
  modify (fun s => s.register (some rs))
  pure rs

/-- A number of rows as it is passed from R. -/
inductive RCount
  | na
  | infinite (negative : Bool)
  | finite (n : ℚ)
deriving DecidableEq

/-- The number of rows that is passed on to `result_fetch()`. -/
def fetchCount : List RCount → Except String Int
  | [.na] => .ok 256
  | [.infinite false] => .ok (-1)
  | [.infinite true] => .error "`n` must be nonnegative or -1"
  | [.finite n] =>
      if n < -1 then .error "`n` must be nonnegative or -1"
      else if n.den ≠ 1 then .error "`n` must be a whole number"
      else .ok n.num
  | _ => .error "`n` must be scalar"

/-- The rounds bound the rows that are read. -/
def dbFetch (r : Nat) (n : List RCount) (rounds : Nat) : OnConnection DB DataFrame :=
  match fetchCount n with
  | .error message => stop message
  | .ok n => onResult r (DbResult.fetch cv rounds n)

inductive Invocation (χ : Type)
  | sendQuery (statement : String) (params : Option (ParamList χ))
  | bind (r : Nat) (params : ParamList χ)
  | fetch (r : Nat) (n : List RCount) (rounds : Nat)
  | clearResult (r : Nat)

def Invocation.answer : Invocation χ → OnConnection DB Unit
  | .sendQuery statement params => discard (dbSendQuery prepare enc2utf8 statement params)
  | .bind r params => dbBindResult enc2utf8 r params
  | .fetch r n rounds => discard (dbFetch cv r n rounds)
  | .clearResult r => dbClearResult r

/-- The connection behind a call, whether it returns or raises an error. -/
def step (s : SQLiteConnection DB) (call : Invocation χ) : SQLiteConnection DB :=
  (ending ((call.answer prepare enc2utf8 cv).run s)).2

end Programs

/-- The results that are open, `opened` and nothing else, and what is registered. -/
structure Holds (opened current : Option Nat) (s : SQLiteConnection DB) : Prop where
  isOpen : ∀ r, s.IsOpen r ↔ opened = some r
  current : s.current = current
  known : ∀ r, s.created ≤ r → s.results r = none

section Rules

variable {s : SQLiteConnection DB} {opened current : Option Nat}

/-- R is left with an error, and no assertion has failed. -/
def Fails (P : SQLiteConnection DB → Prop) (e : Condition) (s : SQLiteConnection DB) : Prop :=
  P s ∧ ∃ f, e = .error f

theorem Holds.sync (holds : Holds opened current s) (h : Handles DB) :
    Holds opened current (s.synced h) := ⟨holds.isOpen, holds.current, holds.known⟩

theorem Holds.warn (holds : Holds opened current s) (warnings : List String) :
    Holds opened current { s with warnings := warnings } :=
  ⟨holds.isOpen, holds.current, holds.known⟩

theorem Holds.register (holds : Holds opened current s) (r : Option Nat) :
    Holds opened r (s.register r) := ⟨holds.isOpen, rfl, holds.known⟩

theorem isOpen_store (s : SQLiteConnection DB) (r r' : Nat) (impl : Option (SqliteResultImpl DB)) :
    (s.store r impl).IsOpen r' ↔ if r' = r then impl.isSome = true else s.IsOpen r' := by
  unfold IsOpen store
  by_cases same : r' = r
  · simp only [same, Function.update_self, ite_true]
  · simp only [Function.update_of_ne same, if_neg same]

theorem Holds.update (holds : Holds opened current s) {r : Nat} (isOpen : s.IsOpen r)
    (impl : SqliteResultImpl DB) : Holds opened current (s.store r (some impl)) where
  isOpen r' := by
    rw [isOpen_store]
    split
    · next same => exact iff_of_true rfl (same ▸ (holds.isOpen r).mp isOpen)
    · exact holds.isOpen r'
  current := holds.current
  known r' beyond := by
    have ne : r' ≠ r := by
      rintro rfl
      have open_ := isOpen
      rw [IsOpen, holds.known r' beyond] at open_
      cases open_
    exact (Function.update_of_ne ne _ _).trans (holds.known r' beyond)

theorem Holds.release {r : Nat} (holds : Holds (some r) current s) :
    Holds none current (s.store r none) where
  isOpen r' := by
    rw [isOpen_store]
    split
    · exact iff_of_false Bool.false_ne_true (Option.some_ne_none r' ∘ Eq.symm)
    · next ne =>
        refine (holds.isOpen r').trans (iff_of_false ?_ (Option.some_ne_none r' ∘ Eq.symm))
        exact fun same => ne (Option.some.inj same).symm
  current := holds.current
  known r' beyond := by
    change Function.update s.results r none r' = none
    rw [Function.update_apply]
    split
    · rfl
    · exact holds.known r' beyond

theorem Holds.create (holds : Holds none current s) (impl : SqliteResultImpl DB) :
    Holds (some s.created) current
      { s.store s.created (some impl) with created := s.created + 1 } where
  isOpen r' := by
    refine (isOpen_store s s.created r' (some impl)).trans ?_
    split
    · next same => exact iff_of_true rfl (congrArg some same.symm)
    · next ne =>
        refine (holds.isOpen r').trans (iff_of_false (Option.some_ne_none r' ∘ Eq.symm) ?_)
        exact fun same => ne (Option.some.inj same).symm
  current := holds.current
  known r' beyond :=
    (Function.update_of_ne (Nat.ne_of_gt beyond) _ _).trans
      (holds.known r' (Nat.le_of_succ_le beyond))

@[simp] theorem wp_warning (message : String) (Q : PUnit → SQLiteConnection DB → Prop)
    (E : Condition → SQLiteConnection DB → Prop) :
    wp (warning message) Q E s ↔ Q ⟨⟩ { s with warnings := s.warnings ++ [message] } := Iff.rfl

theorem wp_onResult {α : Type} (holds : Holds opened current s) (r : Nat) (method : Method DB α) :
    wp (onResult r method) (fun _ => Holds opened current) (Fails (Holds opened current)) s := by
  unfold wp
  simp only [onResult, EStateM.run]
  cases found : s.results r with
  | none => exact ⟨holds, _, rfl⟩
  | some impl =>
      have isOpen : s.IsOpen r := by
        rw [IsOpen, found]
        rfl
      simp only
      cases method (s.attached impl) with
      | ok a impl' => exact (holds.sync impl'.handles).update isOpen impl'
      | error f impl' => exact ⟨(holds.sync impl'.handles).update isOpen impl', _, rfl⟩

/-- Clearing the open result releases and unregisters it; any other one is only warned about. -/
theorem wp_dbClearResult (holds : Holds opened current s) (r : Nat) {E : Condition →
    SQLiteConnection DB → Prop} :
    wp (dbClearResult r) (fun _ => if opened = some r then Holds none none else Holds opened current)
      E s := by
  simp only [dbClearResult, dbIsValid, wp_bind, wp_get, wp_pure, wp_ite, decide_eq_false_iff_not,
    holds.isOpen r]
  by_cases own : opened = some r
  · subst own
    simp only [not_true_eq_false, ite_false, ite_true, resultRelease, wp_bind, wp_get]
    obtain ⟨impl, found⟩ := Option.isSome_iff_exists.mp ((holds.isOpen r).mpr rfl)
    rw [found]
    exact ((holds.sync _).release).register none
  · simp only [own, not_false_eq_true, ite_true, ite_false]
    exact holds.warn _

theorem wp_closeCurrent (holds : Holds opened opened s) {E : Condition →
    SQLiteConnection DB → Prop} :
    wp closeCurrent (fun _ => Holds none none) E s := by
  rw [closeCurrent, wp_bind, wp_get, holds.current]
  cases opened with
  | none => exact holds
  | some r =>
      simp only [wp_bind, wp_warning]
      apply wp_returns (wp_dbClearResult (holds.warn _) r)
      intro _ s' cleared
      rw [if_pos rfl] at cleared
      rw [wp_bind, wp_get, cleared.current]
      exact cleared

variable (prepare : DB → String → Except String (PreparedQuery DB))

theorem wp_resultCreate (holds : Holds none current s) (statement : String) :
    wp (resultCreate prepare statement) (fun r => Holds (some r) current)
      (Fails (Holds none current)) s := by
  rw [resultCreate, wp_bind, wp_get]
  cases prepare s.database statement with
  | error message => exact ⟨holds, _, rfl⟩
  | ok query =>
      rw [wp_bind]
      have warned : ∀ Q : PUnit → SQLiteConnection DB → Prop,
          (∀ warnings, Q ⟨⟩ { s with warnings := warnings }) →
          wp (query.tail.elim (pure ()) fun tail => warning (ignoringRemaining tail)) Q
            (Fails (Holds none current)) s := by
        intro Q every
        cases query.tail with
        | none => exact every s.warnings
        | some tail => exact every _
      apply warned
      intro warnings
      cases SqliteResultImpl.create
        (Handles.prepare query.program s.database s.totalChanges) s.withAltTypes with
      | error f impl => exact ⟨(holds.warn warnings).sync _, _, rfl⟩
      | ok _ impl => exact ((holds.warn warnings).sync _).create impl

variable {χ : Type} (enc2utf8 : χ → Bytes) (cv : Conversions)

theorem wp_dbBindResult (holds : Holds opened current s) (r : Nat) (params : ParamList χ) :
    wp (dbBindResult enc2utf8 r params) (fun _ => Holds opened current)
      (Fails (Holds opened current)) s := by
  rw [dbBindResult, wp_bind]
  apply wp_returns (wp_onResult holds r _)
  exact fun _ _ holds' => holds'.warn _

theorem wp_dbSendQuery (holds : Holds opened opened s) (statement : String)
    (params : Option (ParamList χ)) :
    wp (dbSendQuery prepare enc2utf8 statement params) (fun r => Holds (some r) (some r))
      (Fails (Holds none none)) s := by
  rw [dbSendQuery, wp_bind]
  apply wp_returns (wp_closeCurrent holds)
  intro _ s₁ closed
  rw [wp_bind]
  apply wp_returns (wp_resultCreate prepare closed statement)
  intro rs s₂ created
  rw [wp_bind, wp_onExit]
  have binds : wp (params.elim (pure ()) (dbBindResult enc2utf8 rs))
      (fun _ => Holds (some rs) none) (Fails (Holds (some rs) none)) s₂ := by
    cases params with
    | none => exact created
    | some params => exact wp_dbBindResult enc2utf8 created rs params
  apply wp_mono _ _ binds
  · exact fun _ _ bound => bound.register (some rs)
  -- What cannot be bound is cleared on exit.
  · intro e s₃ ⟨unbound, f, raised⟩
    apply wp_returns (wp_dbClearResult unbound rs)
    intro _ s₄ cleared
    rw [if_pos rfl] at cleared
    exact ⟨cleared, f, raised⟩

/-- The open result, if there is one, is the one that is registered. -/
def Registered (s : SQLiteConnection DB) : Prop := Holds s.current s.current s

theorem Holds.registered {result : Option Nat} (holds : Holds result result s) : s.Registered := by
  rw [Registered, holds.current]
  exact holds

theorem registered_connected (database : DB) (withAltTypes : Bool) :
    (connected database withAltTypes).Registered where
  isOpen _ := iff_of_false Bool.false_ne_true (Option.some_ne_none _ ∘ Eq.symm)
  current := rfl
  known _ _ := rfl

/-- Every call keeps the invariant, and no assertion fails. -/
theorem wp_answer (registered : s.Registered) (call : Invocation χ) :
    wp (call.answer prepare enc2utf8 cv) (fun _ => Registered) (Fails Registered) s := by
  have failed : ∀ result e s', Fails (Holds result result) e s' →
      Fails (@Registered DB) e s' := fun _ _ _ fails => ⟨fails.1.registered, fails.2⟩
  cases call with
  | sendQuery statement params =>
      rw [Invocation.answer, wp_discard]
      apply wp_mono _ _ (wp_dbSendQuery prepare enc2utf8 registered statement params)
      · exact fun _ _ holds => holds.registered
      · exact failed none
  | bind r params =>
      apply wp_mono _ _ (wp_dbBindResult enc2utf8 registered r params)
      · exact fun _ _ holds => holds.registered
      · exact failed _
  | fetch r n rounds =>
      rw [Invocation.answer, wp_discard, dbFetch]
      cases fetchCount n with
      | error message => exact ⟨registered, _, rfl⟩
      | ok n =>
          apply wp_mono _ _ (wp_onResult registered r _)
          · exact fun _ _ holds => holds.registered
          · exact failed _
  | clearResult r =>
      apply wp_returns (wp_dbClearResult registered r)
      intro _ s' cleared
      split at cleared <;> exact cleared.registered

theorem registered_step (registered : s.Registered) (call : Invocation χ) :
    (s.step prepare enc2utf8 cv call).Registered := by
  have answered := wp_answer prepare enc2utf8 cv registered call
  unfold wp at answered
  rw [step]
  cases run : (call.answer prepare enc2utf8 cv).run s with
  | ok a s' =>
      rw [run] at answered
      exact answered
  | error e s' =>
      rw [run] at answered
      exact answered.1

theorem dbClearResult_closed {r : Nat} (closed : ¬ s.IsOpen r) :
    (dbClearResult r).run s = .ok () { s with warnings := s.warnings ++ [expired] } := by
  change (if decide (s.IsOpen r) = false then warning expired else _ : OnConnection DB Unit).run s
    = _
  rw [if_pos (decide_eq_false closed)]
  rfl

end Rules

/-- At most one result is open. It is registered, and `NULL` is if there is none. -/
structure OneOpen (s : SQLiteConnection DB) : Prop where
  atMostOne : ∀ r r', s.IsOpen r → s.IsOpen r' → r = r'
  registered : ∀ r, s.IsOpen r → s.current = some r
  null : (∀ r, ¬ s.IsOpen r) → s.current = none

theorem Registered.oneOpen {s : SQLiteConnection DB} (registered : s.Registered) : s.OneOpen where
  atMostOne r r' isOpen isOpen' :=
    Option.some.inj (((registered.isOpen r).mp isOpen).symm.trans
      ((registered.isOpen r').mp isOpen'))
  registered r isOpen := (registered.isOpen r).mp isOpen
  null closed := by
    cases current : s.current with
    | none => rfl
    | some r => exact absurd ((registered.isOpen r).mpr current) (closed r)

/-- After every sequence of calls, at most one result is open and registered, the next call
does not fail the assertion of `dbSendQuery()`, and clearing a result that is not open, since
another one has superseded it, changes neither what is open nor what is registered. -/
theorem oneOpen_run {χ : Type} (prepare : DB → String → Except String (PreparedQuery DB))
    (enc2utf8 : χ → Bytes) (cv : Conversions) (database : DB) (withAltTypes : Bool)
    (calls : List (Invocation χ)) :
    let s := calls.foldl (step prepare enc2utf8 cv) (connected database withAltTypes)
    s.OneOpen ∧
      (∀ (call : Invocation χ) (expression : String) (s' : SQLiteConnection DB),
        (call.answer prepare enc2utf8 cv).run s ≠ .error (.stopifnot expression) s') ∧
      ∀ r, s.IsOpen r ∨ (dbClearResult r).run s =
        .ok () { s with warnings := s.warnings ++ [expired] } := by
  have registered := invariant_run (G := Registered)
    (fun s call registered => registered_step prepare enc2utf8 cv registered call)
    (connected database withAltTypes) calls (registered_connected database withAltTypes)
  refine ⟨registered.oneOpen, ?_, ?_⟩
  · intro call expression s' fails
    obtain ⟨_, f, same⟩ := wp_error _ _ _ _ (wp_answer prepare enc2utf8 cv registered call) fails
    cases same
  · intro r
    by_cases isOpen : (calls.foldl (step prepare enc2utf8 cv)
        (connected database withAltTypes)).IsOpen r
    · exact .inl isOpen
    · exact .inr (dbClearResult_closed isOpen)

end SQLiteConnection

end RSQLite
