import RSQLite.Connection.Operations
import RSQLite.Library.Runs

/-!
Which operations pass only handles that are alive. Two of them read the handle of a
connection without a check, and one of these goes on with a backup that was not started.
-/
namespace RSQLite

open Ledger Weakest Process Runs

variable {quiet : Prop} {s : Process}

def Pointer.isConn : Pointer → Bool
  | .conn _ => true
  | .stmt _ _ | .backup _ _ => false

/-- An operation raises an error or a warning, or the handles that it passes are alive: those
of connections, or `all` handles. -/
def PassesAlive (all : Bool) : EStateM.Result Departure Process Unit → Prop
  | .ok _ s => s.warnings ≠ [] ∨ ∀ e ∈ s.passed, (all || e.1.isConn) = true → e.2 = true
  | .error (.rError _) _ => True
  | .error (.undefined p) _ => (all || p.isConn) = false

/-- The connection of `in_transaction()` is valid, and so is the source of a copy whose target
is. For the handle of the backup, the backup has to start as well. -/
def Guarded (all : Bool) (s : Process) : Operation → Prop
  | .connectionInTransaction c => ∀ x, s.Reaches c x → x.isValid = true
  | .connectionCopyDatabase source target codes => ∀ x y, s.Reaches source x →
      s.Reaches target y → y.isValid = true →
      x.isValid = true ∧ (all = true → source ≠ target ∧ codes.starts = true)
  | _ => True

/-- An operation fails to be defined, at a pointer of this kind. -/
abbrev Undefined (quiet : Prop) (conn : Bool) {α : Type} (x : Exec α) (s : Process) : Prop :=
  wp x (fun _ _ => False)
    (fun e s' => s'.WellFormed quiet ∧ ∃ p, e = .undefined p ∧ p.isConn = conn) s

theorem getException_fine {c : Nat} {x : DbConnection} (good : s.Good quiet)
    (found : s.connections c = some x) : Fine quiet x.getException s := by
  rw [Fine, DbConnection.getException, wp_ite]
  split
  · next valid =>
      obtain ⟨db, pConn⟩ := Option.isSome_iff_exists.mp valid
      rw [pConn]
      exact passes_conn_fine good found pConn id
  · exact good

/-- The message of SQLite is read from a valid connection, and R raises an error. -/
theorem failure_fine {α : Type} {c : Nat} {x : DbConnection} (good : s.Good quiet)
    (found : s.connections c = some x) (message : String) {Q : α → Process → Prop} :
    wp (x.getException >>= fun _ => (raise message : Exec α)) Q (Raised quiet) s := by
  rw [wp_bind]
  apply wp_returns (getException_fine good found)
  exact fun _ _ good' => good'.raised message

theorem inTransaction_fine {c : Nat} {x : DbConnection} (good : s.Good quiet)
    (found : s.connections c = some x) (valid : x.isValid = true) :
    Fine quiet x.inTransaction s := by
  obtain ⟨db, pConn⟩ := Option.isSome_iff_exists.mp valid
  rw [Fine, DbConnection.inTransaction, pConn]
  exact passes_conn_fine good found pConn id

theorem inTransaction_undefined {x : DbConnection} (wellFormed : s.WellFormed quiet)
    (invalid : x.isValid = false) : Undefined quiet true x.inTransaction s := by
  have pConn : x.pConn = none := Option.not_isSome_iff_eq_none.mp (Bool.eq_false_iff.mp invalid)
  rw [Undefined, DbConnection.inTransaction, pConn]
  exact ⟨wellFormed.passing _, _, rfl, rfl⟩

section Copy

variable {source target dest src : Nat} {x y : DbConnection} {codes : BackupCodes}

theorem backupInit_undefined (good : s.Good quiet) (foundDest : s.connections target = some y)
    (pDest : y.pConn = some dest) (starts : Bool) :
    Undefined quiet true (sqlite3BackupInit dest none starts) s := by
  rw [Undefined, sqlite3BackupInit, wp_bind]
  apply passes_conn_fine good foundDest pDest
  intro good'
  rw [wp_bind]
  exact ⟨good'.wellFormed.passing _, _, rfl, rfl⟩

theorem backupInit_refused (good : s.Good quiet) (foundDest : s.connections target = some y)
    (pDest : y.pConn = some dest) (found : s.connections source = some x)
    (pConn : x.pConn = some src) {starts : Bool} (refused : ¬ (starts = true ∧ src ≠ dest))
    {E : Departure → Process → Prop} :
    wp (sqlite3BackupInit dest (some src) starts)
      (fun backup s' => backup = .backup (some src) none ∧ s'.WellFormed quiet) E s := by
  rw [sqlite3BackupInit, wp_bind]
  apply passes_conn_fine good foundDest pDest
  intro good'
  rw [wp_bind]
  apply passes_conn_fine good' found pConn
  intro good''
  rw [wp_ite, if_neg]
  · exact ⟨rfl, good''.wellFormed⟩
  · exact fun started => refused ⟨started.1, fun same => started.2 (congrArg some same)⟩

theorem backupInit_started (good : s.Good quiet) (foundDest : s.connections target = some y)
    (pDest : y.pConn = some dest) (found : s.connections source = some x)
    (pConn : x.pConn = some src) {starts : Bool} (started : starts = true ∧ src ≠ dest) :
    wp (sqlite3BackupInit dest (some src) starts)
      (fun backup s' => s'.Good quiet ∧ s'.connections = s.connections ∧
        s'.alive backup = true ∧ ∃ n, backup = .backup (some src) (some n))
      (Raised quiet) s := by
  rw [sqlite3BackupInit, wp_bind]
  apply passes_conn_fine good foundDest pDest
  intro good'
  rw [wp_bind]
  apply passes_conn_fine good' found pConn
  intro good''
  obtain ⟨rfl, d, handle, -⟩ := good.wellFormed.isOpen found pConn
  rw [wp_ite, if_pos ⟨started.1, fun same => started.2 (Option.some.inj same)⟩, wp_bind, wp_get]
  simp only [passing_sqlite, Option.bind_some, handle, Option.map_some, Option.elim_some]
  refine ⟨⟨good''.wellFormed.backupInit src, good''.allAlive⟩, rfl, ?_, d.next, rfl⟩
  rw [Process.alive, withDb_self, passing_sqlite, passing_sqlite, handle]
  exact decide_eq_true List.mem_cons_self

/-- A backup that has started. -/
theorem copyTo_fine (good : s.Good quiet) (foundDest : s.connections target = some y)
    (found : s.connections source = some x) (pConn : x.pConn = some src)
    (started : codes.starts = true ∧ ∀ dest, y.pConn = some dest → src ≠ dest) :
    Fine quiet (x.copyTo y codes) s := by
  rw [Fine, DbConnection.copyTo, wp_bind]
  apply wp_conn _ good.raised
  intro dest pDest
  rw [wp_bind, pConn]
  apply wp_returns (backupInit_started good foundDest pDest found pConn
    ⟨started.1, started.2 dest pDest⟩)
  rintro backup s' ⟨good', connections, alive, n, rfl⟩
  have found' : s'.connections source = some x := by
    rw [connections]
    exact found
  rw [wp_bind]
  refine wp_passes_alive alive ?_
  have stepped := good'.passing _ alive
  rw [wp_ite]
  split
  · exact failure_fine stepped found' _
  · rw [wp_bind, sqlite3BackupFinish, wp_bind]
    refine wp_passes_alive alive ?_
    have finished := stepped.passing (.backup (some src) (some n)) alive
    have after : (((s'.passing (.backup (some src) (some n))).passing
        (.backup (some src) (some n))).withDb src (Sqlite3.backupFinish n)).Good quiet := by
      refine ⟨finished.wellFormed.backupFinish src n ?_, finished.allAlive⟩
      intro d handle
      obtain ⟨rfl, e, handle', isOpen⟩ := finished.wellFormed.isOpen found' pConn
      cases handle.symm.trans handle'
      exact isOpen
    rw [wp_onDb, wp_ite]
    split
    · exact failure_fine after found' _
    · exact after

theorem copyTo_refused (good : s.Good quiet) (invalid : y.isValid = false) :
    Fine quiet (x.copyTo y codes) s := by
  rw [Fine, DbConnection.copyTo, wp_bind]
  apply wp_conn _ good.raised
  intro dest pDest
  rw [DbConnection.isValid, pDest] at invalid
  cases invalid

theorem copyTo_undefined_source (good : s.Good quiet) (foundDest : s.connections target = some y)
    (valid : y.isValid = true) (invalid : x.isValid = false) :
    Undefined quiet true (x.copyTo y codes) s := by
  obtain ⟨dest, pDest⟩ := Option.isSome_iff_exists.mp valid
  have pConn : x.pConn = none := Option.not_isSome_iff_eq_none.mp (Bool.eq_false_iff.mp invalid)
  rw [Undefined, DbConnection.copyTo, wp_bind, DbConnection.conn, pDest, pConn]
  change wp (sqlite3BackupInit dest none codes.starts >>= _) _ _ s
  rw [wp_bind]
  apply wp_returns (backupInit_undefined good foundDest pDest codes.starts)
  exact fun _ _ never => never.elim

theorem copyTo_undefined_backup (good : s.Good quiet) (foundDest : s.connections target = some y)
    (pDest : y.pConn = some dest) (found : s.connections source = some x)
    (pConn : x.pConn = some src) (refused : ¬ (codes.starts = true ∧ src ≠ dest)) :
    Undefined quiet false (x.copyTo y codes) s := by
  rw [Undefined, DbConnection.copyTo, wp_bind, DbConnection.conn, pDest, pConn]
  change wp (sqlite3BackupInit dest (some src) codes.starts >>= _) _ _ s
  rw [wp_bind]
  apply wp_returns (backupInit_refused good foundDest pDest found pConn refused)
  rintro backup s' ⟨rfl, wellFormed⟩
  rw [wp_bind]
  exact ⟨wellFormed.passing _, _, rfl, rfl⟩

end Copy

theorem wp_reaches {c : Nat} {x : DbConnection} (reaches : s.Reaches c x)
    {Q : DbConnection → Process → Prop} {E : Departure → Process → Prop} :
    wp (connectionObject c) Q E s ↔ Q x s := by
  rw [connectionObject, wp_bind, wp_get, reaches.1]
  simp only [reaches.2, ite_true, wp_pure]

theorem reaches_unique {c : Nat} {x y : DbConnection} (hx : s.Reaches c x)
    (hy : s.Reaches c y) : x = y := Option.some.inj (hx.1.symm.trans hy.1)

theorem connectionInTransaction_fine (good : s.Good quiet) (c : Nat)
    (guarded : ∀ x, s.Reaches c x → x.isValid = true) :
    Fine quiet (connectionInTransaction c) s := by
  rw [Fine, connectionInTransaction, wp_bind]
  apply wp_connectionObject _ good.raised
  intro x found referenced
  exact inTransaction_fine good found (guarded x ⟨found, referenced⟩)

theorem connectionCopyDatabase_fine (good : s.Good quiet) (source target : Nat)
    (codes : BackupCodes) (guarded : Guarded true s (.connectionCopyDatabase source target codes)) :
    Fine quiet (connectionCopyDatabase source target codes) s := by
  rw [Fine, connectionCopyDatabase, wp_bind]
  apply wp_connectionObject _ good.raised
  intro x found referenced
  rw [wp_bind]
  apply wp_connectionObject _ good.raised
  intro y foundDest referencedDest
  cases valid : y.isValid with
  | false => exact copyTo_refused good valid
  | true =>
      obtain ⟨connected, starts⟩ :=
        guarded x y ⟨found, referenced⟩ ⟨foundDest, referencedDest⟩ valid
      obtain ⟨src, pConn⟩ := Option.isSome_iff_exists.mp connected
      obtain ⟨rfl, -⟩ := good.wellFormed.isOpen found pConn
      refine copyTo_fine good foundDest found pConn ⟨(starts rfl).2, ?_⟩
      intro dest pDest same
      exact (starts rfl).1 (same.trans (good.wellFormed.isOpen foundDest pDest).1)

/-- Every operation is fine, unless it is one of the two that read the handle unchecked. -/
theorem carryOut_fine (good : s.Good quiet) (op : Operation) (guarded : Guarded true s op)
    (silent : quiet → s.Silenced op) : Fine quiet (carryOut op) s := by
  cases op with
  | connectionConnect allowExt code => exact connectionConnect_fine good allowExt code
  | connectionValid c =>
      rw [Fine, carryOut, wp_discard, connectionValid, wp_bind]
      exact wp_connectionObject (fun _ _ _ => good) good.raised
  | connectionRelease c => exact connectionRelease_fine good c silent
  | connectionInTransaction c => exact connectionInTransaction_fine good c guarded
  | connectionCopyDatabase source target codes =>
      exact connectionCopyDatabase_fine good source target codes guarded
  | connectionImportFile c leaks fails => exact connectionImportFile_fine good c leaks fails
  | setBusyHandler c callback => exact setBusyHandler_fine good c callback
  | extensionLoad c ok => exact extensionLoad_fine good c ok
  | resultCreate c timeout compiled tail => exact resultCreate_fine good c timeout compiled tail
  | resultRelease r => exact resultRelease_fine good r
  | resultValid r => exact good
  | resultFetch r timeout code => exact resultFetch_fine good r timeout code
  | resultBind r timeout code => exact resultBind_fine good r timeout code
  | resultHasCompleted r | resultRowsFetched r =>
      rw [Fine, carryOut, wp_discard]
      exact wp_resultObject (fun _ _ => good) good.raised
  | resultRowsAffected r ready => exact resultRowsAffected_fine good r ready
  | resultColumnInfo r ok => exact resultColumnInfo_fine good r ok
  | resultGetPlaceholderNames r => exact resultGetPlaceholderNames_fine good r
  | collectConnection c => exact collectConnection_fine good c

/-- Otherwise a handle is passed that is not alive: that of a connection, if this is why. -/
theorem carryOut_undefined (good : s.Good quiet) (op : Operation)
    (unguarded : ¬ Guarded true s op) :
    ∃ conn, Undefined quiet conn (carryOut op) s ∧ (conn = true ↔ ¬ Guarded false s op) := by
  cases op with
  | connectionInTransaction c =>
      simp only [Guarded, not_forall] at unguarded
      obtain ⟨x, reaches, invalid⟩ := unguarded
      refine ⟨true, ?_, iff_of_true rfl (fun guarded => invalid (guarded x reaches))⟩
      change wp (connectionInTransaction c) _ _ s
      rw [connectionInTransaction, wp_bind, wp_reaches reaches]
      exact inTransaction_undefined good.wellFormed (Bool.eq_false_iff.mpr invalid)
  | connectionCopyDatabase source target codes =>
      simp only [Guarded, not_forall] at unguarded
      obtain ⟨x, y, hx, hy, valid, fails⟩ := unguarded
      have starts : ∀ Q E, wp (carryOut (.connectionCopyDatabase source target codes)) Q E s ↔
          wp (x.copyTo y codes) Q E s := by
        intro Q E
        change wp (connectionCopyDatabase source target codes) Q E s ↔ _
        rw [connectionCopyDatabase, wp_bind, wp_reaches hx, wp_bind, wp_reaches hy]
      cases connected : x.isValid with
      | false =>
          refine ⟨true, ?_, iff_of_true rfl ?_⟩
          · rw [Undefined, starts]
            exact copyTo_undefined_source good hy.1 valid connected
          · intro guarded
            rw [(guarded x y hx hy valid).1] at connected
            cases connected
      | true =>
          refine ⟨false, ?_, iff_of_false Bool.false_ne_true (not_not_intro ?_)⟩
          · obtain ⟨dest, pDest⟩ := Option.isSome_iff_exists.mp valid
            obtain ⟨src, pConn⟩ := Option.isSome_iff_exists.mp connected
            rw [Undefined, starts]
            apply copyTo_undefined_backup good hy.1 pDest hx.1 pConn
            intro started
            refine fails ⟨connected, fun _ => ⟨?_, started.1⟩⟩
            rw [← (good.wellFormed.isOpen hx.1 pConn).1, ← (good.wellFormed.isOpen hy.1 pDest).1]
            exact started.2
          · intro x' y' hx' _ _
            rw [reaches_unique hx' hx]
            exact ⟨connected, fun never => absurd never Bool.false_ne_true⟩
  | _ => exact absurd trivial unguarded

theorem initial_wellFormed : Process.initial.WellFormed quiet where
  linked c := Linked.start (fun _ _ none_ => by cases none_) (fun _ none_ => by cases none_)
    (fun _ none_ => by cases none_)
  fresh _ _ := ⟨rfl, rfl⟩
  freshResult _ _ := rfl
  retired _ _ none_ := by cases none_

theorem Process.WellFormed.begun (wellFormed : s.WellFormed quiet) : s.begun.Good quiet where
  wellFormed := wellFormed.recorded _ _
  allAlive := fun _ none_ => by cases none_

theorem guarded_begun (all : Bool) (s : Process) (op : Operation) :
    Guarded all s.begun op ↔ Guarded all s op := by
  cases op <;> rfl

theorem silenced_begun (s : Process) (op : Operation) : s.begun.Silenced op ↔ s.Silenced op := by
  cases op <;> rfl

theorem guarded_mono {all : Bool} {op : Operation} (guarded : Guarded true s op) :
    Guarded all s op := by
  cases op with
  | connectionInTransaction c => exact guarded
  | connectionCopyDatabase source target codes =>
      intro x y hx hy valid
      exact ⟨(guarded x y hx hy valid).1, fun _ => (guarded x y hx hy valid).2 rfl⟩
  | _ => trivial

theorem step_ends {P : Process → Prop} {op : Operation}
    (ends : wp (carryOut op) (fun _ => P) (fun _ => P) s.begun) : P (s.step op) := by
  unfold wp at ends
  rw [Process.step, Process.result]
  cases run : (carryOut op).run s.begun with
  | ok _ s' | error _ s' =>
      rw [run] at ends
      exact ends

theorem step_wellFormed (wellFormed : s.WellFormed quiet) (op : Operation)
    (silent : quiet → s.Silenced op) :
    (s.step op).WellFormed quiet := by
  apply step_ends
  by_cases guarded : Guarded true s.begun op
  · exact wp_mono _ _ (carryOut_fine wellFormed.begun op guarded
      (fun asked => (silenced_begun s op).mpr (silent asked)))
      (fun _ _ good => good.wellFormed) (fun _ _ raised => raised.1)
  · obtain ⟨conn, undefined, _⟩ := carryOut_undefined wellFormed.begun op guarded
    exact wp_mono _ _ undefined (fun _ _ never => never.elim) (fun _ _ left => left.1)

theorem passesAlive_iff (wellFormed : s.WellFormed quiet) (all : Bool) (op : Operation)
    (silent : quiet → s.Silenced op) :
    PassesAlive all (s.result op) ↔ Guarded all s op := by
  rw [← guarded_begun all s op, Process.result]
  by_cases guarded : Guarded true s.begun op
  · refine iff_of_true ?_ (guarded_mono guarded)
    have fine := carryOut_fine wellFormed.begun op guarded
      (fun asked => (silenced_begun s op).mpr (silent asked))
    unfold Fine wp at fine
    cases run : (carryOut op).run s.begun with
    | ok _ s' =>
        rw [run] at fine
        exact .inr (fun e member _ => fine.allAlive e member)
    | error e s' =>
        rw [run] at fine
        obtain ⟨_, message, rfl⟩ := fine
        trivial
  · obtain ⟨conn, undefined, why⟩ := carryOut_undefined wellFormed.begun op guarded
    unfold Undefined wp at undefined
    cases run : (carryOut op).run s.begun with
    | ok _ s' =>
        rw [run] at undefined
        exact undefined.elim
    | error e s' =>
        rw [run] at undefined
        obtain ⟨_, p, rfl, rfl⟩ := undefined
        cases all with
        | true => exact iff_of_false (fun never => by cases never) guarded
        | false =>
            rw [PassesAlive, Bool.false_or, ← Bool.not_eq_true, why]
            exact Classical.not_not

/-- In every course of events, all operations raise an error or a warning or pass only handles
that are alive, exactly if each of them is guarded. -/
theorem handlesAlive_iff (all : Bool) (ops : List Operation) :
    Always Process.step (fun s op => PassesAlive all (s.result op)) Process.initial ops ↔
      Always Process.step (Guarded all) Process.initial ops := by
  refine always_iff (G := Process.WellFormed False) ?_ ?_ _ ops initial_wellFormed
  · exact fun s op wellFormed => passesAlive_iff wellFormed all op False.elim
  · exact fun s op wellFormed _ => step_wellFormed wellFormed op False.elim

/-- The transaction status of a connection that has been disconnected. -/
theorem handlesAlive_disconnected :
    ¬ Always Process.step (fun s op => PassesAlive false (s.result op)) Process.initial
      [.connectionConnect false .ok, .connectionRelease 0, .connectionInTransaction 0] := by
  intro always
  cases always.2.2.1

end RSQLite
