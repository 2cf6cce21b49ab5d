import RSQLite.Connection.Lifetime

/-!
Each operation keeps a process well formed, and passes only handles that are alive, unless
it reads the handle of a connection without a check.
-/
namespace RSQLite

open Ledger Weakest Process

variable {quiet : Prop} {s : Process}

/-- The operation leaves a good process, or R raises an error. -/
abbrev Fine (quiet : Prop) {α : Type} (x : Exec α) (s : Process) : Prop :=
  wp x (fun _ s' => s'.Good quiet) (Raised quiet) s

theorem wp_passes_alive {p : Pointer} {Q : PUnit → Process → Prop}
    {E : Departure → Process → Prop} (alive : s.alive p = true) (then_ : Q ⟨⟩ (s.passing p)) :
    wp (passes p) Q E s := by
  rw [wp_passes, if_pos alive]
  exact then_

theorem wp_connectionObject {c : Nat} {Q : DbConnection → Process → Prop}
    {E : Departure → Process → Prop}
    (returns : ∀ x, s.connections c = some x → x.referenced = true → Q x s)
    (raises : ∀ message, E (.rError message) s) : wp (connectionObject c) Q E s := by
  rw [connectionObject, wp_bind, wp_get]
  cases found : s.connections c with
  | none => exact raises _
  | some x =>
      simp only [wp_ite, wp_pure]
      split
      · next referenced => exact returns x found referenced
      · exact raises _

theorem wp_resultObject {r : Nat} {Q : OpenResult → Process → Prop}
    {E : Departure → Process → Prop} (returns : ∀ res, s.results r = some res → Q res s)
    (raises : ∀ message, E (.rError message) s) : wp (resultObject r) Q E s := by
  rw [resultObject, wp_bind, wp_get]
  cases found : s.results r with
  | none => exact raises _
  | some res => exact returns res found

theorem wp_conn {x : DbConnection} {Q : Nat → Process → Prop} {E : Departure → Process → Prop}
    (returns : ∀ db, x.pConn = some db → Q db s) (raises : ∀ message, E (.rError message) s) :
    wp x.conn Q E s := by
  rw [DbConnection.conn]
  cases valid : x.pConn with
  | none => exact raises _
  | some db => exact returns db valid

theorem wp_checkConnection {x : DbConnection} {Q : PUnit → Process → Prop}
    {E : Departure → Process → Prop} (returns : ∀ db, x.pConn = some db → Q ⟨⟩ s)
    (raises : ∀ message, E (.rError message) s) : wp x.checkConnection Q E s := by
  rw [DbConnection.checkConnection, wp_ite, DbConnection.isValid]
  cases valid : x.pConn with
  | none => exact raises _
  | some db => exact returns db valid

theorem Process.WellFormed.modifyDb (wellFormed : s.WellFormed quiet) (c : Nat)
    (f : Sqlite3 → Option Sqlite3)
    (same : ∀ d, s.sqlite c = some d → ∃ d', f d = some d' ∧ d'.isOpen = d.isOpen ∧
      (∀ k ∈ d.statements, k ∈ d'.statements) ∧ (∀ k ∈ d'.statements, k < d'.next) ∧
      ∀ o, d'.busyHandler = .busyCallbackHelper (some o) →
        d.busyHandler = .busyCallbackHelper (some o)) :
    (s.withDb c f).WellFormed quiet := by
  apply wellFormed.withDb
  have linked := wellFormed.linked c
  rw [LinkedAt] at linked
  cases handle : s.sqlite c with
  | none =>
      rw [handle] at linked
      exact linked
  | some d =>
      obtain ⟨d', changed, isOpen, statements, numbered, handler⟩ := same d handle
      rw [handle] at linked
      rw [Option.bind_some, changed]
      exact linked.modify isOpen (fun r res _ _ => statements res.stmt) numbered handler

section Changes

variable (wellFormed : s.WellFormed quiet) (c : Nat)
include wellFormed

theorem Process.WellFormed.busyTimeout (ms : Int) :
    (s.withDb c (Sqlite3.busyTimeout ms)).WellFormed quiet := by
  apply wellFormed.modifyDb
  intro d handle
  refine ⟨_, rfl, rfl, fun _ => id, (wellFormed.linked c).numbered d handle, ?_⟩
  intro o
  dsimp only
  split <;> exact fun none_ => by cases none_

theorem Process.WellFormed.prepare : (s.withDb c Sqlite3.prepare).WellFormed quiet := by
  apply wellFormed.modifyDb
  intro d handle
  refine ⟨_, rfl, rfl, fun _ => List.mem_cons_of_mem _, ?_, fun _ => id⟩
  intro k member
  obtain new | old := List.mem_cons.mp member
  · rw [new]
    exact Nat.lt_succ_self _
  · exact Nat.lt_succ_of_lt ((wellFormed.linked c).numbered d handle k old)

theorem Process.WellFormed.backupInit : (s.withDb c Sqlite3.backupInit).WellFormed quiet := by
  apply wellFormed.modifyDb
  intro d handle
  refine ⟨_, rfl, rfl, fun _ => id, ?_, fun _ => id⟩
  exact fun k member => Nat.lt_succ_of_lt ((wellFormed.linked c).numbered d handle k member)

theorem Process.WellFormed.backupFinish (backup : Nat)
    (isOpen : ∀ d, s.sqlite c = some d → d.isOpen = true) :
    (s.withDb c (Sqlite3.backupFinish backup)).WellFormed quiet := by
  apply wellFormed.modifyDb
  intro d handle
  exact ⟨_, Sqlite3.closeZombie_of_open (isOpen d handle), rfl, fun _ => id,
    (wellFormed.linked c).numbered d handle, fun _ => id⟩

end Changes

/-- Disconnecting a valid connection, whose object need not be referenced any more. -/
theorem disconnect_fine {c : Nat} {x : DbConnection} (sound : s.Sound quiet)
    (allAlive : s.AllAlive) (found : s.connections c = some x) (valid : x.isValid = true)
    (retired : ∀ other, other ≠ c → Retired other (s.connections other) s.results)
    (silent : quiet → SilentAt c (s.sqlite c) s.results) :
    wp (x.disconnect c)
      (fun _ s' => s'.Good quiet ∧ s'.connections c = some x.disconnected) (Raised quiet) s := by
  obtain ⟨db, pConn⟩ := Option.isSome_iff_exists.mp valid
  have alive := sound.alive_conn found pConn
  obtain ⟨rfl, d, handle, _⟩ := sound.isOpen found pConn
  have linked := sound.linked db
  rw [LinkedAt, handle, found] at linked
  rw [handle] at silent
  rw [DbConnection.disconnect, wp_bind, wp_passes, pConn, if_pos alive, Option.elim_some, wp_bind,
    wp_onDb, wp_onConnection]
  have after : (((s.passing (.conn (some db))).withDb db Sqlite3.closeV2).withConnection db
      DbConnection.disconnected).connections db = some x.disconnected := by
    rw [withConnection_self, withDb_connections, passing_connections, found]
    rfl
  refine ⟨⟨⟨?_, ?_⟩, ?_⟩, after⟩
  · apply (sound.passing _).withBoth
    rw [passing_sqlite, handle, passing_connections, found]
    exact linked.disconnected silent
  · intro other
    by_cases same : other = db
    · subst same
      intro y current _ _
      rw [after] at current
      cases current
      exact DbConnection.callbackReleased_pConn
    · rw [withConnection_ne _ _ _ same]
      exact retired other same
  · exact allAlive.passing _ alive

theorem Process.Good.withWarnings (good : s.Good quiet) (warnings : List String) :
    Process.Good quiet { s with warnings := warnings } where
  wellFormed := good.wellFormed.recorded _ warnings
  allAlive := good.allAlive

theorem connectionRelease_fine (good : s.Good quiet) (c : Nat)
    (silent : quiet → s.Silenced (.connectionRelease c)) :
    Fine quiet (connectionRelease c) s := by
  rw [Fine, connectionRelease, wp_bind]
  apply wp_connectionObject _ good.raised
  intro x found referenced
  rw [wp_ite]
  split
  · exact good.withWarnings _
  · next valid =>
      have valid := (Bool.not_eq_false _).mp valid
      have disconnects : ∀ warnings, Fine quiet (x.disconnect c) { s with warnings := warnings } :=
        fun warnings => wp_returns
          (disconnect_fine (good.wellFormed.recorded _ warnings).toSound good.allAlive found valid
            (fun other _ => good.wellFormed.retired other)
            (fun asked => silent asked x ⟨found, referenced⟩ valid))
          (fun _ _ after => after.1)
      simp only [wp_bind, wp_get, wp_ite]
      split
      · exact disconnects _
      · exact disconnects s.warnings

/-- The destructor, once there is no result left that could call back. -/
theorem destroy_fine {c : Nat} {x : DbConnection} (sound : s.Sound quiet)
    (allAlive : s.AllAlive) (found : s.connections c = some x)
    (retired : ∀ other, other ≠ c → Retired other (s.connections other) s.results)
    (closed : ∀ r res, s.results r = some res → res.connection ≠ c) :
    Fine quiet (x.destroy c) s := by
  have released : ∀ (s' : Process) (y : DbConnection), s'.Good quiet →
      s'.connections c = some y → y.busyCallback = none →
      (s'.withConnection c DbConnection.callbackReleased).Good quiet := by
    intro s' y good current none_
    rw [withConnection_eq_self]
    · exact good
    · rw [current, Option.map_some, DbConnection.callbackReleased_of_none none_]
  simp only [Fine, DbConnection.destroy, wp_ite, wp_bind, wp_onConnection]
  split
  · next valid =>
      apply wp_returns (disconnect_fine sound allAlive found valid retired fun _ => .inl closed)
      intro _ s' after
      exact released s' _ after.1 after.2 DbConnection.callbackReleased_busyCallback
  · next invalid =>
      have pConn : x.pConn = none := Option.not_isSome_iff_eq_none.mp invalid
      refine released s x ⟨⟨sound, ?_⟩, allAlive⟩ found ((sound.linked c).callback x found pConn)
      intro other
      by_cases same : other = c
      · subst same
        intro y current _ _
        rw [found] at current
        cases current
        exact pConn
      · exact retired other same

theorem dropReference_fine (c : Nat) (sound : s.Sound quiet) (allAlive : s.AllAlive)
    (retired : ∀ other, other ≠ c → Retired other (s.connections other) s.results) :
    Fine quiet (dropReference c) s := by
  have good : Retired c (s.connections c) s.results → s.Good quiet := by
    intro own
    refine ⟨⟨sound, fun other => ?_⟩, allAlive⟩
    by_cases same : other = c
    · exact same ▸ own
    · exact retired other same
  rw [Fine, dropReference, wp_bind, wp_get]
  cases found : s.connections c with
  | none => exact good (fun y current => by rw [found] at current; cases current)
  | some x =>
      simp only [wp_ite, wp_pure]
      split
      · next unused =>
          exact destroy_fine sound allAlive found retired
            ((useCount_eq_zero sound c x found).mp unused).2
      · next used =>
          apply good
          intro y current unreferenced closed
          rw [found] at current
          cases current
          exact absurd ((useCount_eq_zero sound c x found).mpr ⟨unreferenced, closed⟩) used

theorem Process.Sound.no_results (sound : s.Sound quiet) {c : Nat}
    (none_ : s.connections c = none) : ∀ r res, s.results r = some res → res.connection ≠ c := by
  intro r res found own
  have object := ((sound.linked c).inUse r res found own).2.1
  rw [none_] at object
  cases object

/-- A handle that has just been opened, if there is one, and the object that may hold it. -/
theorem Linked.start {c : Nat} {db : Option Sqlite3} {x : Option DbConnection}
    {results : Nat → Option OpenResult}
    (noResults : ∀ r res, results r = some res → res.connection ≠ c)
    (opened : ∀ d, db = some d → d = .opened)
    (connected : ∀ y, x = some y → y = .connected (some c) ∧ db = some .opened) :
    Linked quiet c db x results := by
  refine ⟨?_, ?_, ?_, ?_, ?_, ?_, ?_, ?_, ?_⟩
  · intro y same h valid
    rw [(connected y same).1] at valid
    exact (Option.some.inj valid).symm
  · intro y same
    rw [(connected y same).1, (connected y same).2]
    exact iff_of_true rfl ⟨_, rfl, rfl⟩
  · intro d found k member
    rw [opened d found] at member
    cases member
  · exact fun r res found own => absurd own (noResults r res found)
  · exact fun r _ res _ found _ own => absurd own (noResults r res found)
  · intro y same _
    rw [(connected y same).1]
    rfl
  · intro y same
    rw [(connected y same).1]
    exact ⟨fun _ impossible => (by cases impossible), fun _ _ => Phase.done_fresh,
      fun _ impossible => (by cases impossible)⟩
  · intro d o found helper
    rw [opened d found] at helper
    cases helper
  · exact fun _ _ _ _ _ _ => noResults

theorem Process.Good.openedHandle (good : s.Good quiet) (db : Option Sqlite3)
    (opened : ∀ d, db = some d → d = .opened) : (s.openedHandle db).Good quiet := by
  obtain ⟨⟨sound, retired⟩, allAlive⟩ := good
  have none_ := (sound.fresh s.nextConnection (Nat.le_refl _)).1
  have own : (s.openedHandle db).sqlite s.nextConnection = db := Function.update_self _ _ _
  have others : ∀ c, c ≠ s.nextConnection → (s.openedHandle db).sqlite c = s.sqlite c :=
    fun c ne => Function.update_of_ne ne _ _
  refine ⟨⟨⟨?_, ?_, sound.freshResult⟩, retired⟩, allAlive⟩
  · intro c
    by_cases same : c = s.nextConnection
    · subst same
      rw [LinkedAt, own]
      apply Linked.start (sound.no_results none_) opened
      intro y found
      rw [show (s.openedHandle db).connections s.nextConnection = none from none_] at found
      cases found
    · rw [LinkedAt, others c same]
      exact sound.linked c
  · intro c beyond
    rw [others c (Nat.ne_of_gt beyond)]
    exact sound.fresh c (Nat.le_of_succ_le beyond)

theorem Process.Good.constructed (good : s.Good quiet) (c : Nat)
    (none_ : s.connections c = none) (handle : s.sqlite c = some .opened) :
    (s.withObject c (.connected (some c))).Good quiet := by
  obtain ⟨⟨sound, retired⟩, allAlive⟩ := good
  have own := s.withObject_self c (.connected (some c))
  refine ⟨⟨?_, ?_⟩, allAlive⟩
  · refine sound.update _ c (fun _ _ => rfl) (fun _ => s.withObject_ne c _) rfl rfl rfl ?_ ?_
    · intro absent
      rw [handle] at absent
      cases absent.2
    · rw [LinkedAt, own]
      change Linked quiet c (s.sqlite c) _ s.results
      rw [handle]
      apply Linked.start (sound.no_results none_)
      · exact fun d found => (Option.some.inj found).symm
      · exact fun y found => ⟨(Option.some.inj found).symm, rfl⟩
  · apply retired_update retired c (fun _ => s.withObject_ne c _) rfl
    intro y same unreferenced
    rw [own] at same
    cases same
    cases unreferenced

theorem connectionConnect_fine (good : s.Good quiet) (allowExt : Bool) (code : OpenCode) :
    Fine quiet (connectionConnect allowExt code) s := by
  have handle : (s.openedHandle (some .opened)).sqlite s.nextConnection = some .opened :=
    Function.update_self _ _ _
  have none_ := (good.wellFormed.fresh s.nextConnection (Nat.le_refl _)).1
  have opened := good.openedHandle (some .opened) (fun d same => (Option.some.inj same).symm)
  have alive : (s.openedHandle (some .opened)).alive (.conn (some s.nextConnection)) = true := by
    rw [Process.alive, handle]
    rfl
  rw [Fine, connectionConnect, wp_bind, wp_get, wp_bind, wp_modify]
  cases code with
  | noMemory =>
      exact (good.openedHandle none (fun d same => by cases same)).raised _
  | error =>
      rw [wp_bind]
      exact wp_passes_alive alive ((opened.passing _ alive).raised _)
  | ok =>
      have built : ∀ s' : Process, s'.Good quiet → s'.connections = s.connections →
          s'.sqlite = (s.openedHandle (some .opened)).sqlite →
          (s'.withObject s.nextConnection (.connected (some s.nextConnection))).Good quiet := by
        intro s' good' connections sqlite
        apply good'.constructed
        · rw [connections, none_]
        · rw [sqlite, handle]
      simp only [wp_bind, wp_ite, wp_modify]
      split
      · exact wp_passes_alive alive (built _ (opened.passing _ alive) rfl rfl)
      · exact built _ opened rfl rfl

theorem passes_conn_fine {c : Nat} {x : DbConnection} {db : Nat} (good : s.Good quiet)
    (found : s.connections c = some x) (valid : x.pConn = some db)
    {Q : PUnit → Process → Prop} {E : Departure → Process → Prop}
    (then_ : (s.passing (.conn (some db))).Good quiet → Q ⟨⟩ (s.passing (.conn (some db)))) :
    wp (passes (.conn (some db))) Q E s :=
  have alive := good.wellFormed.alive_conn found valid
  wp_passes_alive alive (then_ (good.passing _ alive))

theorem leaveUnfinalized_fine (good : s.Good quiet) (db n : Nat) :
    Fine quiet (leaveUnfinalized db n) s := by
  induction n generalizing s with
  | zero => exact good
  | succ n ih =>
      rw [Fine, leaveUnfinalized, wp_bind, wp_onDb]
      exact ih ⟨good.wellFormed.prepare db, good.allAlive⟩

theorem connectionImportFile_fine (good : s.Good quiet) (c leaks : Nat) (fails : Bool) :
    Fine quiet (connectionImportFile c leaks fails) s := by
  rw [Fine, connectionImportFile, wp_bind]
  apply wp_connectionObject _ good.raised
  intro x found _
  rw [wp_bind]
  apply wp_conn _ good.raised
  intro db valid
  rw [wp_bind]
  apply passes_conn_fine good found valid
  intro good
  rw [wp_bind]
  apply wp_returns (leaveUnfinalized_fine good db leaks)
  intro _ s' good'
  rw [wp_ite]
  split
  · exact good'.raised _
  · exact good'

theorem extensionLoad_fine (good : s.Good quiet) (c : Nat) (ok : Bool) :
    Fine quiet (extensionLoad c ok) s := by
  rw [Fine, extensionLoad, wp_bind]
  apply wp_connectionObject _ good.raised
  intro x found _
  rw [wp_bind]
  apply wp_conn _ good.raised
  intro db valid
  rw [wp_bind]
  apply passes_conn_fine good found valid
  intro good
  rw [wp_ite]
  split
  · exact good.raised _
  · exact good

theorem wp_pragmaBusyTimeout {db : Nat} {timeout : Option Int} {Q : PUnit → Process → Prop}
    {E : Departure → Process → Prop} (good : s.Good quiet)
    (then_ : ∀ s' : Process, s'.Good quiet → s'.results = s.results →
      s'.connections = s.connections → Q ⟨⟩ s') :
    wp (pragmaBusyTimeout db timeout) Q E s := by
  cases timeout with
  | none => exact then_ s good rfl rfl
  | some ms => exact then_ _ ⟨good.wellFormed.busyTimeout db ms, good.allAlive⟩ rfl rfl

theorem raiseSqliteException_fine {α : Type} {Q : α → Process → Prop} (good : s.Good quiet)
    {db : Nat} (alive : s.alive (.conn (some db)) = true) :
    wp (raiseSqliteException db : Exec α) Q (Raised quiet) s := by
  rw [raiseSqliteException, wp_bind]
  exact wp_passes_alive alive ((good.passing _ alive).raised _)

theorem runStatement_fine {r : Nat} {res : OpenResult} (good : s.Good quiet)
    (found : s.results r = some res) (timeout : Option Int) (code : MethodCode) :
    Fine quiet (runStatement res timeout code) s := by
  have alive := (good.wellFormed.inUse found).2.1
  rw [Fine, runStatement, wp_bind]
  apply wp_passes_alive alive
  rw [wp_bind]
  apply wp_pragmaBusyTimeout (good.passing _ alive)
  intro s' good' results _
  rw [wp_ite]
  split
  · apply raiseSqliteException_fine good'
    have found' : s'.results r = some res := by
      rw [results]
      exact found
    exact (good'.wellFormed.inUse found').2.2
  · exact good'

theorem resultFetch_fine (good : s.Good quiet) (r : Nat) (timeout : Option Int)
    (code : MethodCode) : Fine quiet (resultFetch r timeout code) s := by
  rw [Fine, resultFetch, wp_bind]
  apply wp_resultObject _ good.raised
  intro res found
  rw [wp_ite]
  split
  · exact good.raised _
  · exact runStatement_fine good found timeout code

theorem resultBind_fine (good : s.Good quiet) (r : Nat) (timeout : Option Int)
    (code : MethodCode) : Fine quiet (resultBind r timeout code) s := by
  rw [Fine, resultBind, wp_bind]
  apply wp_resultObject _ good.raised
  intro res found
  rw [wp_ite]
  split
  · exact good.raised _
  · have alive := (good.wellFormed.inUse found).2.2
    rw [wp_bind]
    exact wp_passes_alive alive (runStatement_fine (good.passing _ alive) found timeout code)

theorem resultColumnInfo_fine (good : s.Good quiet) (r : Nat) (ok : Bool) :
    Fine quiet (resultColumnInfo r ok) s := by
  rw [Fine, resultColumnInfo, wp_bind]
  apply wp_resultObject _ good.raised
  intro res found
  have alive := (good.wellFormed.inUse found).2.1
  rw [wp_bind]
  apply wp_passes_alive alive
  rw [wp_ite]
  split
  · exact (good.passing _ alive).raised _
  · exact good.passing _ alive

theorem resultRowsAffected_fine (good : s.Good quiet) (r : Nat) (ready : Bool) :
    Fine quiet (resultRowsAffected r ready) s := by
  rw [Fine, resultRowsAffected, wp_bind]
  apply wp_resultObject _ good.raised
  intro res found
  have alive := (good.wellFormed.inUse found).2.2
  rw [wp_ite]
  split
  · exact wp_passes_alive alive (good.passing _ alive)
  · exact good

theorem resultGetPlaceholderNames_fine (good : s.Good quiet) (r : Nat) :
    Fine quiet (resultGetPlaceholderNames r) s := by
  rw [Fine, resultGetPlaceholderNames, wp_bind]
  apply wp_resultObject _ good.raised
  intro res found
  have alive := (good.wellFormed.inUse found).2.1
  exact wp_passes_alive alive (good.passing _ alive)

/-- A result is closed: its statement is finalized, and only its own connection may be left
without a reference. -/
theorem Process.Sound.closeResult {r : Nat} {res : OpenResult} (sound : s.Sound quiet)
    (found : s.results r = some res) :
    ((s.withDb res.conn (Sqlite3.finalize res.stmt)).closedResult r).Sound quiet := by
  have conn := (sound.inUse found).1
  have others : ∀ r' res', Function.update s.results r none r' = some res' →
      s.results r' = some res' := by
    intro r' res' open_
    by_cases same : r' = r
    · rw [same, Function.update_self] at open_
      cases open_
    · rw [Function.update_of_ne same] at open_
      exact open_
  obtain ⟨_, _, d, handle, _⟩ := (sound.linked res.connection).inUse r res found rfl
  refine ⟨?_, ?_, ?_⟩
  · intro other
    rw [LinkedAt]
    change Linked quiet other ((s.withDb res.conn (Sqlite3.finalize res.stmt)).sqlite other)
      (s.connections other) (Function.update s.results r none)
    by_cases same : other = res.conn
    · subst same
      have linked := sound.linked res.conn
      rw [← conn] at handle
      rw [LinkedAt, handle] at linked
      rw [withDb_self, handle]
      exact linked.finalized found conn.symm
    · rw [withDb_ne _ _ _ same]
      exact (sound.linked other).congr (fun r' res' _ => others r' res')
  · intro c beyond
    have ne : c ≠ res.conn := by
      rintro rfl
      rw [← conn, (sound.fresh res.conn beyond).2] at handle
      cases handle
    refine ⟨(sound.fresh c beyond).1, ?_⟩
    exact (withDb_ne _ _ _ ne).trans (sound.fresh c beyond).2
  · intro r' beyond
    change Function.update s.results r none r' = none
    by_cases same : r' = r
    · rw [same, Function.update_self]
    · rw [Function.update_of_ne same]
      exact sound.freshResult r' beyond

theorem resultRelease_fine (good : s.Good quiet) (r : Nat) :
    Fine quiet (resultRelease r) s := by
  rw [Fine, resultRelease, wp_bind, wp_get]
  cases found : s.results r with
  | none => exact good
  | some res =>
      have alive := (good.wellFormed.inUse found).2.1
      have passed := good.passing _ alive
      rw [wp_bind]
      apply wp_passes_alive alive
      rw [wp_bind, wp_onDb, wp_bind, wp_modify]
      apply dropReference_fine
      · exact passed.wellFormed.closeResult found
      · exact passed.allAlive
      · intro other ne y current unreferenced closed
        apply good.wellFormed.retired other y current unreferenced
        intro r' res' open_
        by_cases same : r' = r
        · subst same
          rw [found] at open_
          cases open_
          exact ne.symm
        · apply closed r' res'
          exact (Function.update_of_ne same _ _).trans open_

theorem collectConnection_fine (good : s.Good quiet) (c : Nat) :
    Fine quiet (collectConnection c) s := by
  rw [Fine, collectConnection, wp_bind]
  apply wp_connectionObject _ good.raised
  intro x found _
  rw [wp_bind, wp_onConnection]
  obtain ⟨⟨sound, retired⟩, allAlive⟩ := good
  apply dropReference_fine
  · refine sound.update (s.withConnection c DbConnection.unreferenced) c (fun _ _ => rfl)
      (fun other ne => withConnection_ne _ _ _ ne) rfl rfl rfl ?_ ?_
    · intro absent
      rw [found] at absent
      cases absent.1
    · have linked := sound.linked c
      rw [LinkedAt, found] at linked
      rw [LinkedAt, withConnection_self, found]
      exact linked.unreferenced
  · exact allAlive
  · intro other ne
    rw [withConnection_ne _ _ _ ne]
    exact retired other

/-- Another callback is set on a valid connection. -/
theorem Process.Good.callbackSet {s' : Process} (good : s.Good quiet) {c : Nat}
    {x y : DbConnection} (found : s.connections c = some x) (valid : x.isValid = true)
    (referenced : y.referenced = true) (pConn : y.pConn = x.pConn) (balanced : y.Balanced)
    (changed : s'.connections = (s.withObject c y).connections)
    (h : BusyHandler) (handle : s'.sqlite =
      Function.update s.sqlite c ((s.sqlite c).bind (Sqlite3.setBusyHandler h)))
    (handler : ∀ o, h = .busyCallbackHelper (some o) →
      o.connection = c ∧ y.busyCallback = some o.number)
    (results : s'.results = s.results) (nextConnection : s'.nextConnection = s.nextConnection)
    (nextResult : s'.nextResult = s.nextResult) (allAlive : s'.AllAlive) : s'.Good quiet := by
  obtain ⟨⟨sound, retired⟩, _⟩ := good
  have others : ∀ other, other ≠ c → s'.connections other = s.connections other := by
    intro other ne
    rw [changed]
    exact s.withObject_ne c y ne
  have own : s'.connections c = some y := by rw [changed, withObject_self]
  have linked := sound.linked c
  rw [LinkedAt, found] at linked
  obtain ⟨d, open_, _⟩ := (linked.valid x rfl).mp valid
  rw [open_] at linked
  refine ⟨⟨sound.update s' c ?_ others results nextConnection nextResult ?_ ?_, ?_⟩, allAlive⟩
  · intro other ne
    rw [handle, Function.update_of_ne ne]
  · intro absent
    rw [found] at absent
    cases absent.1
  · rw [LinkedAt, own, handle, Function.update_self, open_, results]
    exact linked.callbackSet valid pConn balanced rfl handler
  · apply retired_update retired c others results
    intro z same unreferenced
    rw [own] at same
    cases same
    rw [referenced] at unreferenced
    cases unreferenced

theorem busyHandlerOf_helper (c : Nat) (busyCallback : Option Nat) (callback : Callback)
    (o : Protected) (helper : busyHandlerOf c busyCallback callback = .busyCallbackHelper (some o)) :
    o.connection = c ∧ busyCallback = some o.number := by
  cases callback with
  | integer ms =>
      rw [busyHandlerOf] at helper
      split at helper <;> cases helper
  | null | function =>
      cases busyCallback with
      | none => cases helper
      | some n =>
          cases helper
          exact ⟨rfl, rfl⟩

theorem registerCallback_fine (good : s.Good quiet) {c : Nat} {x y : DbConnection}
    (found : s.connections c = some x) (valid : x.isValid = true)
    (referenced : y.referenced = true) (pConn : y.pConn = x.pConn) (balanced : y.Balanced)
    (callback : Callback) :
    Fine quiet (registerCallback c x callback) (s.withObject c y) := by
  obtain ⟨db, current⟩ := Option.isSome_iff_exists.mp valid
  have alive := good.wellFormed.alive_conn found current
  obtain ⟨rfl, -⟩ := good.wellFormed.isOpen found current
  rw [Fine, registerCallback, wp_bind, current]
  refine wp_passes_alive (s := s.withObject db y) alive ?_
  rw [wp_bind, wp_get, passing_connections, withObject_self]
  change Process.Good quiet (((s.withObject db y).passing (.conn (some db))).withDb db
    (Sqlite3.setBusyHandler (busyHandlerOf db y.busyCallback callback)))
  refine good.callbackSet found valid referenced pConn balanced rfl _ rfl ?_ rfl rfl rfl ?_
  · exact busyHandlerOf_helper db y.busyCallback callback
  · exact (good.passing _ alive).allAlive

theorem setBusyHandler_fine (good : s.Good quiet) (c : Nat) (callback : Callback) :
    Fine quiet (setBusyHandler c callback) s := by
  rw [Fine, setBusyHandler, wp_bind]
  apply wp_connectionObject _ good.raised
  intro x found referenced
  rw [wp_bind]
  apply wp_checkConnection _ good.raised
  intro db pConn
  have valid : x.isValid = true := by
    rw [DbConnection.isValid, pConn]
    rfl
  have released := ((good.wellFormed.linked c).balanced x found).callbackReleased
  have referenced' := DbConnection.callbackReleased_referenced.trans referenced
  rw [wp_bind, wp_onConnection, withConnection_eq s c _ found, wp_bind]
  cases callback with
  | null =>
      exact registerCallback_fine good found valid referenced'
        DbConnection.callbackReleased_pConn released _
  | integer _ | function =>
      rw [preserveCallback, wp_onConnection, withConnection_eq _ c _ (s.withObject_self c _),
        withObject_withObject]
      refine registerCallback_fine (y := x.callbackReleased.callbackPreserved) good found valid
        referenced' ?_ ?_ _
      · exact DbConnection.callbackReleased_pConn
      · exact released.callbackPreserved DbConnection.callbackReleased_busyCallback

/-- A statement that no result has. -/
def Process.Unused (s : Process) (db stmt : Nat) : Prop :=
  (∃ d, s.sqlite db = some d ∧ stmt ∈ d.statements) ∧
    ∀ r res, s.results r = some res → res.connection = db → res.stmt ≠ stmt

theorem Process.Sound.unused_prepare (sound : s.Sound quiet) {db : Nat} {d : Sqlite3}
    (handle : s.sqlite db = some d) : (s.withDb db Sqlite3.prepare).Unused db d.next := by
  constructor
  · refine ⟨{ d with statements := d.next :: d.statements, next := d.next + 1 }, ?_, ?_⟩
    · rw [withDb_self, handle]
      rfl
    · exact List.mem_cons_self
  · intro r res found own same
    obtain ⟨_, _, e, handle', member⟩ := (sound.linked db).inUse r res found own
    rw [handle] at handle'
    cases handle'
    rw [same] at member
    exact Nat.lt_irrefl _ ((sound.linked db).numbered d handle d.next member)

theorem wp_warnTail {tail : Bool} {Q : PUnit → Process → Prop} {E : Departure → Process → Prop}
    (returns : ∀ warnings, Q ⟨⟩ { s with warnings := warnings }) : wp (warnTail tail) Q E s := by
  rw [warnTail, wp_ite]
  split
  · exact returns _
  · exact returns s.warnings

theorem prepareStmt_fine {c : Nat} {x : DbConnection} (good : s.Good quiet)
    (found : s.connections c = some x) (pConn : x.pConn = some c) (timeout : Option Int)
    (compiled : Compiled) (tail : Bool) :
    wp (prepareStmt c timeout compiled tail)
      (fun stmt s' => s'.Good quiet ∧ s'.connections = s.connections ∧
        ∀ k, stmt = some k → s'.Unused c k)
      (Raised quiet) s := by
  rw [prepareStmt.eq_def, wp_bind]
  apply passes_conn_fine good found pConn
  intro good
  rw [wp_bind]
  apply wp_pragmaBusyTimeout good
  intro s' good' _ connections
  have found' : s'.connections c = some x := by
    rw [connections]
    exact found
  cases compiled with
  | refused =>
      exact raiseSqliteException_fine good' (good'.wellFormed.alive_conn found' pConn)
  | empty =>
      rw [wp_bind]
      apply wp_warnTail
      exact fun warnings => ⟨good'.withWarnings warnings, connections, fun k none_ => by cases none_⟩
  | statement first =>
      obtain ⟨-, d, handle, -⟩ := good'.wellFormed.isOpen found' pConn
      rw [wp_bind, wp_get]
      simp only [wp_bind, wp_onDb]
      apply wp_warnTail
      intro warnings
      have prepared : (s'.withDb c Sqlite3.prepare).Good quiet :=
        ⟨good'.wellFormed.prepare c, good'.allAlive⟩
      refine ⟨prepared.withWarnings warnings, connections, ?_⟩
      intro k same
      rw [handle] at same
      cases same
      exact good'.wellFormed.unused_prepare handle

theorem Process.WellFormed.finalizeUnused (wellFormed : s.WellFormed quiet) {db stmt : Nat}
    (unused : s.Unused db stmt) (isOpen : ∀ d, s.sqlite db = some d → d.isOpen = true) :
    (s.withDb db (Sqlite3.finalize stmt)).WellFormed quiet := by
  apply wellFormed.withDb
  have linked := wellFormed.linked db
  obtain ⟨⟨d, handle, _⟩, own⟩ := unused
  rw [LinkedAt, handle] at linked
  rw [handle, Option.bind_some, Sqlite3.finalize, Sqlite3.closeZombie_of_open]
  · refine linked.modify rfl ?_ ?_ ?_
    · intro r res found same member
      exact List.mem_filter.mpr ⟨member, decide_eq_true (own r res found same)⟩
    · exact fun k member => linked.numbered d rfl k (List.mem_filter.mp member).1
    · exact fun _ => id
  · exact isOpen d handle

theorem Process.Unused.alive {db stmt : Nat} (unused : s.Unused db stmt) :
    s.alive (.stmt db (some stmt)) = true := by
  obtain ⟨d, handle, member⟩ := unused.1
  rw [Process.alive, handle]
  exact decide_eq_true member

theorem stepFirst_fine {c stmt : Nat} {x : DbConnection} (good : s.Good quiet)
    (found : s.connections c = some x) (pConn : x.pConn = some c) (unused : s.Unused c stmt)
    (first : FirstStep) :
    wp (stepFirst c stmt first)
      (fun _ s' => s'.Good quiet ∧ s'.connections = s.connections ∧ s'.Unused c stmt)
      (Raised quiet) s := by
  have alive := unused.alive
  cases first with
  | hasParams => exact ⟨good, rfl, unused⟩
  | ok => exact wp_passes_alive alive ⟨good.passing _ alive, rfl, unused⟩
  | fails =>
      rw [stepFirst, wp_bind]
      apply wp_passes_alive alive
      rw [wp_bind]
      apply passes_conn_fine (good.passing _ alive) found pConn
      intro good'
      rw [wp_bind]
      refine wp_passes_alive ?_ ?_
      · exact alive
      · rw [wp_bind, wp_onDb]
        refine ⟨(good'.wellFormed.passing _).finalizeUnused unused ?_, _, rfl⟩
        intro d handle
        obtain ⟨-, e, handle', isOpen⟩ := good.wellFormed.isOpen found pConn
        cases handle.symm.trans handle'
        exact isOpen

theorem stepNull_fine {c : Nat} {x : DbConnection} (wellFormed : s.WellFormed quiet)
    (found : s.connections c = some x) (pConn : x.pConn = some c) {Q : Nat → Process → Prop} :
    wp (stepNull c) Q (Raised quiet) s := by
  have alive := wellFormed.alive_conn found pConn
  rw [stepNull, wp_bind, wp_offers, wp_bind]
  refine wp_passes_alive ?_ ?_
  · exact alive
  · exact ⟨((wellFormed.passing _).passing _).passing _, _, rfl⟩

theorem createImpl_fine {c : Nat} {x : DbConnection} (good : s.Good quiet)
    (found : s.connections c = some x) (pConn : x.pConn = some c) (timeout : Option Int)
    (compiled : Compiled) (tail : Bool) :
    wp (createImpl c timeout compiled tail)
      (fun stmt s' => s'.Good quiet ∧ s'.connections = s.connections ∧ s'.Unused c stmt)
      (Raised quiet) s := by
  rw [createImpl.eq_def, wp_bind]
  apply wp_returns (prepareStmt_fine good found pConn timeout compiled tail)
  intro stmt s' ⟨good', connections, unused⟩
  have found' : s'.connections c = some x := by
    rw [connections]
    exact found
  have alive := good'.wellFormed.alive_conn found' pConn
  have null : wp (stepNull c) (fun stmt s' =>
      s'.Good quiet ∧ s'.connections = s.connections ∧ s'.Unused c stmt) (Raised quiet)
      ((s'.passing (.stmt c stmt)).passing (.conn (some c))) :=
    stepNull_fine ((good'.wellFormed.passing _).passing _) found' pConn
  rw [wp_bind, wp_offers, wp_bind]
  refine wp_passes_alive ?_ ?_
  · exact alive
  · cases compiled with
    | refused | empty => exact null
    | statement first =>
        cases stmt with
        | none => exact null
        | some k =>
            have passed := (good'.passing _ (unused k rfl).alive).passing (.conn (some c)) alive
            rw [wp_bind]
            apply wp_returns (stepFirst_fine passed found' pConn (unused k rfl) first)
            intro _ s'' ⟨good'', same, unused'⟩
            exact ⟨good'', same.trans connections, unused'⟩

theorem Process.Good.createResult {c stmt : Nat} {x : DbConnection} (good : s.Good quiet)
    (found : s.connections c = some x) (pConn : x.pConn = some c)
    (referenced : x.referenced = true) (unused : s.Unused c stmt) :
    (s.createdResult ⟨c, c, stmt⟩).Good quiet := by
  obtain ⟨⟨sound, retired⟩, allAlive⟩ := good
  have others : ∀ r res, res.connection ≠ c →
      (s.createdResult ⟨c, c, stmt⟩).results r = some res → s.results r = some res := by
    intro r res ne open_
    by_cases same : r = s.nextResult
    · rw [same, createdResult_self] at open_
      cases open_
      exact absurd rfl ne
    · rw [createdResult_ne _ _ same] at open_
      exact open_
  refine ⟨⟨⟨?_, sound.fresh, ?_⟩, ?_⟩, allAlive⟩
  · intro other
    by_cases same : other = c
    · subst same
      have linked := sound.linked other
      obtain ⟨-, d, handle, isOpen⟩ := sound.isOpen found pConn
      obtain ⟨⟨e, handle', member⟩, own⟩ := unused
      cases handle.symm.trans handle'
      rw [LinkedAt, handle, found] at linked
      rw [LinkedAt]
      change Linked quiet other (s.sqlite other) (s.connections other) _
      rw [handle, found]
      exact linked.created isOpen member own
    · exact (sound.linked other).congr
        (fun r res own => others r res (fun same' => same (own.symm.trans same')))
  · intro r beyond
    rw [createdResult_ne _ _ (Nat.ne_of_gt beyond)]
    exact sound.freshResult r (Nat.le_of_succ_le beyond)
  · intro other y current unreferenced closed
    by_cases same : other = c
    · subst same
      rw [show (s.createdResult ⟨other, other, stmt⟩).connections other = some x from found]
        at current
      cases current
      rw [referenced] at unreferenced
      cases unreferenced
    · apply retired other y current unreferenced
      intro r res open_
      have ne : r ≠ s.nextResult := by
        rintro rfl
        rw [sound.freshResult _ (Nat.le_refl _)] at open_
        cases open_
      exact closed r res ((createdResult_ne _ _ ne).trans open_)

theorem resultCreate_fine (good : s.Good quiet) (c : Nat) (timeout : Option Int)
    (compiled : Compiled) (tail : Bool) :
    Fine quiet (resultCreate c timeout compiled tail) s := by
  rw [Fine, resultCreate, wp_bind]
  apply wp_connectionObject _ good.raised
  intro x found referenced
  rw [wp_bind]
  apply wp_checkConnection _ good.raised
  intro _ _
  rw [wp_bind]
  apply wp_conn _ good.raised
  intro db pConn
  obtain ⟨rfl, -⟩ := good.wellFormed.isOpen found pConn
  rw [wp_bind]
  apply wp_returns (createImpl_fine good found pConn timeout compiled tail)
  intro stmt s' ⟨good', connections, unused⟩
  have found' : s'.connections db = some x := by
    rw [connections]
    exact found
  exact good'.createResult found' pConn referenced unused

end RSQLite
