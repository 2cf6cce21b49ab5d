import RSQLite.Connection.LiveHandles

/-!
The R object that is registered as the busy handler of a connection. Disconnecting releases
it, although the results that are still open keep a closed handle alive that calls it back.
-/
namespace RSQLite

open Ledger Weakest Process Runs

variable {s : Process}

namespace Process

/-- SQLite can invoke `busy_callback_helper()` with this object: it is registered, and the
handle is open, or a result still steps its statements. -/
def CanInvoke (s : Process) (o : Protected) : Prop :=
  ∃ db d, s.sqlite db = some d ∧ d.busyHandler = .busyCallbackHelper (some o) ∧
    (d.isOpen = true ∨ ∃ r res, s.results r = some res ∧ res.conn = db)

/-- The object is on R's list: it has been preserved, and not released. -/
def Preserves (s : Process) (o : Protected) : Prop :=
  ∃ x, s.connections o.connection = some x ∧ phase x.ledger o.number = .held

def HandlersProtected (s : Process) : Prop := ∀ o, s.CanInvoke o → s.Preserves o

/-- Once nothing refers to a connection any more, what it has preserved has been released
exactly once. -/
def ReleasedOnce (s : Process) : Prop :=
  ∀ c x, s.connections c = some x → s.useCount c = 0 → Settled x.ledger

end Process

theorem Process.WellFormed.releasedOnce {quiet : Prop} (wellFormed : s.WellFormed quiet) :
    s.ReleasedOnce := by
  intro c x found unused
  obtain ⟨unreferenced, closed⟩ := (useCount_eq_zero wellFormed.toSound c x found).mp unused
  have pConn := wellFormed.retired c x found unreferenced closed
  have none_ := (wellFormed.linked c).callback x found pConn
  rw [settled_iff]
  intro n
  apply ((wellFormed.linked c).balanced x found).settled n
  rw [none_]
  exact Option.some_ne_none n ∘ Eq.symm

theorem Process.WellFormed.handlersProtected (wellFormed : s.WellFormed True) :
    s.HandlersProtected := by
  intro o ⟨db, d, handle, helper, reachable⟩
  have linked := wellFormed.linked db
  cases isOpen : d.isOpen with
  | true =>
      obtain ⟨rfl, x, found, callback⟩ := linked.registered d o handle helper isOpen
      exact ⟨x, found, (linked.balanced x found).held o.number callback⟩
  | false =>
      obtain closed | ⟨r, res, found, conn⟩ := reachable
      · rw [isOpen] at closed
        cases closed
      · have own := (wellFormed.toSound.inUse found).1.symm.trans conn
        exact absurd own (linked.silent trivial d o handle helper isOpen r res found)

theorem phase_disconnected {x : DbConnection} (balanced : x.Balanced) {n : Nat}
    (callback : x.busyCallback = some n) : phase x.disconnected.ledger n = .released := by
  have held := balanced.held n callback
  rw [DbConnection.disconnected, DbConnection.callbackReleased]
  simp only [callback]
  rw [phase_concat, if_pos rfl, held]
  rfl

theorem disconnect_effect {quiet : Prop} {c : Nat} {x : DbConnection} (sound : s.Sound quiet)
    (found : s.connections c = some x) (valid : x.isValid = true) :
    wp (x.disconnect c)
      (fun _ s' => s'.sqlite c = (s.sqlite c).bind Sqlite3.closeV2 ∧
        s'.connections c = some x.disconnected ∧ s'.results = s.results)
      (fun _ _ => False) s := by
  obtain ⟨db, pConn⟩ := Option.isSome_iff_exists.mp valid
  have alive := sound.alive_conn found pConn
  obtain ⟨rfl, -⟩ := sound.isOpen found pConn
  rw [DbConnection.disconnect, wp_bind, pConn]
  apply wp_passes_alive alive
  rw [Option.elim_some, wp_bind, wp_onDb, wp_onConnection, withConnection_sqlite, withDb_self,
    withConnection_self, withDb_connections, passing_connections, found]
  exact ⟨rfl, rfl, rfl⟩

theorem connectionRelease_effect {quiet : Prop} {c : Nat} {x : DbConnection}
    (good : s.Good quiet) (reaches : s.Reaches c x) (valid : x.isValid = true) :
    wp (connectionRelease c)
      (fun _ s' => s'.sqlite c = (s.sqlite c).bind Sqlite3.closeV2 ∧
        s'.connections c = some x.disconnected ∧ s'.results = s.results)
      (fun _ _ => False) s := by
  have disconnects := fun warnings =>
    disconnect_effect (good.withWarnings warnings).wellFormed.toSound reaches.1 valid
  rw [connectionRelease, wp_bind, wp_reaches reaches, valid]
  simp only [Bool.true_eq_false, ite_false, wp_bind, wp_get, wp_ite]
  split
  · exact disconnects _
  · exact disconnects s.warnings

/-- A result that outlives its connection calls back an object that has been released. -/
theorem not_handlersProtected {quiet : Prop} (wellFormed : s.WellFormed quiet) {c r : Nat}
    {x : DbConnection} {res : OpenResult} {d : Sqlite3} {o : Protected}
    (reaches : s.Reaches c x) (valid : x.isValid = true) (found : s.results r = some res)
    (own : res.connection = c) (handle : s.sqlite c = some d)
    (helper : d.busyHandler = .busyCallbackHelper (some o)) :
    ¬ (s.step (.connectionRelease c)).HandlersProtected := by
  have linked := wellFormed.linked c
  have isOpen : d.isOpen = true := by
    obtain ⟨e, handle', isOpen⟩ := (linked.valid x reaches.1).mp valid
    cases handle.symm.trans handle'
    exact isOpen
  obtain ⟨conn, -, e, handle', member⟩ := linked.inUse r res found own
  cases handle.symm.trans handle'
  obtain ⟨same, y, current, callback⟩ := linked.registered d o handle helper isOpen
  cases reaches.1.symm.trans current
  refine step_ends (P := fun s' => ¬ s'.HandlersProtected) ?_
  refine wp_mono _ _ (connectionRelease_effect wellFormed.begun reaches valid) ?_ ?_
  · intro _ s' ⟨closed, released, results⟩ safe
    -- The handle lives on as a zombie, since the statement of the result is in use.
    have zombie : s'.sqlite c = some { d with isOpen := false } := by
      rw [closed, show s.begun.sqlite c = some d from handle]
      exact Sqlite3.closeZombie_of_mem member
    obtain ⟨y, current, held⟩ := safe o
      ⟨c, _, zombie, helper, .inr ⟨r, res, results ▸ found, conn⟩⟩
    rw [same] at current
    cases released.symm.trans current
    rw [phase_disconnected (linked.balanced x reaches.1) callback] at held
    cases held
  · exact fun _ _ never => never.elim

/-- A handler stays protected in a step exactly if the step silences the connection that it
disconnects. -/
theorem protectedAfter_iff (wellFormed : s.WellFormed True) (op : Operation) :
    (s.step op).HandlersProtected ∧ (s.step op).ReleasedOnce ↔ s.Silenced op := by
  constructor
  · intro safe
    cases op with
    | connectionRelease c =>
        intro x reaches valid
        by_contra loud
        simp only [SilentAt, not_or, not_forall, not_not] at loud
        obtain ⟨⟨r, res, found, own⟩, d, o, handle, helper⟩ := loud
        exact not_handlersProtected wellFormed reaches valid found own handle helper safe.1
    | _ => trivial
  · intro silent
    have after := step_wellFormed wellFormed op (fun _ => silent)
    exact ⟨after.handlersProtected, after.releasedOnce⟩

/-- In every course of events, the objects that SQLite can call back are preserved after every
operation, and those of a connection that is gone have been released once, exactly if no
connection is disconnected that has open results and calls back an object. -/
theorem handlersProtected_iff (ops : List Operation) :
    Always Process.step
        (fun s op => (s.step op).HandlersProtected ∧ (s.step op).ReleasedOnce)
        Process.initial ops ↔
      Always Process.step Process.Silenced Process.initial ops := by
  refine always_iff (G := Process.WellFormed True) ?_ ?_ _ ops initial_wellFormed
  · exact fun s op wellFormed => protectedAfter_iff wellFormed op
  · intro s op wellFormed safe
    exact step_wellFormed wellFormed op (fun _ => (protectedAfter_iff wellFormed op).mp safe)

theorem releasedOnce_run (ops : List Operation) :
    (ops.foldl Process.step Process.initial).ReleasedOnce :=
  Process.WellFormed.releasedOnce (invariant_run (G := Process.WellFormed False)
    (fun _ op wellFormed => step_wellFormed wellFormed op False.elim) _ ops initial_wellFormed)

/-- A handler is set, a query is sent, and the connection is disconnected. -/
theorem handlersProtected_zombie :
    ¬ Always Process.step
      (fun s op => (s.step op).HandlersProtected ∧ (s.step op).ReleasedOnce) Process.initial
      [.connectionConnect false .ok, .setBusyHandler 0 .function,
        .resultCreate 0 none (.statement .hasParams) false, .connectionRelease 0] := by
  intro always
  obtain ⟨x, found, held⟩ := always.2.2.2.1.1 ⟨0, 0⟩
    ⟨0, _, rfl, rfl, .inr ⟨0, _, rfl, rfl⟩⟩
  cases found
  cases held

end RSQLite
