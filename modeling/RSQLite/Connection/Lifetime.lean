import RSQLite.Connection.DbConnection

/-!
What holds of every process: the handle of a connection is open as long as the connection
is valid, and those of an open result are in use, so that SQLite keeps them.
-/
namespace RSQLite

open Ledger Weakest

/-- The ledger of a connection: what it holds is its current callback, and everything else
has been given back. -/
structure DbConnection.Balanced (x : DbConnection) : Prop where
  held : ∀ n, x.busyCallback = some n → phase x.ledger n = .held
  settled : ∀ n, x.busyCallback ≠ some n → (phase x.ledger n).Done
  numbered : ∀ e ∈ x.ledger, e.resource < x.ledger.length

/-- How a connection, its handle and its results go together. If `quiet` is asked for, a
closed handle that still has results does not call back. -/
structure Linked (quiet : Prop) (c : Nat) (db : Option Sqlite3) (x : Option DbConnection)
    (results : Nat → Option OpenResult) : Prop where
  number : ∀ y, x = some y → ∀ h, y.pConn = some h → h = c
  valid : ∀ y, x = some y → (y.pConn.isSome ↔ ∃ d, db = some d ∧ d.isOpen = true)
  numbered : ∀ d, db = some d → ∀ k ∈ d.statements, k < d.next
  inUse : ∀ r res, results r = some res → res.connection = c →
    res.conn = c ∧ x.isSome ∧ ∃ d, db = some d ∧ res.stmt ∈ d.statements
  distinct : ∀ r r' res res', results r = some res → results r' = some res' →
    res.connection = c → res'.connection = c → res.stmt = res'.stmt → r = r'
  callback : ∀ y, x = some y → y.pConn = none → y.busyCallback = none
  balanced : ∀ y, x = some y → y.Balanced
  registered : ∀ d o, db = some d → d.busyHandler = .busyCallbackHelper (some o) →
    d.isOpen = true → o.connection = c ∧ ∃ y, x = some y ∧ y.busyCallback = some o.number
  silent : quiet → ∀ d o, db = some d → d.busyHandler = .busyCallbackHelper (some o) →
    d.isOpen = false → ∀ r res, results r = some res → res.connection ≠ c

/-- The object of a connection without references is destroyed, and it is invalid then. -/
def Retired (c : Nat) (x : Option DbConnection) (results : Nat → Option OpenResult) : Prop :=
  ∀ y, x = some y → y.referenced = false →
    (∀ r res, results r = some res → res.connection ≠ c) → y.pConn = none

/-- The results of the connection are all closed, or its handle calls back no R object. -/
def SilentAt (c : Nat) (db : Option Sqlite3) (results : Nat → Option OpenResult) : Prop :=
  (∀ r res, results r = some res → res.connection ≠ c) ∨
    ∀ d o, db = some d → d.busyHandler ≠ .busyCallbackHelper (some o)

namespace Process

def LinkedAt (quiet : Prop) (s : Process) (c : Nat) : Prop :=
  Linked quiet c (s.sqlite c) (s.connections c) s.results

structure Sound (quiet : Prop) (s : Process) : Prop where
  linked : ∀ c, s.LinkedAt quiet c
  fresh : ∀ c, s.nextConnection ≤ c → s.connections c = none ∧ s.sqlite c = none
  freshResult : ∀ r, s.nextResult ≤ r → s.results r = none

structure WellFormed (quiet : Prop) (s : Process) : Prop extends Sound quiet s where
  retired : ∀ c, Retired c (s.connections c) s.results

def AllAlive (s : Process) : Prop := ∀ e ∈ s.passed, e.2 = true

/-- The object that R code reaches through an external pointer. -/
def Reaches (s : Process) (c : Nat) (x : DbConnection) : Prop :=
  s.connections c = some x ∧ x.referenced = true

/-- A connection that is disconnected has no open results, or calls back no R object. -/
def Silenced (s : Process) : Operation → Prop
  | .connectionRelease c => ∀ x, s.Reaches c x → x.isValid = true →
      SilentAt c (s.sqlite c) s.results
  | _ => True

/-- What an operation starts from, and leaves where it returns. -/
structure Good (quiet : Prop) (s : Process) : Prop where
  wellFormed : s.WellFormed quiet
  allAlive : s.AllAlive

/-- What an operation leaves where R raises an error. -/
def Raised (quiet : Prop) (e : Departure) (s : Process) : Prop :=
  s.WellFormed quiet ∧ ∃ message, e = .rError message

end Process

theorem Linked.congr {quiet : Prop} {c : Nat} {db : Option Sqlite3} {x : Option DbConnection}
    {results results' : Nat → Option OpenResult} (linked : Linked quiet c db x results)
    (same : ∀ r res, res.connection = c → (results' r = some res → results r = some res)) :
    Linked quiet c db x results' where
  number := linked.number
  valid := linked.valid
  numbered := linked.numbered
  inUse r res found own := linked.inUse r res (same r res own found) own
  distinct r r' res res' found found' own own' :=
    linked.distinct r r' res res' (same r res own found) (same r' res' own' found') own own'
  callback := linked.callback
  balanced := linked.balanced
  registered := linked.registered
  silent asked d o found helper closed r res open_ own :=
    linked.silent asked d o found helper closed r res (same r res own open_) own

/-- A change to the handle that keeps its statements and registers no R object. -/
theorem Linked.modify {quiet : Prop} {c : Nat} {d d' : Sqlite3} {x : Option DbConnection}
    {results : Nat → Option OpenResult} (linked : Linked quiet c (some d) x results)
    (isOpen : d'.isOpen = d.isOpen)
    (inUse : ∀ r res, results r = some res → res.connection = c → res.stmt ∈ d.statements →
      res.stmt ∈ d'.statements)
    (numbered : ∀ k ∈ d'.statements, k < d'.next)
    (handler : ∀ o, d'.busyHandler = .busyCallbackHelper (some o) →
      d.busyHandler = .busyCallbackHelper (some o)) :
    Linked quiet c (some d') x results where
  number := linked.number
  valid y found := by
    rw [linked.valid y found]
    simp [isOpen]
  numbered := by
    intro e same
    cases same
    exact numbered
  inUse r res found own := by
    obtain ⟨conn, exists_, e, same, member⟩ := linked.inUse r res found own
    cases same
    exact ⟨conn, exists_, d', rfl, inUse r res found own member⟩
  distinct := linked.distinct
  callback := linked.callback
  balanced := linked.balanced
  registered := by
    intro e o same helper open_
    cases same
    exact linked.registered d o rfl (handler o helper) (isOpen.symm.trans open_)
  silent := by
    intro asked e o same helper closed
    cases same
    exact linked.silent asked d o rfl (handler o helper) (isOpen.symm.trans closed)

namespace Process

variable {quiet : Prop} {s s' : Process}

/-- A process in which one connection and its handle have changed. -/
theorem Sound.update (sound : s.Sound quiet) (s' : Process) (c : Nat)
    (sqlite : ∀ other, other ≠ c → s'.sqlite other = s.sqlite other)
    (connections : ∀ other, other ≠ c → s'.connections other = s.connections other)
    (results : s'.results = s.results) (nextConnection : s'.nextConnection = s.nextConnection)
    (nextResult : s'.nextResult = s.nextResult)
    (none_ : s.connections c = none ∧ s.sqlite c = none →
      s'.connections c = none ∧ s'.sqlite c = none)
    (linked : s'.LinkedAt quiet c) : s'.Sound quiet where
  linked other := by
    by_cases same : other = c
    · exact same ▸ linked
    · have before := sound.linked other
      rw [LinkedAt] at before ⊢
      rw [sqlite other same, connections other same, results]
      exact before
  fresh other beyond := by
    rw [nextConnection] at beyond
    by_cases same : other = c
    · subst same
      exact none_ (sound.fresh other beyond)
    · rw [sqlite other same, connections other same]
      exact sound.fresh other beyond
  freshResult r beyond := by
    rw [nextResult] at beyond
    rw [results]
    exact sound.freshResult r beyond

theorem Sound.withDb (sound : s.Sound quiet) (c : Nat) (f : Sqlite3 → Option Sqlite3)
    (linked : Linked quiet c ((s.sqlite c).bind f) (s.connections c) s.results) :
    (s.withDb c f).Sound quiet := by
  apply sound.update _ c
  · exact fun other ne => withDb_ne s c f ne
  · exact fun _ _ => rfl
  · rfl
  · rfl
  · rfl
  · intro absent
    rw [withDb_self, absent.2]
    exact ⟨absent.1, rfl⟩
  · rw [LinkedAt, withDb_self]
    exact linked

theorem WellFormed.withDb (wellFormed : s.WellFormed quiet) (c : Nat)
    (f : Sqlite3 → Option Sqlite3)
    (linked : Linked quiet c ((s.sqlite c).bind f) (s.connections c) s.results) :
    (s.withDb c f).WellFormed quiet where
  toSound := wellFormed.toSound.withDb c f linked
  retired := wellFormed.retired

theorem Sound.withBoth (sound : s.Sound quiet) (c : Nat) (f : Sqlite3 → Option Sqlite3)
    (g : DbConnection → DbConnection)
    (linked : Linked quiet c ((s.sqlite c).bind f) ((s.connections c).map g) s.results) :
    ((s.withDb c f).withConnection c g).Sound quiet := by
  apply sound.update _ c
  · exact fun other ne => withDb_ne s c f ne
  · exact fun other ne => withConnection_ne (s.withDb c f) c g ne
  · rfl
  · rfl
  · rfl
  · intro absent
    rw [withConnection_self, withConnection_sqlite, withDb_self, withDb_connections, absent.1,
      absent.2]
    exact ⟨rfl, rfl⟩
  · rw [LinkedAt, withConnection_self, withConnection_sqlite, withDb_self]
    exact linked

theorem retired_update (retired : ∀ c, Retired c (s.connections c) s.results) (c : Nat)
    (connections : ∀ other, other ≠ c → s'.connections other = s.connections other)
    (results : s'.results = s.results) (own : Retired c (s'.connections c) s.results) :
    ∀ other, Retired other (s'.connections other) s'.results := by
  intro other
  rw [results]
  by_cases same : other = c
  · exact same ▸ own
  · rw [connections other same]
    exact retired other

theorem Sound.recorded (sound : s.Sound quiet) (passed : List (Pointer × Bool))
    (warnings : List String) :
    Sound quiet { s with passed := passed, warnings := warnings } where
  linked := sound.linked
  fresh := sound.fresh
  freshResult := sound.freshResult

theorem WellFormed.recorded (wellFormed : s.WellFormed quiet) (passed : List (Pointer × Bool))
    (warnings : List String) :
    WellFormed quiet { s with passed := passed, warnings := warnings } where
  toSound := wellFormed.toSound.recorded passed warnings
  retired := wellFormed.retired

theorem Sound.passing (sound : s.Sound quiet) (p : Pointer) : (s.passing p).Sound quiet :=
  sound.recorded _ _

theorem WellFormed.passing (wellFormed : s.WellFormed quiet) (p : Pointer) :
    (s.passing p).WellFormed quiet :=
  wellFormed.recorded _ _

theorem AllAlive.passing (allAlive : s.AllAlive) (p : Pointer) (alive : s.alive p = true) :
    (s.passing p).AllAlive := by
  intro e member
  obtain earlier | now := List.mem_append.mp member
  · exact allAlive e earlier
  · rw [List.mem_singleton.mp now]
    exact alive

theorem Good.passing (good : s.Good quiet) (p : Pointer) (alive : s.alive p = true) :
    (s.passing p).Good quiet where
  wellFormed := good.wellFormed.passing p
  allAlive := good.allAlive.passing p alive

theorem Good.raised (good : s.Good quiet) (message : String) :
    Raised quiet (.rError message) s := ⟨good.wellFormed, message, rfl⟩

theorem Sound.isOpen (sound : s.Sound quiet) {c : Nat} {x : DbConnection}
    (found : s.connections c = some x) {db : Nat} (valid : x.pConn = some db) :
    db = c ∧ ∃ d, s.sqlite c = some d ∧ d.isOpen = true := by
  refine ⟨(sound.linked c).number x found db valid, ((sound.linked c).valid x found).mp ?_⟩
  rw [valid]
  rfl

theorem Sound.alive_conn (sound : s.Sound quiet) {c : Nat} {x : DbConnection}
    (found : s.connections c = some x) {db : Nat} (valid : x.pConn = some db) :
    s.alive (.conn (some db)) = true := by
  obtain ⟨rfl, d, handle, _⟩ := sound.isOpen found valid
  rw [alive, handle]
  rfl

theorem Sound.inUse (sound : s.Sound quiet) {r : Nat} {res : OpenResult}
    (found : s.results r = some res) :
    res.conn = res.connection ∧ s.alive (.stmt res.conn (some res.stmt)) = true ∧
      s.alive (.conn (some res.conn)) = true := by
  obtain ⟨conn, _, d, handle, member⟩ := (sound.linked res.connection).inUse r res found rfl
  rw [alive, alive, conn, handle]
  exact ⟨rfl, decide_eq_true member, rfl⟩

theorem useCount_eq_zero (sound : s.Sound quiet) (c : Nat) (x : DbConnection)
    (found : s.connections c = some x) :
    s.useCount c = 0 ↔
      x.referenced = false ∧ ∀ r res, s.results r = some res → res.connection ≠ c := by
  rw [useCount, found, Option.elim_some, Nat.add_eq_zero_iff, List.length_eq_zero_iff]
  refine and_congr (by cases x.referenced <;> simp) ?_
  rw [resultsOf, List.filter_eq_nil_iff]
  constructor
  · intro none_ r res open_ own
    apply none_ r
    · rw [List.mem_range]
      by_contra beyond
      rw [sound.freshResult r (Nat.le_of_not_lt beyond)] at open_
      cases open_
    · rw [open_]
      exact decide_eq_true own
  · intro none_ r _ some_
    obtain ⟨res, open_, own⟩ := (Option.any_eq_true _ _).mp some_
    exact none_ r res open_ (of_decide_eq_true own)

end Process

section Rules

variable {α : Type} {Q : α → Process → Prop} {E : Departure → Process → Prop}

@[simp] theorem wp_passes (p : Pointer) (Q : PUnit → Process → Prop) (s : Process) :
    wp (passes p) Q E s ↔
      if s.alive p = true then Q ⟨⟩ (s.passing p) else E (.undefined p) (s.passing p) := by
  simp only [passes, wp_bind, wp_get, wp_modify, wp_ite, wp_pure, wp_throw]

@[simp] theorem wp_offers (p : Pointer) (Q : PUnit → Process → Prop) (s : Process) :
    wp (offers p) Q E s ↔ Q ⟨⟩ (s.passing p) := Iff.rfl

@[simp] theorem wp_onDb (db : Nat) (f : Sqlite3 → Option Sqlite3) (Q : PUnit → Process → Prop)
    (s : Process) : wp (onDb db f) Q E s ↔ Q ⟨⟩ (s.withDb db f) := Iff.rfl

@[simp] theorem wp_onConnection (c : Nat) (f : DbConnection → DbConnection)
    (Q : PUnit → Process → Prop) (s : Process) :
    wp (onConnection c f) Q E s ↔ Q ⟨⟩ (s.withConnection c f) := Iff.rfl

end Rules

namespace DbConnection

variable {x : DbConnection}

theorem Balanced.callbackReleased (balanced : x.Balanced) : x.callbackReleased.Balanced := by
  unfold DbConnection.callbackReleased
  cases callback : x.busyCallback with
  | none => exact balanced
  | some n =>
      have held := balanced.held n callback
      have known : n < x.ledger.length := by
        by_contra beyond
        have absent : phase x.ledger n = .fresh :=
          phase_absent (fun e member same => beyond (same ▸ balanced.numbered e member))
        rw [held] at absent
        cases absent
      refine ⟨?_, ?_, ?_⟩
      · intro _ none_
        cases none_
      · intro m _
        rw [phase_concat]
        split
        · next same => rw [← same, held]; exact Phase.done_released
        · next differs =>
            apply balanced.settled m
            rw [callback]
            exact fun same => differs (Option.some.inj same)
      · intro e member
        rw [List.length_append, List.length_singleton]
        obtain earlier | now := List.mem_append.mp member
        · exact Nat.lt_succ_of_lt (balanced.numbered e earlier)
        · rw [List.mem_singleton.mp now]
          exact Nat.lt_succ_of_lt known

theorem Balanced.callbackPreserved (balanced : x.Balanced) (none_ : x.busyCallback = none) :
    x.callbackPreserved.Balanced := by
  have fresh : phase x.ledger x.ledger.length = .fresh :=
    phase_absent (fun e member same => Nat.lt_irrefl _ (same ▸ balanced.numbered e member))
  refine ⟨?_, ?_, ?_⟩
  · intro n current
    cases current
    rw [DbConnection.callbackPreserved, phase_concat, if_pos rfl, fresh]
    rfl
  · intro n other
    rw [DbConnection.callbackPreserved, phase_concat,
      if_neg (fun same => other (congrArg some same))]
    apply balanced.settled n
    rw [none_]
    exact Option.some_ne_none n ∘ Eq.symm
  · intro e member
    rw [DbConnection.callbackPreserved, List.length_append, List.length_singleton]
    obtain earlier | now := List.mem_append.mp member
    · exact Nat.lt_succ_of_lt (balanced.numbered e earlier)
    · rw [List.mem_singleton.mp now]
      exact Nat.lt_succ_self _

@[simp] theorem callbackReleased_pConn : x.callbackReleased.pConn = x.pConn := by
  unfold DbConnection.callbackReleased
  split <;> rfl

@[simp] theorem callbackReleased_referenced : x.callbackReleased.referenced = x.referenced := by
  unfold DbConnection.callbackReleased
  split <;> rfl

@[simp] theorem callbackReleased_busyCallback : x.callbackReleased.busyCallback = none := by
  unfold DbConnection.callbackReleased
  split
  · next none_ => exact none_
  · rfl

theorem callbackReleased_of_none (none_ : x.busyCallback = none) : x.callbackReleased = x := by
  unfold DbConnection.callbackReleased
  rw [none_]

end DbConnection

variable {quiet : Prop} {c : Nat} {db : Option Sqlite3} {d : Sqlite3} {x : DbConnection}
  {results : Nat → Option OpenResult}

theorem Linked.disconnected (linked : Linked quiet c (some d) (some x) results)
    (silent : quiet → SilentAt c (some d) results) :
    Linked quiet c d.closeV2 (some x.disconnected) results := by
  have pConn : x.disconnected.pConn = none := DbConnection.callbackReleased_pConn
  have balanced : x.disconnected.Balanced := by
    have own := linked.balanced x rfl
    exact DbConnection.Balanced.callbackReleased ⟨own.held, own.settled, own.numbered⟩
  have closed : ∀ e, d.closeV2 = some e → e = { d with isOpen := false } :=
    fun e same => Sqlite3.closeZombie_some same
  refine ⟨?_, ?_, ?_, ?_, linked.distinct, ?_, ?_, ?_, ?_⟩
  · intro y same h valid
    cases same
    rw [pConn] at valid
    cases valid
  · intro y same
    cases same
    rw [pConn]
    refine iff_of_false (by decide) ?_
    rintro ⟨e, found, open_⟩
    rw [closed e found] at open_
    cases open_
  · intro e found
    rw [closed e found]
    exact linked.numbered d rfl
  · intro r res found own
    obtain ⟨conn, _, e, same, member⟩ := linked.inUse r res found own
    cases same
    exact ⟨conn, rfl, { d with isOpen := false }, Sqlite3.closeZombie_of_mem member, member⟩
  · intro y same _
    cases same
    exact DbConnection.callbackReleased_busyCallback
  · intro y same
    cases same
    exact balanced
  · intro e o found _ open_
    rw [closed e found] at open_
    cases open_
  · intro asked e o found helper _
    rw [closed e found] at helper
    obtain none_ | other := silent asked
    · exact none_
    · exact absurd helper (other d o rfl)

/-- A statement of a result is finalized, and the result is gone. -/
theorem Linked.finalized {x : Option DbConnection} {r : Nat} {res : OpenResult}
    (linked : Linked quiet c (some d) x results) (found : results r = some res)
    (own : res.connection = c) :
    Linked quiet c (d.finalize res.stmt) x (Function.update results r none) := by
  have open_ : ∀ r' res', Function.update results r none r' = some res' →
      r' ≠ r ∧ results r' = some res' := by
    intro r' res' other
    by_cases same : r' = r
    · rw [same, Function.update_self] at other
      cases other
    · rw [Function.update_of_ne same] at other
      exact ⟨same, other⟩
  have finalized : ∀ e, d.finalize res.stmt = some e →
      e = { d with statements := d.statements.filter (· ≠ res.stmt) } :=
    fun e same => Sqlite3.closeZombie_some same
  have others : ∀ r' res', Function.update results r none r' = some res' → res'.connection = c →
      res'.stmt ∈ d.statements.filter (· ≠ res.stmt) := by
    intro r' res' other own'
    obtain ⟨ne, found'⟩ := open_ r' res' other
    obtain ⟨_, _, e, same, member⟩ := linked.inUse r' res' found' own'
    cases same
    refine List.mem_filter.mpr ⟨member, decide_eq_true ?_⟩
    exact fun same => ne (linked.distinct r' r res' res found' found own' own same)
  refine ⟨linked.number, ?_, ?_, ?_, ?_, linked.callback, linked.balanced, ?_, ?_⟩
  · intro y same
    rw [linked.valid y same]
    constructor
    · rintro ⟨e, same, open_⟩
      cases same
      exact ⟨_, Sqlite3.closeZombie_of_open open_, open_⟩
    · rintro ⟨e, found, open_⟩
      rw [finalized e found] at open_
      exact ⟨d, rfl, open_⟩
  · intro e found k member
    rw [finalized e found] at member ⊢
    exact linked.numbered d rfl k (List.mem_filter.mp member).1
  · intro r' res' other own'
    have member := others r' res' other own'
    obtain ⟨conn, object, _⟩ := linked.inUse r' res' (open_ r' res' other).2 own'
    exact ⟨conn, object, { d with statements := d.statements.filter (· ≠ res.stmt) },
      Sqlite3.closeZombie_of_mem member, member⟩
  · intro r₁ r₂ res₁ res₂ found₁ found₂
    exact linked.distinct r₁ r₂ res₁ res₂ (open_ r₁ res₁ found₁).2 (open_ r₂ res₂ found₂).2
  · intro e o found helper isOpen
    rw [finalized e found] at helper isOpen
    exact linked.registered d o rfl helper isOpen
  · intro asked e o found helper closed r' res' other
    rw [finalized e found] at helper closed
    exact linked.silent asked d o rfl helper closed r' res' (open_ r' res' other).2

theorem Linked.unreferenced (linked : Linked quiet c db (some x) results) :
    Linked quiet c db (some x.unreferenced) results := by
  refine ⟨?_, ?_, linked.numbered, linked.inUse, linked.distinct, ?_, ?_, ?_, linked.silent⟩
  · intro y same
    cases same
    exact linked.number x rfl
  · intro y same
    cases same
    exact linked.valid x rfl
  · intro y same
    cases same
    exact linked.callback x rfl
  · intro y same
    cases same
    have balanced := linked.balanced x rfl
    exact ⟨balanced.held, balanced.settled, balanced.numbered⟩
  · intro d o handle helper isOpen
    obtain ⟨own, y, same, callback⟩ := linked.registered d o handle helper isOpen
    cases same
    exact ⟨own, _, rfl, callback⟩

/-- A valid connection has another callback, and SQLite knows of no other. -/
theorem Linked.callbackSet {d' : Sqlite3} {y : DbConnection}
    (linked : Linked quiet c (some d) (some x) results) (valid : x.pConn.isSome = true)
    (pConn : y.pConn = x.pConn) (balanced : y.Balanced)
    (handle : d' = { d with busyHandler := d'.busyHandler })
    (handler : ∀ o, d'.busyHandler = .busyCallbackHelper (some o) →
      o.connection = c ∧ y.busyCallback = some o.number) :
    Linked quiet c (some d') (some y) results := by
  have isOpen : d'.isOpen = true := by
    obtain ⟨e, same, isOpen⟩ := (linked.valid x rfl).mp valid
    cases same
    rw [handle]
    exact isOpen
  refine ⟨?_, ?_, ?_, ?_, linked.distinct, ?_, ?_, ?_, ?_⟩
  · intro z same h current
    cases same
    rw [pConn] at current
    exact linked.number x rfl h current
  · intro z same
    cases same
    rw [pConn]
    exact iff_of_true valid ⟨d', rfl, isOpen⟩
  · intro e same
    cases same
    rw [handle]
    exact linked.numbered d rfl
  · intro r res found own
    obtain ⟨conn, _, e, same, member⟩ := linked.inUse r res found own
    cases same
    rw [handle]
    exact ⟨conn, rfl, _, rfl, member⟩
  · intro z same none_
    cases same
    rw [pConn] at none_
    rw [none_] at valid
    cases valid
  · intro z same
    cases same
    exact balanced
  · intro e o same helper _
    cases same
    exact ⟨(handler o helper).1, y, rfl, (handler o helper).2⟩
  · intro _ e _ same _ closed
    cases same
    rw [isOpen] at closed
    cases closed

/-- A new result holds a statement that no other result has. -/
theorem Linked.created {r stmt : Nat} (linked : Linked quiet c (some d) (some x) results)
    (isOpen : d.isOpen = true) (member : stmt ∈ d.statements)
    (own : ∀ r res, results r = some res → res.connection = c → res.stmt ≠ stmt) :
    Linked quiet c (some d) (some x) (Function.update results r (some ⟨c, c, stmt⟩)) := by
  refine ⟨linked.number, linked.valid, linked.numbered, ?_, ?_, linked.callback, linked.balanced,
    linked.registered, ?_⟩
  · intro r' res found
    by_cases same : r' = r
    · rw [same, Function.update_self] at found
      cases found
      exact fun _ => ⟨rfl, rfl, d, rfl, member⟩
    · rw [Function.update_of_ne same] at found
      exact linked.inUse r' res found
  · intro r₁ r₂ res₁ res₂ found₁ found₂ own₁ own₂ stmts
    by_cases same₁ : r₁ = r
    · by_cases same₂ : r₂ = r
      · rw [same₁, same₂]
      · rw [same₁, Function.update_self] at found₁
        rw [Function.update_of_ne same₂] at found₂
        cases found₁
        exact absurd stmts.symm (own r₂ res₂ found₂ own₂)
    · rw [Function.update_of_ne same₁] at found₁
      by_cases same₂ : r₂ = r
      · rw [same₂, Function.update_self] at found₂
        cases found₂
        exact absurd stmts (own r₁ res₁ found₁ own₁)
      · rw [Function.update_of_ne same₂] at found₂
        exact linked.distinct r₁ r₂ res₁ res₂ found₁ found₂ own₁ own₂ stmts
  · intro _ e _ same _ closed
    cases same
    rw [isOpen] at closed
    cases closed

end RSQLite
