import Mathlib.Logic.Function.Basic
import RSQLite.Library.Ledger
import RSQLite.Library.Weakest

/-!
The objects behind the external pointers of connections and results, the handles that SQLite
has given them, and the R objects that they protect. What SQLite makes of a call comes with
the operation, so that every course of events is covered. SQLite must not be given a handle
that is `NULL` or freed: what a process does after that is undefined.
-/
namespace RSQLite

open Ledger

/-- One entry of R's list of protected objects: the connection that made it, and its number
there. `R_ReleaseObject()` takes one entry off. -/
structure Protected where
  connection : Nat
  number : Nat
deriving DecidableEq, Repr

/-- What is registered with `sqlite3_busy_handler()`. -/
inductive BusyHandler
  | none
  | sqliteDefaultBusyCallback (ms : Int)
  | busyCallbackHelper (data : Option Protected)
deriving DecidableEq, Repr

/-- A handle, with its unfinalized statements and unfinished backups. -/
structure Sqlite3 where
  isOpen : Bool
  statements : List Nat
  backups : List Nat
  next : Nat
  busyHandler : BusyHandler
deriving DecidableEq, Repr

/-- The members of `DbConnection`, and whether its external pointer holds a reference. The
ledger of its entries in R's list is kept for the statements of properties only. -/
structure DbConnection where
  pConn : Option Nat
  busyCallback : Option Nat
  referenced : Bool
  ledger : List (Entry Nat)
deriving DecidableEq, Repr

/-- A result with its reference to the connection and the handles `conn` and `stmt`. -/
structure OpenResult where
  connection : Nat
  conn : Nat
  stmt : Nat
deriving DecidableEq, Repr

/-- What is passed to SQLite. A statement and a backup know the handle they belong to. -/
inductive Pointer
  | conn (db : Option Nat)
  | stmt (db : Nat) (stmt : Option Nat)
  | backup (db : Option Nat) (backup : Option Nat)
deriving DecidableEq, Repr

/-- A connection has the number of the handle that its constructor opens. The pointers passed
to SQLite, with whether they were alive, and the warnings are those of one operation. -/
structure Process where
  sqlite : Nat → Option Sqlite3
  connections : Nat → Option DbConnection
  nextConnection : Nat
  results : Nat → Option OpenResult
  nextResult : Nat
  passed : List (Pointer × Bool)
  warnings : List String

inductive Departure
  | rError (message : String)
  | undefined (pointer : Pointer)
deriving DecidableEq, Repr

abbrev Exec := EStateM Departure Process

namespace Sqlite3

/-- `sqlite3LeaveMutexAndCloseZombie()`: a closed handle is freed with the last of what is
in use on it. -/
def closeZombie (d : Sqlite3) : Option Sqlite3 :=
  if d.isOpen = false ∧ d.statements = [] ∧ d.backups = [] then none else some d

theorem closeZombie_some {d e : Sqlite3} (h : d.closeZombie = some e) : e = d := by
  unfold closeZombie at h
  split at h
  · cases h
  · exact (Option.some.inj h).symm

theorem closeZombie_of_open {d : Sqlite3} (isOpen : d.isOpen = true) :
    d.closeZombie = some d := by
  rw [closeZombie, if_neg]
  rw [isOpen]
  exact fun freed => Bool.noConfusion freed.1

theorem closeZombie_of_mem {d : Sqlite3} {stmt : Nat} (inUse : stmt ∈ d.statements) :
    d.closeZombie = some d := by
  rw [closeZombie, if_neg]
  exact fun freed => List.ne_nil_of_mem inUse freed.2.1

/-- `sqlite3_close_v2()`. -/
def closeV2 (d : Sqlite3) : Option Sqlite3 := { d with isOpen := false }.closeZombie

/-- `sqlite3_prepare_v2()`, which makes statement `d.next`. -/
def prepare (d : Sqlite3) : Option Sqlite3 :=
  some { d with statements := d.next :: d.statements, next := d.next + 1 }

def finalize (stmt : Nat) (d : Sqlite3) : Option Sqlite3 :=
  { d with statements := d.statements.filter (· ≠ stmt) }.closeZombie

def backupInit (d : Sqlite3) : Option Sqlite3 :=
  some { d with backups := d.next :: d.backups, next := d.next + 1 }

def backupFinish (backup : Nat) (d : Sqlite3) : Option Sqlite3 :=
  { d with backups := d.backups.filter (· ≠ backup) }.closeZombie

def setBusyHandler (handler : BusyHandler) (d : Sqlite3) : Option Sqlite3 :=
  some { d with busyHandler := handler }

/-- `sqlite3_busy_timeout()`. -/
def busyTimeout (ms : Int) (d : Sqlite3) : Option Sqlite3 :=
  d.setBusyHandler (if 0 < ms then .sqliteDefaultBusyCallback ms else .none)

def opened : Sqlite3 where
  isOpen := true
  statements := []
  backups := []
  next := 0
  busyHandler := .none

end Sqlite3

namespace Process

def initial : Process where
  sqlite := fun _ => none
  connections := fun _ => none
  nextConnection := 0
  results := fun _ => none
  nextResult := 0
  passed := []
  warnings := []

/-- Neither `NULL` nor freed. -/
def alive (s : Process) : Pointer → Bool
  | .conn none => false
  | .conn (some db) => (s.sqlite db).isSome
  | .stmt _ none => false
  | .stmt db (some stmt) => (s.sqlite db).any fun d => decide (stmt ∈ d.statements)
  | .backup (some db) (some backup) => (s.sqlite db).any fun d => decide (backup ∈ d.backups)
  | .backup _ _ => false

def withDb (s : Process) (db : Nat) (f : Sqlite3 → Option Sqlite3) : Process :=
  { s with sqlite := Function.update s.sqlite db ((s.sqlite db).bind f) }

def withConnection (s : Process) (c : Nat) (f : DbConnection → DbConnection) : Process :=
  { s with connections := Function.update s.connections c ((s.connections c).map f) }

def withObject (s : Process) (c : Nat) (x : DbConnection) : Process :=
  { s with connections := Function.update s.connections c (some x) }

def passing (s : Process) (p : Pointer) : Process :=
  { s with passed := s.passed ++ [(p, s.alive p)] }

section Updates

variable (s : Process) (db c : Nat) (f : Sqlite3 → Option Sqlite3)
  (g : DbConnection → DbConnection) (p : Pointer)

@[simp] theorem withDb_connections : (s.withDb db f).connections = s.connections := rfl

@[simp] theorem withDb_self : (s.withDb db f).sqlite db = (s.sqlite db).bind f :=
  Function.update_self _ _ _

theorem withDb_ne {other : Nat} (h : other ≠ db) : (s.withDb db f).sqlite other = s.sqlite other :=
  Function.update_of_ne h _ _

@[simp] theorem withConnection_sqlite : (s.withConnection c g).sqlite = s.sqlite := rfl

@[simp] theorem withConnection_self :
    (s.withConnection c g).connections c = (s.connections c).map g :=
  Function.update_self _ _ _

theorem withConnection_ne {other : Nat} (h : other ≠ c) :
    (s.withConnection c g).connections other = s.connections other :=
  Function.update_of_ne h _ _

@[simp] theorem withObject_self (x : DbConnection) :
    (s.withObject c x).connections c = some x := Function.update_self _ _ _

theorem withObject_ne (x : DbConnection) {other : Nat} (h : other ≠ c) :
    (s.withObject c x).connections other = s.connections other := Function.update_of_ne h _ _

theorem withConnection_eq {x : DbConnection} (found : s.connections c = some x) :
    s.withConnection c g = s.withObject c (g x) := by
  rw [withConnection, found]
  rfl

@[simp] theorem withObject_withObject (x y : DbConnection) :
    (s.withObject c x).withObject c y = s.withObject c y := by
  simp only [withObject, Function.update_idem]

theorem withConnection_eq_self (same : (s.connections c).map g = s.connections c) :
    s.withConnection c g = s := by
  rw [withConnection, same, Function.update_eq_self]

@[simp] theorem passing_sqlite : (s.passing p).sqlite = s.sqlite := rfl

@[simp] theorem passing_connections : (s.passing p).connections = s.connections := rfl

end Updates

def resultsOf (s : Process) (c : Nat) : List Nat :=
  (List.range s.nextResult).filter
    (fun r => (s.results r).any (fun res => decide (res.connection = c)))

/-- The number of references to the object of a connection. -/
def useCount (s : Process) (c : Nat) : Nat :=
  ((s.connections c).elim 0 fun x => x.referenced.toNat) + (s.resultsOf c).length

end Process

def raise {α : Type} (message : String) : Exec α := throw (.rError message)

def warn (message : String) : Exec Unit :=
  modify (fun s => { s with warnings := s.warnings ++ [message] })

/-- The pointer is passed to SQLite, in a call that needs it. -/
def passes (p : Pointer) : Exec Unit := do
  let alive := (← get).alive p
  modify (fun s => s.passing p)
  if alive then pure () else throw (.undefined p)

/-- The pointer is passed to a function that takes a statement which is `NULL`. -/
def offers (p : Pointer) : Exec Unit := modify (fun s => s.passing p)

def onDb (db : Nat) (f : Sqlite3 → Option Sqlite3) : Exec Unit := modify (fun s => s.withDb db f)

def onConnection (c : Nat) (f : DbConnection → DbConnection) : Exec Unit :=
  modify (fun s => s.withConnection c f)

namespace DbConnection

def isValid (x : DbConnection) : Bool := x.pConn.isSome

def conn (x : DbConnection) : Exec Nat :=
  match x.pConn with
  | none => raise "disconnected"
  | some db => pure db

def checkConnection (x : DbConnection) : Exec Unit :=
  if x.isValid then pure () else raise "Invalid or closed connection"

/-- The text of the error is SQLite's. -/
def getException (x : DbConnection) : Exec Unit :=
  if x.isValid then passes (.conn x.pConn) else pure ()

/-- `release_callback_data()`. -/
def callbackReleased (x : DbConnection) : DbConnection :=
  match x.busyCallback with
  | none => x
  | some n => { x with busyCallback := none, ledger := x.ledger ++ [⟨n, .release⟩] }

/-- `R_PreserveObject()` makes an entry. -/
def callbackPreserved (x : DbConnection) : DbConnection :=
  { x with
    busyCallback := some x.ledger.length
    ledger := x.ledger ++ [⟨x.ledger.length, .acquire⟩] }

/-- The finalizer of the external pointer has run. -/
def unreferenced (x : DbConnection) : DbConnection := { x with referenced := false }

def disconnected (x : DbConnection) : DbConnection := { x with pConn := none }.callbackReleased

end DbConnection

/-- The object that an external pointer holds. One that holds none is out of reach. -/
def connectionObject (c : Nat) : Exec DbConnection := do
  match (← get).connections c with
  | some x => if x.referenced then pure x else raise "Invalid result set"
  | none => raise "Invalid result set"

def DbConnection.disconnect (x : DbConnection) (c : Nat) : Exec Unit := do
  passes (.conn x.pConn)
  x.pConn.elim (pure ()) (fun db => onDb db Sqlite3.closeV2)
  onConnection c DbConnection.disconnected

/-- `DbConnection::~DbConnection()`. -/
def DbConnection.destroy (x : DbConnection) (c : Nat) : Exec Unit := do
  if x.isValid then x.disconnect c
  onConnection c DbConnection.callbackReleased

/-- A reference of `boost::shared_ptr` is gone; the last one destroys the object. -/
def dropReference (c : Nat) : Exec Unit := do
  let s ← get
  match s.connections c with
  | none => pure ()
  | some x => if s.useCount c = 0 then x.destroy c else pure ()

/-- What `sqlite3_open_v2()` gives: a handle, also where it fails, or `NULL`. -/
inductive OpenCode
  | ok | error | noMemory
deriving DecidableEq, Repr

def couldNotConnect : String := "Could not connect to database"

def OpenCode.handle : OpenCode → Option Sqlite3
  | .ok | .error => some .opened
  | .noMemory => none

def Process.openedHandle (s : Process) (db : Option Sqlite3) : Process :=
  { s with
    nextConnection := s.nextConnection + 1
    sqlite := Function.update s.sqlite s.nextConnection db }

def DbConnection.connected (pConn : Option Nat) : DbConnection where
  pConn := pConn
  busyCallback := none
  referenced := true
  ledger := []

def connectionConnect (allowExt : Bool) (code : OpenCode) : Exec Unit := do
  let c := (← get).nextConnection
  modify (fun s => s.openedHandle code.handle)
  match code with
  | .noMemory => do
      (DbConnection.connected none).getException
      raise couldNotConnect
  | .error => do
      (DbConnection.connected (some c)).getException
      raise couldNotConnect
  | .ok => do
      if allowExt then passes (.conn (some c))
      modify (fun s => s.withObject c (.connected (some c)))

def connectionValid (c : Nat) : Exec Bool := do
  pure (← connectionObject c).isValid

def resultInUse (n : Nat) : String :=
  "There are " ++ toString n ++ " result in use. The connection will be released when they " ++
  "are closed"

def connectionRelease (c : Nat) : Exec Unit := do
  let x ← connectionObject c
  if x.isValid = false then warn "Already disconnected"
  else do
    let n := (← get).useCount c
    if 1 < n then warn (resultInUse (n - 1))
    x.disconnect c

def DbConnection.inTransaction (x : DbConnection) : Exec Unit := passes (.conn x.pConn)

def connectionInTransaction (c : Nat) : Exec Unit := do
  (← connectionObject c).inTransaction

/-- How the three calls of a backup go. It does not start if SQLite lacks one of the databases
or the memory, or if a transaction is open on the target. -/
structure BackupCodes where
  starts : Bool
  stepDone : Bool
  finishOk : Bool
deriving DecidableEq, Repr

/-- `sqlite3_backup_init()`, whose handles have to be distinct. -/
def sqlite3BackupInit (dest : Nat) (src : Option Nat) (starts : Bool) : Exec Pointer := do
  passes (.conn (some dest))
  passes (.conn src)
  if starts = true ∧ src ≠ some dest then do
    let next := (src.bind (← get).sqlite).map Sqlite3.next
    src.elim (pure ()) (fun db => onDb db Sqlite3.backupInit)
    pure (.backup src next)
  else pure (.backup src none)

def sqlite3BackupFinish (backup : Pointer) : Exec Unit := do
  passes backup
  match backup with
  | .backup (some db) (some n) => onDb db (Sqlite3.backupFinish n)
  | _ => pure ()

/-- `copy_to()`. A backup whose step fails is not finished. -/
def DbConnection.copyTo (x : DbConnection) (pDest : DbConnection) (codes : BackupCodes) :
    Exec Unit := do
  let dest ← pDest.conn
  let backup ← sqlite3BackupInit dest x.pConn codes.starts
  passes backup
  if codes.stepDone = false then do
    x.getException
    raise "Failed to copy all data"
  else do
    sqlite3BackupFinish backup
    if codes.finishOk = false then do
      x.getException
      raise "Could not finish copy"
    else pure ()

def connectionCopyDatabase (source target : Nat) (codes : BackupCodes) : Exec Unit := do
  let x ← connectionObject source
  x.copyTo (← connectionObject target) codes

/-- Statements that are left unfinalized. -/
def leaveUnfinalized (db : Nat) : Nat → Exec Unit
  | 0 => pure ()
  | n + 1 => do
      onDb db Sqlite3.prepare
      leaveUnfinalized db n

/-- `RS_sqlite_import()` works with the handle and with statements of its own, some of which
it can leave unfinalized. -/
def connectionImportFile (c : Nat) (leaks : Nat) (fails : Bool) : Exec Unit := do
  let db ← (← connectionObject c).conn
  passes (.conn (some db))
  leaveUnfinalized db leaks
  if fails then raise "RS_sqlite_import"

/-- The classes of handlers that `sqliteSetBusyHandler()` passes on. -/
inductive Callback
  | null
  | integer (ms : Int)
  | function
deriving DecidableEq, Repr

/-- Every handler but `NULL` is protected. -/
def preserveCallback (c : Nat) : Callback → Exec Unit
  | .null => pure ()
  | .integer _ | .function => onConnection c DbConnection.callbackPreserved

/-- An integer is a timeout; everything else is registered, `NULL` as well. -/
def busyHandlerOf (c : Nat) (busyCallback : Option Nat) : Callback → BusyHandler
  | .integer ms => if 0 < ms then .sqliteDefaultBusyCallback ms else .none
  | .null | .function => .busyCallbackHelper (busyCallback.map fun n => ⟨c, n⟩)

def registerCallback (c : Nat) (x : DbConnection) (callback : Callback) : Exec Unit := do
  passes (.conn x.pConn)
  let busyCallback := ((← get).connections c).bind DbConnection.busyCallback
  x.pConn.elim (pure ()) fun db =>
    onDb db (Sqlite3.setBusyHandler (busyHandlerOf c busyCallback callback))

def setBusyHandler (c : Nat) (callback : Callback) : Exec Unit := do
  let x ← connectionObject c
  x.checkConnection
  onConnection c DbConnection.callbackReleased
  preserveCallback c callback
  registerCallback c x callback

def extensionLoad (c : Nat) (ok : Bool) : Exec Unit := do
  let db ← (← connectionObject c).conn
  passes (.conn (some db))
  if ok = false then raise "Failed to load extension"

/-- A statement without parameters is stepped at once, which may fail. -/
inductive FirstStep
  | hasParams
  | ok
  | fails
deriving DecidableEq, Repr

/-- What SQLite makes of a query: it is refused, has no statement, or has one. -/
inductive Compiled
  | refused
  | empty
  | statement (first : FirstStep)
deriving DecidableEq, Repr

/-- A query that is `PRAGMA busy_timeout` sets the timeout when it is prepared. -/
def pragmaBusyTimeout (db : Nat) (timeout : Option Int) : Exec Unit :=
  timeout.elim (pure ()) (fun ms => onDb db (Sqlite3.busyTimeout ms))

def raiseSqliteException {α : Type} (db : Nat) : Exec α := do
  passes (.conn (some db))
  raise "sqlite3_errmsg"

def warnTail (tail : Bool) : Exec Unit :=
  if tail then warn "Ignoring remaining part of query" else pure ()

/-- `SqliteResultImpl::prepare()`. -/
def prepareStmt (db : Nat) (timeout : Option Int) (compiled : Compiled) (tail : Bool) :
    Exec (Option Nat) := do
  passes (.conn (some db))
  pragmaBusyTimeout db timeout
  match compiled with
  | .refused => raiseSqliteException db
  | .empty => do
      warnTail tail
      pure none
  | .statement _ => do
      let stmt := ((← get).sqlite db).map Sqlite3.next
      onDb db Sqlite3.prepare
      warnTail tail
      pure stmt

/-- `after_bind()` in the constructor, which finalizes the statement where it throws. -/
def stepFirst (db stmt : Nat) : FirstStep → Exec Unit
  | .hasParams => pure ()
  | .ok => passes (.stmt db (some stmt))
  | .fails => do
      passes (.stmt db (some stmt))
      passes (.conn (some db))
      passes (.stmt db (some stmt))
      onDb db (Sqlite3.finalize stmt)
      raise "sqlite3_errmsg"

/-- Stepping the statement `NULL` is a misuse, which SQLite reports. -/
def stepNull (db : Nat) : Exec Nat := do
  offers (.stmt db none)
  passes (.conn (some db))
  offers (.stmt db none)
  raise "sqlite3_errmsg"

/-- The constructor of `SqliteResultImpl`. -/
def createImpl (db : Nat) (timeout : Option Int) (compiled : Compiled) (tail : Bool) :
    Exec Nat := do
  let stmt ← prepareStmt db timeout compiled tail
  offers (.stmt db stmt)
  passes (.conn (some db))
  match compiled, stmt with
  | .statement first, some k => do
      stepFirst db k first
      pure k
  | _, _ => stepNull db

def Process.createdResult (s : Process) (res : OpenResult) : Process :=
  { s with
    results := Function.update s.results s.nextResult (some res)
    nextResult := s.nextResult + 1 }

theorem Process.createdResult_self (s : Process) (res : OpenResult) :
    (s.createdResult res).results s.nextResult = some res := Function.update_self _ _ _

theorem Process.createdResult_ne (s : Process) (res : OpenResult) {r : Nat}
    (h : r ≠ s.nextResult) : (s.createdResult res).results r = s.results r :=
  Function.update_of_ne h _ _

def resultCreate (c : Nat) (timeout : Option Int) (compiled : Compiled) (tail : Bool) :
    Exec Unit := do
  let x ← connectionObject c
  x.checkConnection
  let db ← x.conn
  let stmt ← createImpl db timeout compiled tail
  modify (fun s => s.createdResult ⟨c, db, stmt⟩)

def Process.closedResult (s : Process) (r : Nat) : Process :=
  { s with results := Function.update s.results r none }

def resultRelease (r : Nat) : Exec Unit := do
  match (← get).results r with
  | none => pure ()
  | some res => do
      passes (.stmt res.conn (some res.stmt))
      onDb res.conn (Sqlite3.finalize res.stmt)
      modify (fun s => s.closedResult r)
      dropReference res.connection

def resultObject (r : Nat) : Exec OpenResult := do
  match (← get).results r with
  | none => raise "Invalid result set"
  | some res => pure res

/-- How a method of a result goes: it can be refused before it calls SQLite, and fail behind
a call. -/
inductive MethodCode
  | refused
  | returns
  | fails
deriving DecidableEq, Repr

/-- The statement of a result runs, which may set the timeout once more. -/
def runStatement (res : OpenResult) (timeout : Option Int) (code : MethodCode) : Exec Unit := do
  passes (.stmt res.conn (some res.stmt))
  pragmaBusyTimeout res.conn timeout
  if code = .fails then raiseSqliteException res.conn

def resultFetch (r : Nat) (timeout : Option Int) (code : MethodCode) : Exec Unit := do
  let res ← resultObject r
  if code = .refused then raise "refused"
  else runStatement res timeout code

/-- The change count is read before the parameters are bound. -/
def resultBind (r : Nat) (timeout : Option Int) (code : MethodCode) : Exec Unit := do
  let res ← resultObject r
  if code = .refused then raise "refused"
  else do
    passes (.conn (some res.conn))
    runStatement res timeout code

def resultColumnInfo (r : Nat) (ok : Bool) : Exec Unit := do
  let res ← resultObject r
  passes (.stmt res.conn (some res.stmt))
  if ok = false then raise "refused"

def resultRowsAffected (r : Nat) (ready : Bool) : Exec Unit := do
  let res ← resultObject r
  if ready then passes (.conn (some res.conn))

def resultGetPlaceholderNames (r : Nat) : Exec Unit := do
  let res ← resultObject r
  passes (.stmt res.conn (some res.stmt))

/-- R has collected the external pointer of a connection. -/
def collectConnection (c : Nat) : Exec Unit := do
  let _ ← connectionObject c
  onConnection c DbConnection.unreferenced
  dropReference c

/-- The operations that R code can ask for, each with what SQLite makes of it. -/
inductive Operation
  | connectionConnect (allowExt : Bool) (code : OpenCode)
  | connectionValid (c : Nat)
  | connectionRelease (c : Nat)
  | connectionInTransaction (c : Nat)
  | connectionCopyDatabase (source target : Nat) (codes : BackupCodes)
  | connectionImportFile (c : Nat) (leaks : Nat) (fails : Bool)
  | setBusyHandler (c : Nat) (callback : Callback)
  | extensionLoad (c : Nat) (ok : Bool)
  | resultCreate (c : Nat) (timeout : Option Int) (compiled : Compiled) (tail : Bool)
  | resultRelease (r : Nat)
  | resultValid (r : Nat)
  | resultFetch (r : Nat) (timeout : Option Int) (code : MethodCode)
  | resultBind (r : Nat) (timeout : Option Int) (code : MethodCode)
  | resultHasCompleted (r : Nat)
  | resultRowsFetched (r : Nat)
  | resultRowsAffected (r : Nat) (ready : Bool)
  | resultColumnInfo (r : Nat) (ok : Bool)
  | resultGetPlaceholderNames (r : Nat)
  | collectConnection (c : Nat)
deriving DecidableEq, Repr

def carryOut : Operation → Exec Unit
  | .connectionConnect allowExt code => connectionConnect allowExt code
  | .connectionValid c => discard (connectionValid c)
  | .connectionRelease c => connectionRelease c
  | .connectionInTransaction c => connectionInTransaction c
  | .connectionCopyDatabase source target codes => connectionCopyDatabase source target codes
  | .connectionImportFile c leaks fails => connectionImportFile c leaks fails
  | .setBusyHandler c callback => setBusyHandler c callback
  | .extensionLoad c ok => extensionLoad c ok
  | .resultCreate c timeout compiled tail => resultCreate c timeout compiled tail
  | .resultRelease r => resultRelease r
  | .resultValid _ => pure ()
  | .resultFetch r timeout code => resultFetch r timeout code
  | .resultBind r timeout code => resultBind r timeout code
  | .resultHasCompleted r => discard (resultObject r)
  | .resultRowsFetched r => discard (resultObject r)
  | .resultRowsAffected r ready => resultRowsAffected r ready
  | .resultColumnInfo r ok => resultColumnInfo r ok
  | .resultGetPlaceholderNames r => resultGetPlaceholderNames r
  | .collectConnection c => collectConnection c

namespace Process

/-- An operation starts without warnings and without pointers passed. -/
def begun (s : Process) : Process := { s with passed := [], warnings := [] }

def result (s : Process) (op : Operation) : EStateM.Result Departure Process Unit :=
  (carryOut op).run s.begun

def step (s : Process) (op : Operation) : Process :=
  match s.result op with
  | .ok _ s' => s'
  | .error _ s' => s'

end Process

end RSQLite
