import RSQLite.R.Parameter
import RSQLite.Result.DataFrame

/-!
The result of a prepared statement: binding a list of parameters row by row and
fetching the rows of one execution after the other, one row ahead of what has
been delivered. A method that throws keeps what it has written to the object.
-/
namespace RSQLite

structure SqliteResultImpl (DB : Type) where
  handles : Handles DB
  complete : Bool
  ready : Bool
  nrows : Int32
  totalChangesStart : Int32
  params : List RVector
  group : Nat
  groups : Nat
  types : List DataType
  withAltTypes : Bool

abbrev Method (DB : Type) := EStateM Fault (SqliteResultImpl DB)

def throwFault {DB α : Type} (f : Fault) : Method DB α := fun s => .error f s

def liftOutcome {DB α : Type} : Outcome α → Method DB α
  | .ok a => pure a
  | .error f => throwFault f

namespace SqliteResultImpl

variable {DB : Type}

def withHandles (s : SqliteResultImpl DB) (h : Handles DB) : SqliteResultImpl DB :=
  { s with handles := h }

/-- `cache.names_`, `cache.ncols_` and `cache.nparams_`. -/
def names (s : SqliteResultImpl DB) : List String := s.handles.program.columnNames

def ncols (s : SqliteResultImpl DB) : Nat := s.handles.columnCount

def nparams (s : SqliteResultImpl DB) : Nat := s.handles.parameterCount

def columnSource (s : SqliteResultImpl DB) (j : Nat) : SqliteColumnDataSource :=
  ⟨s.handles.program.declTypes.getD j none, s.withAltTypes⟩

def initialState (h : Handles DB) (withAltTypes : Bool) : SqliteResultImpl DB where
  handles := h
  complete := false
  ready := false
  nrows := 0
  totalChangesStart := h.totalChanges
  params := []
  group := 0
  groups := 0
  types := List.replicate h.columnCount .unknown
  withAltTypes := withAltTypes

def init (paramsHaveRows : Bool) : Method DB Unit :=
  modify (fun s => { s with ready := true, nrows := 0, complete := !paramsHaveRows })

def nRowsFetched (s : SqliteResultImpl DB) : Int32 := s.nrows

/-- `none` is `NA_INTEGER`. -/
def nRowsAffected (s : SqliteResultImpl DB) : Option Int32 :=
  if s.ready then some (s.handles.totalChanges - s.totalChangesStart) else none

/-- The name without its first character, or an empty name. -/
def placeholderName : Option String → String
  | none => ""
  | some name => String.ofList (name.toList.drop 1)

def getPlaceholderNames (s : SqliteResultImpl DB) : List String :=
  s.handles.program.parameterNames.map placeholderName

def bindParameterPos (j : Nat) (value : RVector) : Method DB Unit := do
  let v ← liftOutcome (value.boundValue (← get).group)
  modify (fun s => s.withHandles (s.handles.bind j v))

def bindParameters : Nat → List RVector → Method DB Unit
  | _, [] => pure ()
  | j, value :: rest => do
      bindParameterPos (j + 1) value
      bindParameters (j + 1) rest

def bindRow : Method DB Bool := do
  let s ← get
  if s.groups ≤ s.group then pure false
  else do
    modify (fun s => s.withHandles s.handles.reset.clearBindings)
    bindParameters 0 s.params
    pure true

def stepDone : Method DB Bool := do
  modify (fun s => { s with group := s.group + 1 })
  let moreParams ← bindRow
  if moreParams then pure () else modify (fun s => { s with complete := true })
  pure moreParams

def sqlite3Step : Method DB StepResult := fun s =>
  .ok s.handles.step.1 (s.withHandles s.handles.step.2)

def stepRun : Method DB Bool := do
  match ← sqlite3Step with
  | .done => stepDone
  | .row => pure false
  | .error message => throwFault (.stop message)

/-- `while (step_run()) ;` Every round but the last goes to a further row of
parameters. -/
def stepLoop : Nat → Method DB Unit
  | 0 => throwFault .unfinished
  | rounds + 1 => do
      if ← stepRun then stepLoop rounds else pure ()

def step : Method DB Unit := do
  let s ← get
  stepLoop (s.groups - s.group + 1)

def afterBind (paramsHaveRows : Bool) : Method DB Unit := do
  init paramsHaveRows
  if paramsHaveRows then step else pure ()

/-- The constructor, after `prepare()`. -/
def create (h : Handles DB) (withAltTypes : Bool) :
    EStateM.Result Fault (SqliteResultImpl DB) Unit :=
  let s := initialState h withAltTypes
  if s.nparams = 0 then (afterBind true).run s else .ok () s

def doesNotRequireParameters : String := "Query does not require parameters."

def requiresParams (required supplied : Nat) : String :=
  "Query requires " ++ toString required ++ " params; " ++ toString supplied ++ " supplied."

def bind (params : List RVector) : Method DB Unit := do
  let s ← get
  if s.nparams = 0 then throwFault (.stop doesNotRequireParameters)
  else if params.length ≠ s.nparams then
    throwFault (.stop (requiresParams s.nparams params.length))
  else do
    modify (fun s => { s with
      params := params
      groups := ((params.head?).map RVector.length).getD 0
      group := 0
      totalChangesStart := s.handles.totalChanges })
    let hasParams ← bindRow
    afterBind hasParams

variable {I : Type} [Counter I] (cv : Conversions)

def newDataFrame (s : SqliteResultImpl DB) (nMax : Int) : DbDataFrame I :=
  DbDataFrame.create s.names nMax s.types s.columnSource

def getData (data : DbDataFrame I) : Method DB DataFrame := do
  let (frame, types) ← liftOutcome data.getData
  modify (fun s => { s with types := types })
  pure frame

/-- One read of the current row into the data frame. -/
def setColValues (data : DbDataFrame I) : Method DB (DbDataFrame I) := do
  liftOutcome (data.setColValues cv (← get).handles)

/-- `while (!complete_)`. The number of rounds is bounded from outside. -/
def fetchLoop : Nat → DbDataFrame I → Method DB (DbDataFrame I)
  | 0, _ => throwFault .unfinished
  | fuel + 1, data => do
      if (← get).complete then pure data
      else do
        let data ← setColValues cv data
        step
        modify (fun s => { s with nrows := s.nrows + 1 })
        let (room, data) ← liftOutcome data.advance
        if room then fetchLoop fuel data else pure data

def onlyForSelect : String :=
  "`dbGetQuery()`, `dbSendQuery()` and `dbFetch()` should only be used " ++
  "with `SELECT` queries. Did you mean `dbExecute()`, `dbSendStatement()` " ++
  "or `dbGetRowsAffected()`?"

def fetchRows (I : Type) [Counter I] (fuel : Nat) (nMax : Int) : Method DB DataFrame := do
  let s ← get
  let warnings := if s.complete ∧ s.types.length = 0 then [onlyForSelect] else []
  let data ← fetchLoop cv fuel (s.newDataFrame nMax : DbDataFrame I)
  let frame ← getData data
  pure { frame with warnings := warnings ++ frame.warnings }

/-- The data frame is not advanced, so it has no rows. -/
def peekFirstRow : Method DB DataFrame := do
  let s ← get
  let data : DbDataFrame CInt := s.newDataFrame 1
  let data ← if s.complete then pure data else setColValues cv data
  getData data

def needsToBeBound : String := "Query needs to be bound before fetching"

/-- The rows are counted by `I`, which is `CInt` in the driver. -/
def fetch (I : Type) [Counter I] (fuel : Nat) (nMax : Int) : Method DB DataFrame := do
  if (← get).ready then
    if nMax ≠ 0 then fetchRows cv I fuel nMax else peekFirstRow cv
  else throwFault (.stop needsToBeBound)

/-- The type names of `get_column_info()`. -/
def columnTypeName : DataType → String
  | .date => "Date"
  | .datetime => "POSIXct"
  | .time => "hms"
  | dt => match DbColumnStorage.sexptypeFromDatatype dt with
    | .nilsxp => "NULL"
    | .lglsxp => "logical"
    | .intsxp => "integer"
    | .realsxp => "double"
    | .strsxp => "character"
    | .vecsxp => "list"

def getColumnInfo : Method DB (List String × List String) := do
  let _ ← peekFirstRow cv
  let s ← get
  pure (s.names, s.types.map columnTypeName)

end SqliteResultImpl

namespace DbResult

variable {DB : Type}

def doesNotHaveLength (j n : Nat) : String :=
  "Parameter " ++ toString j ++ " does not have length " ++ toString n ++ "."

/-- The first parameter, from the second on, whose length is not that of the first. -/
def validateFrom (n : Nat) : Nat → List RVector → Outcome Unit
  | _, [] => .ok ()
  | j, col :: rest =>
      if col.length ≠ n then .error (.stop (doesNotHaveLength (j + 1) n))
      else validateFrom n (j + 1) rest

def validateParams : List RVector → Outcome Unit
  | [] => .ok ()
  | first :: rest => validateFrom first.length 1 rest

def bind (params : List RVector) : Method DB Unit := do
  liftOutcome (validateParams params)
  SqliteResultImpl.bind params

/-- Here the rows are counted without a limit. With the counters of the driver a fetch of fewer
than 2^31 rows is the same (`fetch_short`), and one of more raises (`fetch_long`). -/
def fetch (cv : Conversions) (fuel : Nat) (nMax : Int) : Method DB DataFrame :=
  SqliteResultImpl.fetch cv Nat fuel nMax

end DbResult

end RSQLite
