import RSQLite.Connection.AppendTable
import RSQLite.Connection.ImportFile
import RSQLite.R.Table

/-!
`dbWriteTable()` of a data frame and of a file. Both check their arguments, and then do
everything inside a savepoint that a handler rolls back: look for the table, drop it,
create it, and fill it from the data frame or the file.
-/
namespace RSQLite

open Savepoint Ending

/-- A logical value of R; `none` is `NA`. -/
abbrev Logical := Option Bool

namespace Logical

def not (x : Logical) : Logical := x.map Bool.not

/-- `x && y`. -/
def and : Logical → Logical → Logical
  | some false, _ => some false
  | some true, y => y
  | none, some false => some false
  | none, _ => none

/-- `x || y`. -/
def or (x y : Logical) : Logical := not (and (not x) (not y))

end Logical

/-- An argument that should be a single logical value. -/
inductive Flag
  | logical (value : Logical)
  | other
deriving DecidableEq, Repr

/-- The argument `row.names`. -/
inductive RowNames
  | null
  | numeric (values : List (Option ℚ))
  | logical (values : List Logical)
  | character (values : List (Option String))
  | other
deriving DecidableEq

/-- The argument `field.types`. -/
inductive FieldTypes
  | null
  | character (names : Option (List String)) (types : List String)
  | other
deriving DecidableEq, Repr

/-- `compatRowNames()`, without its warning. -/
def compatRowNames : RowNames → RowNames
  | .null => .logical [some false]
  | .numeric values => .logical (values.map (Option.map (fun x => decide (x ≠ 0))))
  | .logical values => .logical values
  | .character values => .character values
  | .other => .other

structure FrameArguments where
  rowNames : RowNames
  overwrite : Flag
  append : Flag
  fieldTypes : FieldTypes
  temporary : Flag

structure CheckedArguments where
  rowNames : RowNames
  overwrite : Bool
  append : Bool
  fieldTypes : Option (List (String × String))
  temporary : Logical
  exclusive : ¬ (overwrite = true ∧ append = true)
  untyped : append = true → fieldTypes = none

def mustBeScalar (argument : String) : String := "`" ++ argument ++ "` must be a logical scalar"

def rowNamesMessage : String := "`row.names` must be a logical scalar or a string"

def bothTrue : String := "overwrite and append cannot both be TRUE"

def fieldTypesMessage : String :=
  "`field.types` must be a named character vector with unique names, or NULL"

def typesWithAppend : String := "Cannot specify `field.types` with `append = TRUE`"

def missingLogical : String := "missing value where TRUE/FALSE needed"

def tableExists (name : String) : String :=
  "Table " ++ name ++ " exists in database, and both overwrite and append are FALSE"

/-- A logical scalar that is not `NA`. -/
def checkFlag (argument : String) : Flag → Except String Bool
  | .logical (some value) => .ok value
  | .logical none | .other => .error (mustBeScalar argument)

def checkRowNames (rowNames : RowNames) : Except String RowNames :=
  match compatRowNames rowNames with
  | .logical [value] => .ok (.logical [value])
  | .character [value] => .ok (.character [value])
  | .null | .numeric _ | .logical _ | .character _ | .other => .error rowNamesMessage

def checkTemporary : Flag → Except String Logical
  | .logical value => .ok value
  | .other => .error (mustBeScalar "temporary")

def checkFieldTypes : FieldTypes → Except String (Option (List (String × String)))
  | .null => .ok none
  | .character (some names) types =>
      if names.Nodup then .ok (some (names.zip types)) else .error fieldTypesMessage
  | .character none _ | .other => .error fieldTypesMessage

/-- The checks of the data frame variant. -/
def checkArguments (a : FrameArguments) : Except String CheckedArguments := do
  let rowNames ← checkRowNames a.rowNames
  let overwrite ← checkFlag "overwrite" a.overwrite
  let append ← checkFlag "append" a.append
  let temporary ← checkTemporary a.temporary
  if both : overwrite = true ∧ append = true then .error bothTrue
  else do
    let fieldTypes ← checkFieldTypes a.fieldTypes
    if typed : append = true ∧ fieldTypes ≠ none then .error typesWithAppend
    else .ok {
      rowNames := rowNames
      overwrite := overwrite
      append := append
      fieldTypes := fieldTypes
      temporary := temporary
      exclusive := both
      untyped := fun appends => not_not.mp (fun given => typed ⟨appends, given⟩) }

/-- The arguments that `read.table()` gets to derive column types. -/
structure ReadArguments where
  sep : Bytes
  header : Bool
  skip : Int
  nrows : Int
  colClasses : List (Option String)

/-- `field.types` of the file variant is not checked. -/
structure FileArguments where
  fieldTypes : Option (List (String × String))
  overwrite : Logical
  append : Logical
  header : Bool
  colClasses : List (Option String)
  nrows : Int
  sep : Bytes
  eol : Bytes
  skip : Int
  temporary : Logical

/-- What the connection runs on: SQLite, R's strings, functions of DBI and utils, files,
and the memory that lines are read into. -/
structure Session (DB χ : Type) where
  engine : Engine DB
  strings : Strings χ
  extendedTypes : Bool
  sqlRownamesToColumn : Frame χ → RowNames → Except String (Frame χ)
  pathExpand : String → String
  contents : String → Option Bytes
  readTable : String → ReadArguments → Except String (Frame χ)
  memory : Nat → Nat → UInt8

variable {DB χ : Type} (session : Session DB χ)

def liftR {α : Type} : Except String α → Call DB α
  | .ok a => pure a
  | .error message => throw (.stop message)

/-- `if (x)`. -/
def condition : Logical → Call DB Bool
  | some value => pure value
  | none => throw (.stop missingLogical)

/-- `if (x) stop(message)`. -/
def stopIf (x : Bool) (message : String) : Call DB Unit :=
  if x then throw (.stop message) else pure ()

def query {α : Type} (read : DB → Except String α) : Call DB α := do
  let s ← get
  liftR (read s.db)

def dbExistsTable (name : String) : Call DB Bool := query (session.engine.existsTable name)

def dbListFields (name : String) : Call DB (List String) :=
  query (session.engine.listFields name)

def dbRemoveTable (name : String) : Call DB Unit :=
  discard (dbExecute session.engine (.data (.dropTable name)))

def dbCreateTable (name : String) (fields : List (String × String)) (temporary : Logical) :
    Call DB Unit :=
  discard (dbExecute session.engine (.data (.createTable name fields temporary)))

/-- The body runs inside a savepoint of its own and is committed before the handler goes. -/
def inSavepoint (savepointId : String) (body : Call DB Unit) : Call DB Unit := do
  dbBegin session.engine (some savepointId)
  onExit (dbRollback session.engine (some savepointId)) (do
    body
    dbCommit session.engine (some savepointId))

/-- An existing table must be overwritten or appended to, and is dropped to be overwritten. -/
def replaceTable (name : String) (found : Bool) (overwrite append : Logical) : Call DB Unit := do
  let refused ← condition (.and (.and (some found) overwrite.not) append.not)
  stopIf refused (tableExists name)
  let dropped ← condition (.and (some found) overwrite)
  if dropped then dbRemoveTable session name else pure ()

def sqlData (value : Frame χ) (rowNames : RowNames) : Except String (Frame χ) :=
  (session.sqlRownamesToColumn value (compatRowNames rowNames)).map (Frame.sqlData session.strings)

def cannotPassNA : String := "Cannot pass NA to dbQuoteIdentifier()"

/-- The names of the fields are quoted, which refuses `NA`. -/
def quotable (fields : List (Option (String × String))) :
    Except String (List (String × String)) :=
  fields.mapM (fun field => field.elim (.error cannotPassNA) .ok)

/-- A new table is created for the data; the columns of an existing one are matched. -/
def createOrMatch (name : String) (value : Frame χ) (created : Bool) (a : CheckedArguments) :
    Call DB (Frame χ) :=
  if created then do
    let (_, fields) ← liftR (fieldDef session.strings.tolower session.extendedTypes value
      (a.fieldTypes.getD []))
    let fields ← liftR (quotable fields)
    dbCreateTable session name fields a.temporary
    pure value
  else if a.append then do
    let colNames ← dbListFields session name
    let (_, names) ← liftR (matchCol session.strings.tolower value.names colNames)
    pure (value.withNames names)
  else pure value

def writeFrame (pid random name : String) (value : Frame χ) (a : CheckedArguments) :
    Call DB Unit := do
  let found ← dbExistsTable session name
  replaceTable session name found (some a.overwrite) (some a.append)
  let value ← liftR (sqlData session value a.rowNames)
  let value ← createOrMatch session name value (!found || a.overwrite) a
  if 0 < value.nrow then
    discard (dbAppendTable session.engine session.strings pid random name value)
  else pure ()

/-- The types of a table for a file: those of its first lines, if none are given. -/
def fileFields (path : String) (a : FileArguments) : Except String (List (String × String)) :=
  match a.fieldTypes with
  | some fields => .ok fields
  | none => do
      let lines ← session.readTable path ⟨a.sep, a.header, a.skip, a.nrows, a.colClasses⟩
      dbDataTypes session.extendedTypes lines.columns

def createForFile (name path : String) (created : Bool) (a : FileArguments) : Call DB Unit :=
  if created then do
    let fields ← liftR (fileFields session path a)
    dbCreateTable session name fields a.temporary
  else pure ()

def writeFile (name path : String) (a : FileArguments) : Call DB Unit := do
  let found ← dbExistsTable session name
  replaceTable session name found a.overwrite a.append
  let created ← condition (.or (some !found) a.overwrite)
  createForFile session name path created a
  discard (rsSqliteImport session.engine session.memory name path (session.contents path) a.sep
    a.eol (a.skip + if a.header then 1 else 0))

/-- A data frame or the name of a file, with the arguments of its method. -/
inductive WriteValue (χ : Type)
  | frame (value : Frame χ) (arguments : FrameArguments)
  | file (path : String) (arguments : FileArguments)

/-- `dbWriteTable()`. The random suffixes are those of its own savepoint and of the one of
`dbAppendTable()`. -/
def dbWriteTable (pid random random' name : String) : WriteValue χ → Call DB Unit
  | .frame value arguments => do
      let a ← liftR (checkArguments arguments)
      inSavepoint session (getSavepointId "dbWriteTable" pid random)
        (writeFrame session pid random' name value a)
  | .file path arguments => do
      let both ← condition (.and arguments.overwrite arguments.append)
      stopIf both bothTrue
      inSavepoint session (getSavepointId "dbWriteTable" pid random)
        (writeFile session name (session.pathExpand path) arguments)

end RSQLite
