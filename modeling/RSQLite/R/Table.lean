import RSQLite.Library.Keyed
import RSQLite.R.Frame

/-!
Matching the columns of a data frame with those of a table, and the declared types of a
table that is created for a data frame.
-/
namespace RSQLite

def matchedIgnoringCase : String := "Column names will be matched ignoring character case"

def columnsNotFound (names : List String) : String :=
  "Columns " ++ ", ".intercalate (names.map (fun name => "`" ++ name ++ "`")) ++ " not found"

/-- `match_col()`: the warnings, and the names that the value has afterwards. -/
def matchCol (tolower : String → String) (names colNames : List String) :
    Except String (List String × List String) :=
  if colNames.length = names.length ∧ names ≠ colNames ∧
      names.map tolower = colNames.map tolower then
    .ok ([matchedIgnoringCase], colNames)
  else if names.all (fun name => name ∈ colNames) then .ok ([], names)
  else .error (columnsNotFound (names.filter (fun name => name ∉ colNames)).eraseDups)

variable {χ : Type}

/-- `dbDataType()` of a column. -/
def FrameColumn.dataType (extendedTypes : Bool) (column : FrameColumn χ) :
    Except String String :=
  match column.value with
  | .factor _ _ => .ok "TEXT"
  | .vector (.integer64 _) => .ok "INTEGER"
  | value =>
      if extendedTypes && "Date" ∈ column.classes then .ok "DATE"
      else if extendedTypes && "POSIXct" ∈ column.classes then .ok "TIMESTAMP"
      else if extendedTypes && "hms" ∈ column.classes then .ok "TIME"
      else match value with
        | .vector (.int _) => .ok "INTEGER"
        | .vector (.dbl _) => .ok "REAL"
        | .character _ | .vector (.str _) => .ok "TEXT"
        | .vector (.lgl _) => .ok "INTEGER"
        | .vector (.list _) => .ok "BLOB"
        | .raw _ => .ok "TEXT"
        | .factor _ _ | .vector (.integer64 _) | .vector (.other _ _) => .error "Unsupported type"

def dbDataTypes (extendedTypes : Bool) (columns : List (FrameColumn χ)) :
    Except String (List (String × String)) :=
  columns.mapM (fun column => (column.dataType extendedTypes).map (Prod.mk column.name))

/-- The first column of a name. An empty name matches nothing, not even an empty name. -/
def Frame.column? (data : Frame χ) (name : String) : Option (FrameColumn χ) :=
  if name = "" then none else data.columns.find? (fun column => column.name = name)

def undefinedColumns : String := "undefined columns selected"

/-- `data[names]`. -/
def Frame.select (data : Frame χ) (names : List String) : Except String (List (FrameColumn χ)) :=
  names.mapM (fun name => (data.column? name).elim (.error undefinedColumns) .ok)

/-- `x[names]` of a named vector. A name that matches nothing gives an `NA`, named `NA`. -/
def subsetNamed (x : List (String × String)) (names : List String) :
    List (Option (String × String)) :=
  names.map (fun name => if name = "" then none else (Keyed.lookup x name).map (Prod.mk name))

/-- `field_def()`, with its warnings. The names that `match_col()` returns are not used. -/
def fieldDef (tolower : String → String) (extendedTypes : Bool) (data : Frame χ)
    (fieldTypes : List (String × String)) :
    Except String (List String × List (Option (String × String))) := do
  let (warnings, _) ← matchCol tolower (fieldTypes.map Prod.fst) data.names
  let others := (data.names.filter (fun name => name ∉ fieldTypes.map Prod.fst)).eraseDups
  let selected ← data.select others
  let autoFieldTypes ← dbDataTypes extendedTypes selected
  .ok (warnings, subsetNamed (fieldTypes ++ autoFieldTypes) data.names)

end RSQLite
