import RSQLite.Connection.Transaction

/-!
`RS_sqlite_import()`: a file is read line by line, each line is split at the separator,
and its fields are inserted as a row. What a buffer holds beyond the bytes that have been
written is that of the memory it was allocated in.
-/
namespace RSQLite

/-- The string at the start of a buffer of `nc` cells. Reading on where no cell is zero is
a fault. -/
def bufferString (memory : Nat → UInt8) (buf : Bytes) (nc : Nat) : Outcome Bytes :=
  let cells := buf ++ (List.range' buf.length (nc - buf.length)).map memory
  if 0 ∈ cells then .ok (cString cells) else .error .outOfBounds

/-- The comparison of the last bytes with `eol`, from the index `j` down. -/
def matchesEol (buf eol : Bytes) : Nat → Outcome Bool
  | 0 => .ok true
  | j + 1 =>
      if buf.length - 1 < j + 1 then .error .outOfBounds
      else if buf[buf.length - 1 - (j + 1)]? ≠ eol[eol.length - 1 - (j + 1)]? then .ok false
      else matchesEol buf eol j

/-- An empty line is `NULL`, like the end of the file. -/
def nonempty (line : Bytes) : Option Bytes := if line = [] then none else some line

/-- The bytes up to `eol`, and the rest of the file. The byte that is read is not negative,
and a `char` from 128 on is, so that the two are not equal. -/
def getlineLoop (memory : Nat → UInt8) (eol : Bytes) (ceol : UInt8) :
    Bytes → Bytes → Nat → Outcome (Option Bytes × Bytes)
  | [], buf, nc =>
      if buf = [] then .ok (none, [])
      else do
        let line ← bufferString memory buf (if buf.length = nc then 2 * nc else nc)
        .ok (nonempty line, [])
  | c :: file, buf, nc =>
      let nc := if buf.length = nc then 2 * nc else nc
      if c = ceol ∧ c < 128 then do
        let foundEol ← matchesEol (buf ++ [c]) eol (eol.length - 1)
        if foundEol then
          .ok (nonempty (cString ((buf ++ [c]).take ((buf ++ [c]).length - eol.length))), file)
        else getlineLoop memory eol ceol file (buf ++ [c]) nc
      else getlineLoop memory eol ceol file (buf ++ [c]) nc

/-- `RS_sqlite_getline()`. The last byte of an empty `eol` lies outside. -/
def getline (memory : Nat → UInt8) (eol file : Bytes) : Outcome (Option Bytes × Bytes) :=
  match eol.getLast? with
  | none => .error .outOfBounds
  | some ceol => getlineLoop memory eol ceol file [] 1024

theorem getlineLoop_rest (memory : Nat → UInt8) (eol : Bytes) (ceol : UInt8) (file : Bytes) :
    ∀ (buf : Bytes) (nc : Nat) (line : Option Bytes) (rest : Bytes),
      getlineLoop memory eol ceol file buf nc = .ok (line, rest) →
        rest.length ≤ file.length - 1 := by
  induction file with
  | nil =>
      intro buf nc line rest read
      rw [getlineLoop] at read
      split at read
      · cases read
        exact Nat.le_refl 0
      · cases string : bufferString memory buf (if buf.length = nc then 2 * nc else nc) with
        | error f =>
            rw [string] at read
            cases read
        | ok line' =>
            rw [string] at read
            cases read
            exact Nat.le_refl 0
  | cons c file ih =>
      intro buf nc line rest read
      have later : ∀ nc, getlineLoop memory eol ceol file (buf ++ [c]) nc = .ok (line, rest) →
          rest.length ≤ (c :: file).length - 1 := fun nc read =>
        Nat.le_trans (ih _ nc line rest read) (Nat.sub_le _ _)
      rw [getlineLoop] at read
      split at read
      · cases found : matchesEol (buf ++ [c]) eol (eol.length - 1) with
        | error f =>
            rw [found] at read
            cases read
        | ok foundEol =>
            rw [found] at read
            cases foundEol with
            | true =>
                cases read
                exact Nat.le_refl _
            | false => exact later _ read
      · exact later _ read

theorem getline_rest (memory : Nat → UInt8) (eol file line rest : Bytes)
    (read : getline memory eol file = .ok (some line, rest)) : rest.length < file.length := by
  rw [getline] at read
  split at read
  · cases read
  · have shorter := getlineLoop_rest memory eol _ file [] 1024 (some line) rest read
    cases file with
    | nil => cases read
    | cons c file => exact Nat.lt_succ_of_le shorter

theorem bufferString_error (memory : Nat → UInt8) (buf : Bytes) (nc : Nat) (f : Fault)
    (failed : bufferString memory buf nc = .error f) : f = .outOfBounds := by
  rw [bufferString] at failed
  split at failed
  · cases failed
  · exact (Except.error.inj failed).symm

theorem matchesEol_error (buf eol : Bytes) (j : Nat) (f : Fault)
    (failed : matchesEol buf eol j = .error f) : f = .outOfBounds := by
  induction j with
  | zero => cases failed
  | succ j ih =>
      rw [matchesEol] at failed
      split at failed
      · exact (Except.error.inj failed).symm
      · split at failed
        · cases failed
        · exact ih failed

theorem getlineLoop_error (memory : Nat → UInt8) (eol : Bytes) (ceol : UInt8) (file : Bytes)
    (f : Fault) :
    ∀ buf nc, getlineLoop memory eol ceol file buf nc = .error f → f = .outOfBounds := by
  induction file with
  | nil =>
      intro buf nc failed
      rw [getlineLoop] at failed
      split at failed
      · cases failed
      · cases string : bufferString memory buf (if buf.length = nc then 2 * nc else nc) with
        | error f' =>
            rw [string] at failed
            cases failed
            exact bufferString_error _ _ _ _ string
        | ok line =>
            rw [string] at failed
            cases failed
  | cons c file ih =>
      intro buf nc failed
      rw [getlineLoop] at failed
      split at failed
      · cases found : matchesEol (buf ++ [c]) eol (eol.length - 1) with
        | error f' =>
            rw [found] at failed
            cases failed
            exact matchesEol_error _ _ _ _ found
        | ok foundEol =>
            rw [found] at failed
            cases foundEol with
            | true => cases failed
            | false => exact ih _ _ failed
      · exact ih _ _ failed

theorem getline_error (memory : Nat → UInt8) (eol file : Bytes) (f : Fault)
    (failed : getline memory eol file = .error f) : f = .outOfBounds := by
  rw [getline] at failed
  split at failed
  · exact (Except.error.inj failed).symm
  · exact getlineLoop_error memory eol _ file f [] 1024 failed

/-- The loop over one line: the number of separators, and the texts between them. Past the
last column, separators are counted only, and what follows one is not skipped. A line
break ends the search and stays in the last text. A line is taken to have fewer than 2^31
separators, which the `int` counts. -/
def splitLine (separator : Bytes) (nCol : Nat) :
    Bytes → Nat → Nat → Bytes → List Bytes → Nat × List Bytes
  | [], _, i, text, texts => (i, texts ++ [text])
  | _ :: line, skip + 1, i, text, texts => splitLine separator nCol line skip i text texts
  | c :: line, 0, i, text, texts =>
      if c = 10 ∨ c = 13 then (i, texts ++ [text ++ c :: line])
      else if separator.isPrefixOf (c :: line) then
        splitLine separator nCol line (if i + 1 < nCol then separator.length - 1 else 0) (i + 1) []
          (texts ++ [text])
      else splitLine separator nCol line 0 i (text ++ [c]) texts

/-- A text that begins with a backslash and an N is inserted as NULL. -/
def importedValue : Bytes → SqlValue
  | 0x5C :: 0x4E :: _ => .null
  | text => .text text

variable {DB : Type}

/-- The import works on the prepared `INSERT`. -/
abbrev Import (DB : Type) := EStateM Fault (Handles (Connection DB))

def importError (message : String) : String := "RS_sqlite_import: " ++ message

def expectedColumns (zFile : String) (lineno : Int32) (nCol found : Nat) : String :=
  importError (zFile ++ " line " ++ toString lineno ++ " expected " ++ toString nCol ++
    " columns of data but found " ++ toString found)

def bindTexts : Nat → List Bytes → Handles (Connection DB) → Handles (Connection DB)
  | _, [], h => h
  | i, text :: texts, h => bindTexts (i + 1) texts (h.bind (i + 1) (importedValue text))

/-- One row: the texts are bound, and the statement is stepped and reset. -/
def importRow (texts : List Bytes) : Import DB Unit := do
  modify (bindTexts 0 texts)
  let h ← get
  set h.step.2
  match h.step.1 with
  | .done => modify Handles.reset
  | .row => throw (.stop (importError "another row available"))
  | .error message => throw (.stop (importError message))

def importLine (zFile : String) (separator : Bytes) (nCol lineno : Nat) (line : Bytes) :
    Import DB Unit := do
  let (i, texts) := splitLine separator nCol line 0 0 [] []
  if i + 1 ≠ nCol then throw (.stop (expectedColumns zFile (Int32.ofNat lineno) nCol (i + 1)))
  else importRow texts

/-- The first lines are read and skipped. `lineno` is an `int` and wraps. -/
def importUnskipped (zFile : String) (separator : Bytes) (skip : Int) (nCol lineno : Nat)
    (line : Bytes) : Import DB Unit :=
  if (Int32.ofNat lineno).toInt ≤ skip then pure () else importLine zFile separator nCol lineno line

/-- `while ((zLine = RS_sqlite_getline(in, eol)) != NULL)`. Every line is read into memory of
its own. The number of rounds is bounded by the length of the file. -/
def importLoop (memory : Nat → Nat → UInt8) (zFile : String) (separator eol : Bytes) (skip : Int)
    (nCol : Nat) : Nat → Nat → Bytes → Import DB Unit
  | 0, _, _ => throw .unfinished
  | rounds + 1, lineno, file =>
      match getline (memory lineno) eol file with
      | .error f => throw f
      | .ok (none, _) => pure ()
      | .ok (some line, rest) => do
          importUnskipped zFile separator skip nCol (lineno + 1) line
          importLoop memory zFile separator eol skip nCol rounds (lineno + 1) rest

theorem importRow_run (texts : List Bytes) (h : Handles (Connection DB)) :
    (importRow texts).run h = (match (bindTexts 0 texts h).step.1 with
      | .done => modify Handles.reset
      | .row => throw (.stop (importError "another row available"))
      | .error message => throw (.stop (importError message)) : Import DB Unit).run
        (bindTexts 0 texts h).step.2 := rfl

theorem importRow_error (texts : List Bytes) (h h' : Handles (Connection DB)) (f : Fault)
    (failed : (importRow texts).run h = .error f h') : ∃ message, f = .stop message := by
  rw [importRow_run] at failed
  cases stepped : (bindTexts 0 texts h).step.1 with
  | done =>
      rw [stepped] at failed
      cases failed
  | row =>
      rw [stepped] at failed
      cases failed
      exact ⟨_, rfl⟩
  | error message =>
      rw [stepped] at failed
      cases failed
      exact ⟨_, rfl⟩

theorem importUnskipped_error (zFile : String) (separator : Bytes) (skip : Int) (nCol lineno : Nat)
    (line : Bytes) (h h' : Handles (Connection DB)) (f : Fault)
    (failed : (importUnskipped zFile separator skip nCol lineno line).run h = .error f h') :
    ∃ message, f = .stop message := by
  rw [importUnskipped] at failed
  split at failed
  · cases failed
  · rw [importLine] at failed
    generalize splitLine separator nCol line 0 0 [] [] = fields at failed
    simp only at failed
    split at failed
    · cases failed
      exact ⟨_, rfl⟩
    · exact importRow_error fields.2 h h' f failed

/-- As many rounds as the file has bytes, and one more, are enough. -/
theorem importLoop_finishes (memory : Nat → Nat → UInt8) (zFile : String) (separator eol : Bytes)
    (skip : Int) (nCol rounds : Nat) :
    ∀ (lineno : Nat) (file : Bytes) (h h' : Handles (Connection DB)), file.length < rounds →
      (importLoop memory zFile separator eol skip nCol rounds lineno file).run h ≠
        .error .unfinished h' := by
  induction rounds with
  | zero => exact fun _ file _ _ enough => absurd enough (Nat.not_lt_zero _)
  | succ rounds ih =>
      intro lineno file h h' enough failed
      rw [importLoop] at failed
      split at failed
      · next f read =>
          cases failed
          cases getline_error _ _ _ _ read
      · cases failed
      · next line rest read =>
          rw [EStateM.run_bind] at failed
          cases run : (importUnskipped zFile separator skip nCol (lineno + 1) line).run h with
          | ok _ h'' =>
              rw [run] at failed
              have shorter := getline_rest _ _ _ _ _ read
              exact ih (lineno + 1) rest h'' h' (by omega) failed
          | error f h'' =>
              rw [run] at failed
              cases failed
              obtain ⟨message, stopped⟩ := importUnskipped_error _ _ _ _ _ _ _ _ _ run
              cases stopped

/-- The connection after the statement of the import is finalized. -/
def finalizeImport : EStateM.Result Fault (Handles (Connection DB)) Unit →
    EStateM.Result Fault (Connection DB) Bool
  | .ok _ h => .ok true h.finalize.database
  | .error f h => .error f h.finalize.database

/-- A table without columns is not an error. Where the file cannot be opened, the stream
that is closed is `NULL`. -/
def rsSqliteImport (engine : Engine DB) (memory : Nat → Nat → UInt8) (zTable zFile : String)
    (contents : Option Bytes) (separator eol : Bytes) (skip : Int) : Call DB Bool := fun s =>
  if separator = [] then
    .error (.stop (importError "non-null separator required for import")) s
  else match engine.columnCount zTable s.db with
    | .error message => .error (.stop (importError message)) s
    | .ok nCol =>
        if nCol = 0 then .ok false s
        else match prepareSql engine s (.data (.insertValues zTable nCol)) with
          | .error message => .error (.stop (importError message)) s
          | .ok program =>
              match contents with
              | none => .error .outOfBounds s
              | some file => finalizeImport
                  ((importLoop memory zFile separator eol skip nCol (file.length + 1) 0 file).run
                    (Handles.prepare program s 0))

end RSQLite
