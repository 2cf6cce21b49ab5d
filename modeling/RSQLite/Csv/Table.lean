import RSQLite.Csv.Reader

/-!
Virtual tables of CSV text, and their cursors. The blocks of a cursor hold the values of its row.
-/
namespace RSQLite.Csv

inductive CsvSource
  | file (contents : Bytes)
  | data (zData : Bytes)
deriving DecidableEq, Repr

structure CsvTable where
  source : CsvSource
  iStart : Nat
  nCol : Nat
deriving DecidableEq, Repr

/-- `struct CsvCursor`, with the `zErrMsg` of its table. -/
structure CsvCursor where
  rdr : CsvReader
  azVal : List (Option Bytes)
  aLen : List Nat
  iRowid : Int
  zErrMsg : Option String
deriving DecidableEq, Repr

/-- `csv_reader_open()` of a file that exists, or of data. The result tells whether there is
memory. -/
def csvReaderOpen (memory : Memory) (p : CsvReader) : CsvSource → Bool × CsvReader
  | .file contents =>
      let (zIn, p) := p.allocates memory csvInBufSz
      if zIn then (true, { p with input := some ⟨contents, 0⟩ })
      else (false, csvErrmsg p "out of memory")
  | .data zData => (true, { p with zIn := zData.takeWhile (· ≠ 0) })

/-- `sizeof(CsvCursor)`, where pointers have 64 bits. -/
def sizeofCursor : Nat := 304

/-- `csvtabOpen()`: there is no cursor if the memory runs out. -/
def csvtabOpen (memory : Memory) (t : CsvTable) : Reading (Option CsvCursor) :=
  if t.nCol < 32768 then
    let (pCur, rdr) := csvReaderInit.allocates memory (sizeofCursor + 16 * t.nCol)
    if pCur then
      let (opened, rdr) := csvReaderOpen memory rdr t.source
      if opened then
        .ok (some ⟨rdr, List.replicate t.nCol none, List.replicate t.nCol 0, 0, none⟩)
      else .ok none
    else .ok none
  else .error .assertion

/-- `sqlite3_realloc64()`, with zeros for what is not known of a block. -/
def resized (block : Option Bytes) (n : Nat) : Bytes :=
  ((block.getD []) ++ List.replicate n 0).take n

/-- The block of a column gets the value in the reader, with the zero behind it. -/
def copyField (p : CsvCursor) (i : Nat) (block : Option Bytes) (len : Nat) :
    Reading (Bool × CsvCursor) :=
  let n := p.rdr.z.length
  match block with
  | none => .error .outOfBounds
  | some block =>
      if n + 1 ≤ block.length ∧ n < p.rdr.nAlloc then
        .ok (true, { p with
          azVal := p.azVal.set i (some (p.rdr.z ++ 0 :: block.drop (n + 1)))
          aLen := p.aLen.set i len })
      else .error .outOfBounds

def csvXferError (memory : Memory) (p : CsvCursor) : CsvCursor :=
  let (message, rdr) := p.rdr.allocates memory (p.rdr.zErr.length + 1)
  { p with rdr := rdr, zErrMsg := if message then some p.rdr.zErr else none }

/-- The value in the reader becomes the value of a column. The result tells whether there is
memory. -/
def storeField (memory : Memory) (p : CsvCursor) (i : Nat) : Reading (Bool × CsvCursor) :=
  let n := p.rdr.z.length
  match p.azVal[i]?, p.aLen[i]? with
  | some block, some len =>
      if len < n + 1 then
        let (zNew, rdr) := p.rdr.allocates memory (n + 1)
        if zNew then copyField { p with rdr := rdr } i (some (resized block (n + 1))) (n + 1)
        else .ok (false, csvXferError memory { p with rdr := csvErrmsg rdr "out of memory" })
      else copyField p i block len
  | _, _ => .error .outOfBounds

/-- The fields of a row. The result tells whether the last of them exists, and how many columns
have got values. -/
def rowFields (memory : Memory) (t : CsvTable) :
    Nat → CsvCursor → Nat → Reading (Bool × CsvCursor × Nat)
  | 0, _, _ => .error .outOfFuel
  | fuel + 1, p, i => do
      let (z, rdr) ← csvReadOneField memory p.rdr
      let p := { p with rdr := rdr }
      if z then
        if i < t.nCol then
          let (fits, p) ← storeField memory p i
          if fits then
            if p.rdr.cTerm = 44 then rowFields memory t fuel p (i + 1) else .ok (true, p, i + 1)
          else .ok (true, p, i)
        else if p.rdr.cTerm = 44 then rowFields memory t fuel p i
        else .ok (true, p, i)
      else .ok (false, p, i)

/-- The next `n` columns from `i` on get empty values, or none if there is no memory. -/
def emptyFrom (memory : Memory) : Nat → CsvCursor → Nat → Reading CsvCursor
  | 0, p, _ => .ok p
  | n + 1, p, i =>
      if i < p.azVal.length ∧ i < p.aLen.length then
        let (z, rdr) := p.rdr.allocates memory 1
        emptyFrom memory n { p with
          rdr := rdr
          azVal := p.azVal.set i (if z then some [0] else none)
          aLen := p.aLen.set i 0 } (i + 1)
      else .error .outOfBounds

def csvtabNext (memory : Memory) (t : CsvTable) (p : CsvCursor) : Reading CsvCursor := do
  let (z, p, i) ← rowFields memory t (p.rdr.ahead.length + 2) p 0
  if z = false ∧ i = 0 then .ok { p with iRowid := -1 }
  else emptyFrom memory (t.nCol - i) { p with iRowid := p.iRowid + 1 } i

def csvtabEof (p : CsvCursor) : Bool := decide (p.iRowid < 0)

/-- The text up to the first zero, or NULL. -/
def csvtabColumn (t : CsvTable) (p : CsvCursor) (i : Int) : Reading (Option Bytes) :=
  if 0 ≤ i ∧ i < t.nCol then
    match p.azVal[i.toNat]? with
    | none => .error .outOfBounds
    | some none => .ok none
    | some (some block) =>
        if 0 ∈ block then .ok (some (block.takeWhile (· ≠ 0))) else .error .outOfBounds
  else .ok none

/-- Back to the start of the data. -/
def rewound (t : CsvTable) (p : CsvReader) : Reading CsvReader :=
  match p.input with
  | some file => .ok { p with input := some { file with position := t.iStart }, iIn := 0, zIn := [] }
  | none =>
      if t.iStart ≤ p.zIn.length then .ok { p with iIn := t.iStart } else .error .assertion

/-- `csvtabFilter()`. The result tells whether there is memory. -/
def csvtabFilter (memory : Memory) (t : CsvTable) (p : CsvCursor) : Reading (Bool × CsvCursor) := do
  let (fits, rdr) ← csvAppend memory p.rdr 0
  if fits then
    let rdr ← rewound t rdr
    let p ← csvtabNext memory t { p with rdr := rdr, iRowid := 0 }
    .ok (true, p)
  else .ok (false, { p with rdr := rdr, iRowid := 0 })

def csvtabRowid (p : CsvCursor) : Int := p.iRowid

/-- `csvtabCursorRowReset()`, from column `i` on. -/
def rowReset : Nat → CsvCursor → Nat → Reading CsvCursor
  | 0, p, _ => .ok p
  | n + 1, p, i =>
      if i < p.azVal.length ∧ i < p.aLen.length then
        rowReset n { p with azVal := p.azVal.set i none, aLen := p.aLen.set i 0 } (i + 1)
      else .error .outOfBounds

/-- `csvtabClose()`, up to the release of the cursor itself. -/
def csvtabClose (t : CsvTable) (p : CsvCursor) : Reading CsvCursor := do
  let p ← rowReset t.nCol p 0
  .ok { p with rdr := { csvReaderInit with attempts := p.rdr.attempts } }

/-- A row as it is delivered: its rowid and its columns. -/
def csvRow (t : CsvTable) (p : CsvCursor) : Reading (Int × List (Option Bytes)) := do
  let columns ← (List.range t.nCol).mapM fun (i : Nat) => csvtabColumn t p i
  .ok (csvtabRowid p, columns)

/-- The next `k` rows from the current one on, as SQLite reads them. -/
def csvRows (memory : Memory) (t : CsvTable) :
    Nat → CsvCursor → Reading (List (Int × List (Option Bytes)) × CsvCursor)
  | 0, p => .ok ([], p)
  | k + 1, p =>
      if csvtabEof p then .ok ([], p)
      else do
        let row ← csvRow t p
        let p ← csvtabNext memory t p
        let (rows, p) ← csvRows memory t k p
        .ok (row :: rows, p)

end RSQLite.Csv
