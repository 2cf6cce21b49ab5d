import RSQLite.Sqlite.Value

/-!
The reader of CSV text: its input buffer, the buffer for a field, and one field. A `char` is
signed, and so is the first byte of the input buffer after it has been refilled.
-/
namespace RSQLite.Csv

inductive CsvExit
  | outOfBounds
  | assertion
  | outOfFuel
deriving DecidableEq, Repr

abbrev Reading := Except CsvExit

def csvInBufSz : Nat := 1024

def eof : Int := -1

/-- The `FILE` that a reader has open, with its position. -/
structure CsvFile where
  contents : Bytes
  position : Nat
deriving DecidableEq, Repr

/-- `struct CsvReader`. The first `n` bytes of `z` are known, and it is null if `nAlloc` is 0. No
function reads `attempts`, which counts the allocations that have been tried. -/
structure CsvReader where
  input : Option CsvFile
  z : Bytes
  nAlloc : Nat
  nLine : Nat
  bNotFirst : Bool
  cTerm : Int
  iIn : Nat
  zIn : Bytes
  zErr : String
  attempts : Nat
deriving DecidableEq, Repr

def csvReaderInit : CsvReader := ⟨none, [], 0, 0, false, 0, 0, [], "", 0⟩

/-- What is converted to a `char` and back to an `int`. -/
def signed (b : UInt8) : Int := if b.toNat < 128 then b.toNat else b.toNat - 256

def char (c : Int) : UInt8 := UInt8.ofNat (c % 256).toNat

def csvGetcRefill (p : CsvReader) (file : CsvFile) : Int × CsvReader :=
  match (file.contents.drop file.position).take csvInBufSz with
  | [] => (eof, p)
  | b :: got =>
      (signed b, { p with
        input := some { file with position := file.position + (b :: got).length }
        zIn := b :: got, iIn := 1 })

def csvGetc (p : CsvReader) : Int × CsvReader :=
  match p.zIn[p.iIn]? with
  | some b => (b.toNat, { p with iIn := p.iIn + 1 })
  | none =>
      match p.input with
      | some file => csvGetcRefill p file
      | none => (eof, p)

def CsvReader.ahead (p : CsvReader) : Bytes :=
  p.zIn.drop p.iIn ++ p.input.elim [] fun file => file.contents.drop file.position

/-- Whether an allocation succeeds: the first argument is the number of those before it, the second
one its size. -/
abbrev Memory := Nat → Nat → Bool

def CsvReader.allocates (memory : Memory) (p : CsvReader) (size : Nat) : Bool × CsvReader :=
  (memory p.attempts size, { p with attempts := p.attempts + 1 })

def csvErrmsg (p : CsvReader) (zErr : String) : CsvReader := { p with zErr := zErr }

/-- `p->z[p->n++] = c` -/
def store (p : CsvReader) (c : UInt8) : Reading CsvReader :=
  if p.z.length < p.nAlloc then .ok { p with z := p.z ++ [c] } else .error .outOfBounds

def csvResizeAndAppend (memory : Memory) (p : CsvReader) (c : UInt8) :
    Reading (Bool × CsvReader) :=
  let nNew := p.nAlloc * 2 + 100
  let (zNew, p) := p.allocates memory nNew
  if zNew then do
    let p ← store { p with nAlloc := nNew } c
    .ok (true, p)
  else .ok (false, csvErrmsg p "out of memory")

/-- The result tells whether there is no error. -/
def csvAppend (memory : Memory) (p : CsvReader) (c : UInt8) : Reading (Bool × CsvReader) :=
  if p.nAlloc ≤ p.z.length + 1 then csvResizeAndAppend memory p c
  else do
    let p ← store p c
    .ok (true, p)

def quote : UInt8 := 34

def comma : UInt8 := 44

def newline : UInt8 := 10

def return_ : UInt8 := 13

/-- `do{ p->n--; }while( p->z[p->n]!='"' )` -/
def trimQuote (z : Bytes) : Reading Bytes :=
  match z.reverse.dropWhile (· ≠ quote) with
  | [] => .error .outOfBounds
  | _ :: before => .ok before.reverse

/-- `%d` of a number of 64 bits. -/
def lineNumber (n : Nat) : String := toString (Int32.ofNat n).toInt

/-- The loop in a quoted field. The result tells whether the field is complete, or else its memory
has run out. -/
def quotedField (memory : Memory) (startLine : Nat) :
    Nat → CsvReader → Int → Int → Reading (Bool × CsvReader)
  | 0, _, _, _ => .error .outOfFuel
  | fuel + 1, p, pc, ppc =>
      let (c, p) := csvGetc p
      if c ≤ 34 ∨ pc = 34 then
        let p := if c = 10 then { p with nLine := p.nLine + 1 } else p
        if c = 34 ∧ pc = 34 then quotedField memory startLine fuel p 0 ppc
        else if (c = 44 ∧ pc = 34) ∨ (c = 10 ∧ pc = 34) ∨ (c = 10 ∧ pc = 13 ∧ ppc = 34) ∨
            (c = eof ∧ pc = 34) then do
          let z ← trimQuote p.z
          .ok (true, { p with z := z, cTerm := signed (char c) })
        else if pc = 34 ∧ c ≠ 13 then
          .ok (true, csvErrmsg p ("line " ++ lineNumber p.nLine ++ ": unescaped \" character"))
        else if c = eof then
          .ok (true, { csvErrmsg p ("line " ++ lineNumber startLine ++
            ": unterminated \"-quoted field\n") with cTerm := signed (char c) })
        else do
          let (fits, p) ← csvAppend memory p (char c)
          if fits then quotedField memory startLine fuel p c pc else .ok (false, p)
      else do
        let (fits, p) ← csvAppend memory p (char c)
        if fits then quotedField memory startLine fuel p c pc else .ok (false, p)

/-- The loop in a field that is not quoted, from its character `c` on. -/
def bareField (memory : Memory) : Nat → CsvReader → Int → Reading (Bool × CsvReader × Int)
  | 0, _, _ => .error .outOfFuel
  | fuel + 1, p, c =>
      if 44 < c ∨ (c ≠ eof ∧ c ≠ 44 ∧ c ≠ 10) then do
        let (fits, p) ← csvAppend memory p (char c)
        if fits then
          let (c, p) := csvGetc p
          bareField memory fuel p c
        else .ok (false, p, c)
      else .ok (true, p, c)

/-- The end of a field that is not quoted. -/
def endBare (p : CsvReader) (c : Int) : CsvReader :=
  let p := if c = 10 then
      { p with nLine := p.nLine + 1, z := if p.z.getLast? = some return_ then p.z.dropLast else p.z }
    else p
  { p with cTerm := signed (char c) }

/-- `p->z[p->n] = 0`, and what is returned, that may be null. -/
def endField (p : CsvReader) : Reading (Bool × CsvReader) :=
  if p.nAlloc = 0 then .ok (false, { p with bNotFirst := true })
  else if p.z.length < p.nAlloc then .ok (true, { p with bNotFirst := true })
  else .error .assertion

/-- A field that is not quoted. -/
def bareRest (memory : Memory) (p : CsvReader) (c : Int) : Reading (Bool × CsvReader) := do
  let (fits, p, c) ← bareField memory (p.ahead.length + 2) p c
  if fits then endField (endBare p c) else .ok (false, p)

/-- A field behind its first character, if that is not the start of a byte order mark. -/
def fieldFrom (memory : Memory) (p : CsvReader) (c : Int) : Reading (Bool × CsvReader) :=
  if c = eof then .ok (false, { p with cTerm := eof })
  else if c = 34 then do
    let (fits, p) ← quotedField memory p.nLine (p.ahead.length + 2) p 0 0
    if fits then endField p else .ok (false, p)
  else bareRest memory p c

/-- `csv_read_one_field()`. The result tells whether there is a field. With a byte order mark it
calls itself once, because the mark is only skipped in front of all other text. -/
def csvReadOneField (memory : Memory) (p : CsvReader) : Reading (Bool × CsvReader) :=
  let (c, p) := csvGetc { p with z := [] }
  if c % 256 = 0xef ∧ p.bNotFirst = false then do
    let (_, p) ← csvAppend memory p (char c)
    let (c, p) := csvGetc p
    if c % 256 = 0xbb then
      let (_, p) ← csvAppend memory p (char c)
      let (c, p) := csvGetc p
      if c % 256 = 0xbf then
        let (c, p) := csvGetc { p with bNotFirst := true, z := [] }
        fieldFrom memory p c
      else bareRest memory p c
    else bareRest memory p c
  else fieldFrom memory p c

end RSQLite.Csv
