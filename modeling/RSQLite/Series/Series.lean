import RSQLite.Sqlite.Value

/-!
The table-valued function `generate_series()`: its cursor. Integers of 64 bits are integers, with
the operations that may leave their range written out. A failed `assert()` is an exit.
-/
namespace RSQLite.Series

def smallestInt64 : Int := -9223372036854775808

def largestInt64 : Int := 9223372036854775807

/-- The 64 bits of an integer, as a signed one. -/
def signed64 (x : Int) : Int := (x + 2 ^ 63) % 2 ^ 64 - 2 ^ 63

/-- The 64 bits of an integer, as an unsigned one. -/
def unsigned64 (x : Int) : Int := x % 2 ^ 64

inductive SeriesExit
  | noRows
  | assertion
  | outOfArguments
deriving DecidableEq, Repr

abbrev Filtering := Except SeriesExit

def span64 (a b : Int) : Filtering Int :=
  if b ≤ a then .ok (unsigned64 (a - b)) else .error .assertion

def add64 (a b : Int) : Int := signed64 (a + b)

def sub64 (a b : Int) : Int := signed64 (a - b)

/-- A REAL, with the infinities behind all integers of 64 bits. -/
def realNumber (r : SqlReal) : ℚ :=
  match r.value.toRat? with
  | some q => q
  | none => if r.value.negative then -2 ^ 64 else 2 ^ 64

def seriesRealToI64 (q : ℚ) : Int :=
  if q < -9223372036854774784 then smallestInt64
  else if 9223372036854774784 < q then largestInt64
  else Binary64.truncate q

def seriesIsTextOrBlob : SqlValue → Bool
  | .text _ | .blob _ => true
  | _ => false

structure SeriesCursor where
  iOBase : Int
  iOTerm : Int
  iOStep : Int
  iBase : Int
  iTerm : Int
  iStep : Int
  iValue : Int
  bDesc : Bool
  bDone : Bool
  bLimit : Bool
deriving DecidableEq, Repr

def seriesOpen : SeriesCursor := ⟨0, 0, 0, 0, 0, 0, 0, false, false, false⟩

def seriesNext (p : SeriesCursor) : Filtering SeriesCursor :=
  if p.iValue = p.iTerm then .ok { p with bDone := true }
  else if p.bDesc then
    let p := { p with iValue := sub64 p.iValue p.iStep }
    if p.iTerm ≤ p.iValue ∨ p.bLimit then .ok p else .error .assertion
  else
    let p := { p with iValue := add64 p.iValue p.iStep }
    if p.iValue ≤ p.iTerm ∨ p.bLimit then .ok p else .error .assertion

inductive SeriesColumn
  | rowid | value | start | stop | step
deriving DecidableEq, Repr

/-- `seriesColumn()` and `seriesRowid()`. -/
def seriesColumn (p : SeriesCursor) : SeriesColumn → Int
  | .start => p.iOBase
  | .stop => p.iOTerm
  | .step => p.iOStep
  | .rowid | .value => p.iValue

def seriesSteps (p : SeriesCursor) : Filtering Int := do
  if p.bDesc then
    let span ← span64 p.iBase p.iTerm
    .ok (span / p.iStep)
  else
    let span ← span64 p.iTerm p.iBase
    .ok (span / p.iStep)

/-- The bits of `idxNum`. -/
@[ext]
structure IdxNum where
  start : Bool
  stop : Bool
  step : Bool
  desc : Bool
  asc : Bool
  limit : Bool
  offset : Bool
  eq : Bool
  ge : Bool
  gt : Bool
  le : Bool
  lt : Bool
deriving DecidableEq, Repr

/-- `argv[iArg++]`, for a bit that is set. -/
def nextArg (bit : Bool) : List SqlValue → Filtering (Option SqlValue × List SqlValue)
  | argv =>
      if bit then
        match argv with
        | [] => .error .outOfArguments
        | v :: argv => .ok (some v, argv)
      else .ok (none, argv)

/-- `value=X` -/
def equalBound (cv : Conversions) (v : SqlValue) : Filtering (Int × Int) :=
  if seriesIsTextOrBlob v then .error .noRows
  else match v with
    | .real r =>
        let q := realNumber r
        if q = ⌈q⌉ ∧ (smallestInt64 : ℚ) ≤ q ∧ q ≤ 2 ^ 63 then
          .ok (seriesRealToI64 q, seriesRealToI64 q)
        else .error .noRows
    | v => .ok ((v.columnInt64 cv).toInt, (v.columnInt64 cv).toInt)

/-- `value>X` or `value>=X` -/
def lowerBound (cv : Conversions) (strict : Bool) (v : SqlValue) : Filtering Int :=
  if seriesIsTextOrBlob v then .error .noRows
  else match v with
    | .real r =>
        let q := realNumber r
        if q ≤ smallestInt64 then .ok smallestInt64
        else if 2 ^ 63 < q then .error .noRows
        else
          let iMin := seriesRealToI64 ⌈q⌉
          if strict ∧ q = ⌈q⌉ then
            if iMin = largestInt64 then .error .noRows else .ok (iMin + 1)
          else .ok iMin
    | v =>
        let iMin := (v.columnInt64 cv).toInt
        if strict then
          if iMin = largestInt64 then .error .noRows else .ok (iMin + 1)
        else .ok iMin

/-- `value<X` or `value<=X` -/
def upperBound (cv : Conversions) (strict : Bool) (v : SqlValue) : Filtering Int :=
  if seriesIsTextOrBlob v then .ok largestInt64
  else match v with
    | .real r =>
        let q := realNumber r
        if 2 ^ 63 ≤ q then .ok largestInt64
        else if q ≤ smallestInt64 then .error .noRows
        else
          let iMax := seriesRealToI64 ⌊q⌋
          if strict ∧ q = ⌊q⌋ then
            if iMax = smallestInt64 then .error .noRows else .ok (iMax - 1)
          else .ok iMax
    | v =>
        let iMax := (v.columnInt64 cv).toInt
        if strict then
          if iMax = smallestInt64 then .error .noRows else .ok (iMax - 1)
        else .ok iMax

/-- The smallest and the largest value that the constraints on `value` allow. -/
def valueBounds (cv : Conversions) (idx : IdxNum) (argv : List SqlValue) :
    Filtering (Int × Int) := do
  if idx.eq then
    match ← nextArg true argv with
    | (some v, _) => equalBound cv v
    | (none, _) => .error .outOfArguments
  else
    let (lower, argv) ← nextArg (idx.ge || idx.gt) argv
    let iMin ← lower.elim (.ok smallestInt64) (lowerBound cv idx.gt)
    let (upper, _) ← nextArg (idx.le || idx.lt) argv
    let iMax ← upper.elim (.ok largestInt64) (upperBound cv idx.lt)
    if iMax < iMin then .error .noRows else .ok (iMin, iMax)

/-- The first value from `iMin` on, upwards from `iBase`. -/
def raised (iBase iStep iMin : Int) : Filtering Int :=
  if iBase < iMin then do
    let span ← span64 iMin iBase
    let iBase := add64 iBase (unsigned64 (span / iStep * iStep))
    if iBase < iMin then
      if sub64 largestInt64 iStep < iBase then .error .noRows else .ok (add64 iBase iStep)
    else .ok iBase
  else .ok iBase

/-- The first value from `iMax` on, downwards from `iBase`. -/
def lowered (iBase iStep iMax : Int) : Filtering Int :=
  if iMax < iBase then do
    let span ← span64 iBase iMax
    let iBase := sub64 iBase (unsigned64 (span / iStep * iStep))
    if iMax < iBase then
      if iBase < add64 smallestInt64 iStep then .error .noRows else .ok (sub64 iBase iStep)
    else .ok iBase
  else .ok iBase

/-- The range of the values is reduced. -/
def narrow (p : SeriesCursor) (iMin iMax : Int) : Filtering SeriesCursor :=
  if p.bDesc then do
    let iBase ← lowered p.iBase p.iStep iMax
    .ok { p with iBase := iBase, iTerm := if p.iTerm < iMin then iMin else p.iTerm }
  else do
    let iBase ← raised p.iBase p.iStep iMin
    .ok { p with iBase := iBase, iTerm := if iMax < p.iTerm then iMax else p.iTerm }

def narrowRows (cv : Conversions) (idx : IdxNum) (argv : List SqlValue) (p : SeriesCursor) :
    Filtering SeriesCursor :=
  if idx.eq || idx.ge || idx.gt || idx.le || idx.lt then do
    let (iMin, iMax) ← valueBounds cv idx argv
    narrow p iMin iMax
  else .ok p

/-- `iTerm` becomes the last value of the series. -/
def lastTerm (p : SeriesCursor) : Filtering SeriesCursor :=
  if p.bDesc then
    if p.iBase < p.iTerm then .error .noRows
    else do
      let span ← span64 p.iBase p.iTerm
      .ok { p with iTerm := add64 p.iTerm (span % p.iStep) }
  else
    if p.iTerm < p.iBase then .error .noRows
    else do
      let span ← span64 p.iTerm p.iBase
      .ok { p with iTerm := sub64 p.iTerm (span % p.iStep) }

def orderRows (idx : IdxNum) (p : SeriesCursor) : SeriesCursor :=
  if (idx.desc ∧ p.bDesc = false) ∨ (idx.asc ∧ p.bDesc = true) then
    { p with iBase := p.iTerm, iTerm := p.iBase, bDesc := !p.bDesc }
  else p

def skipOffset (iOffset : Int) (p : SeriesCursor) : Filtering SeriesCursor :=
  if 0 < iOffset then do
    let steps ← seriesSteps p
    if steps < iOffset then .error .noRows
    else if p.bDesc then .ok { p with iBase := sub64 p.iBase (unsigned64 (p.iStep * iOffset)) }
    else .ok { p with iBase := add64 p.iBase (unsigned64 (p.iStep * iOffset)) }
  else .ok p

def applyLimit (iLimit : Int) (p : SeriesCursor) : Filtering SeriesCursor :=
  if 0 ≤ iLimit then do
    let steps ← seriesSteps p
    if iLimit < steps then
      .ok { p with iTerm := add64 p.iBase (unsigned64 ((iLimit - 1) * p.iStep)) }
    else .ok p
  else .ok p

def limitRows (idx : IdxNum) (iLimit iOffset : Int) (p : SeriesCursor) :
    Filtering SeriesCursor :=
  if p.iStep = 0 then .error .assertion
  else if idx.limit then do
    let p ← skipOffset iOffset p
    applyLimit iLimit p
  else .ok p

/-- The arguments and the defaults for the hidden columns. -/
def hiddenColumns (cv : Conversions) (idx : IdxNum) (p : SeriesCursor) (argv : List SqlValue) :
    Filtering (SeriesCursor × List SqlValue) := do
  let (start, argv) ← nextArg idx.start argv
  let iOBase := start.elim 0 fun v => (v.columnInt64 cv).toInt
  let (stop, argv) ← nextArg idx.stop argv
  let iOTerm := stop.elim 0xffffffff fun v => (v.columnInt64 cv).toInt
  let (step, argv) ← nextArg idx.step argv
  let iOStep := step.elim 1 fun v =>
    let iOStep := (v.columnInt64 cv).toInt
    if iOStep = 0 then 1 else iOStep
  let iOBase := if !idx.start && !idx.step && (idx.eq || idx.ge || idx.gt) then smallestInt64
    else iOBase
  let iOTerm := if !idx.stop && !idx.step && (idx.eq || idx.le || idx.lt) then largestInt64
    else iOTerm
  .ok ({ p with iOBase := iOBase, iOTerm := iOTerm, iOStep := iOStep }, argv)

/-- What is generated, in front of other constraints. The magnitude of the smallest step is not a
signed integer. -/
def wholeRange (p : SeriesCursor) : Filtering SeriesCursor :=
  let iStep := if 0 < p.iOStep then p.iOStep
    else if smallestInt64 < p.iOStep then -p.iOStep
    else unsigned64 (largestInt64 + 1)
  let bDesc := decide (p.iOStep < 0)
  let p := { p with iBase := p.iOBase, iTerm := p.iOTerm, iStep := iStep, bDesc := bDesc }
  if (bDesc = false ∧ p.iTerm < p.iBase) ∨ (bDesc = true ∧ p.iBase < p.iTerm) then .error .noRows
  else .ok p

/-- The series, with the values of LIMIT and OFFSET and the arguments behind them. -/
def startRows (cv : Conversions) (idx : IdxNum) (argv : List SqlValue) (p : SeriesCursor) :
    Filtering (SeriesCursor × Int × Int × List SqlValue) := do
  if argv.any SqlValue.isNull then .error .noRows
  else
    let (p, argv) ← hiddenColumns cv idx p argv
    let p ← wholeRange p
    let (limit, argv) ← nextArg idx.limit argv
    let iLimit := limit.elim 0 fun v => (v.columnInt64 cv).toInt
    let (offset, argv) ← nextArg (idx.limit && idx.offset) argv
    let iOffset := offset.elim 0 fun v => (v.columnInt64 cv).toInt
    .ok ({ p with bLimit := p.bLimit || (idx.limit && decide (0 < iLimit)) }, iLimit, iOffset, argv)

def filterRows (cv : Conversions) (idx : IdxNum) (iLimit iOffset : Int) (argv : List SqlValue)
    (p : SeriesCursor) : Filtering SeriesCursor := do
  let p ← narrowRows cv idx argv p
  let p ← lastTerm p
  let p ← limitRows idx iLimit iOffset (orderRows idx p)
  .ok { p with iValue := p.iBase, bDone := false }

/-- `series_no_rows` -/
def noRows (p : SeriesCursor) : SeriesCursor :=
  { p with iBase := 0, iTerm := 0, iStep := 1, bDesc := false, bDone := true }

/-- An exit leaves `bLimit`, which is not reset by any later call, as it is at that point. The
values for the hidden columns are not read behind the last row. -/
def seriesFilter (cv : Conversions) (idx : IdxNum) (argv : List SqlValue) (p : SeriesCursor) :
    Filtering SeriesCursor :=
  match startRows cv idx argv p with
  | .error .noRows => .ok (noRows p)
  | .error e => .error e
  | .ok (p, iLimit, iOffset, argv) =>
      match filterRows cv idx iLimit iOffset argv p with
      | .error .noRows => .ok (noRows p)
      | r => r

/-- The values of the first rows. Behind the last of them `seriesNext()` is not called. -/
def scan : Nat → SeriesCursor → Filtering (List Int)
  | 0, _ => .ok []
  | n + 1, p =>
      if p.bDone then .ok []
      else if n = 0 then .ok [p.iValue]
      else do
        let next ← seriesNext p
        let rest ← scan n next
        .ok (p.iValue :: rest)

end RSQLite.Series
