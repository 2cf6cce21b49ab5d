import RSQLite.Regexp.Match

/-!
`re_compile()`: the text of a regular expression becomes a program. Opcodes are inserted in front
of others and appended, with jumps relative to their own place. The functions return an error
message, or keep one in `zErr` and go on. Writes outside of the opcodes are a fault. The memory
for the opcodes can always be had.
-/
namespace RSQLite.Regexp

namespace ReCompiled

def nState (p : ReCompiled) : Nat := p.ops.length

/-- `xNextChar` of the text of the expression. -/
def next (p : ReCompiled) : Nat × ReCompiled :=
  let (c, rest) := nextChar p.noCase p.sIn
  (c, { p with sIn := rest })

/-- `rePeek()`. -/
def peek (p : ReCompiled) : UInt8 := p.sIn.headD 0

/-- `p->sIn.i++` -/
def skip (p : ReCompiled) : ReCompiled := { p with sIn := p.sIn.drop 1 }

/-- `p->aArg[i] = v` -/
def setArg (p : ReCompiled) (i : Nat) (v : Int) : Outcome ReCompiled :=
  match p.ops[i]? with
  | none => .error .outOfBounds
  | some old => .ok { p with ops := p.ops.set i { old with arg := v } }

end ReCompiled

def tooBig : String := "REGEXP pattern too big"

/-- The new memory, and whether it failed. -/
def reResize (p : ReCompiled) (n : Nat) : ReCompiled × Bool :=
  if p.mxAlloc < n then ({ p with zErr := some tooBig }, true)
  else ({ p with nAlloc := n }, false)

def reInsert (p : ReCompiled) (iBefore : Nat) (op : ReOp) (arg : Int) :
    Outcome (ReCompiled × Nat) :=
  let (p, failed) := if p.nAlloc ≤ p.nState then reResize p (p.nAlloc * 2) else (p, false)
  if failed then .ok (p, 0)
  else if iBefore ≤ p.nState ∧ p.nState < p.nAlloc then
    .ok ({ p with ops := p.ops.insertIdx iBefore ⟨op, arg⟩ }, iBefore)
  else .error .outOfBounds

def reAppend (p : ReCompiled) (op : ReOp) (arg : Int) : Outcome (ReCompiled × Nat) :=
  reInsert p p.nState op arg

def reCopy (p : ReCompiled) (iStart n : Nat) : Outcome ReCompiled :=
  let (p, failed) :=
    if p.nAlloc ≤ p.nState + n then reResize p (p.nAlloc * 2 + n) else (p, false)
  if failed then .ok p
  else if iStart + n ≤ p.nState ∧ p.nState + n ≤ p.nAlloc then
    .ok { p with ops := p.ops ++ (p.ops.drop iStart).take n }
  else .error .outOfBounds

/-- `re_hex()`: the value `v` with a further digit. -/
def reHex (b : UInt8) (v : Nat) : Option Nat :=
  if 48 ≤ b ∧ b ≤ 57 then some (v * 16 + (b.toNat - 48))
  else if 97 ≤ b ∧ b ≤ 102 then some (v * 16 + (b.toNat - 87))
  else if 65 ≤ b ∧ b ≤ 70 then some (v * 16 + (b.toNat - 55))
  else none

def reHexes : List UInt8 → Nat → Option Nat
  | [], v => some v
  | b :: rest, v => (reHex b v).bind (reHexes rest)

/-- The first `n` of the bytes, where there are as many, as a number. -/
def hexEscape (n : Nat) (z : Bytes) : Option Nat :=
  if n ≤ z.length then reHexes (z.take n) 0 else none

def zEsc : List Char := "afnrtv\\()*.+?[$^\x7b|\x7d]-".toList

def zTrans : List Nat := [7, 12, 10, 13, 9, 11]

def unknownEscape : String := "unknown \\ escape"

/-- `re_esc_char()`: what stands for the character behind a backslash. -/
def reEscChar (p : ReCompiled) : Nat × ReCompiled :=
  match p.sIn with
  | [] => (0, { p with zErr := some unknownEscape })
  | b :: rest =>
      match if b.toNat = 'u'.toNat then hexEscape 4 rest else none with
      | some v => (v, { p with sIn := rest.drop 4 })
      | none =>
          match if b.toNat = 'x'.toNat then hexEscape 2 rest else none with
          | some v => (v, { p with sIn := rest.drop 2 })
          | none =>
              let i := zEsc.findIdx (fun e => e.toNat == b.toNat)
              if i < zEsc.length then (zTrans.getD i b.toNat, { p with sIn := rest })
              else (b.toNat, { p with zErr := some unknownEscape })

/-- The opcodes for `\b` and the like. -/
def specialOp (b : UInt8) : Option ReOp :=
  match Char.ofNat b.toNat with
  | 'b' => some .boundary
  | 'd' => some .digit
  | 'D' => some .notDigit
  | 's' => some .space
  | 'S' => some .notSpace
  | 'w' => some .word
  | 'W' => some .notWord
  | _ => none

/-- Behind a backslash. -/
def escapeElement (p : ReCompiled) : Outcome ReCompiled :=
  match specialOp p.peek with
  | some op => do
      let (p, _) ← reAppend p.skip op 0
      .ok p
  | none => do
      let (c, p) := reEscChar p
      let (p, _) ← reAppend p .matchChar c
      .ok p

/-- A character of a class, that may be escaped. -/
def classChar (c : Nat) (p : ReCompiled) : Nat × ReCompiled :=
  if c = '\\'.toNat then reEscChar p else (c, p)

/-- A character of a class, or a range of them. The last one that was read is returned. -/
def classItem (c : Nat) (p : ReCompiled) : Outcome (Nat × ReCompiled) :=
  let (c, p) := classChar c p
  if p.peek.toNat = '-'.toNat then do
    let (p, _) ← reAppend p .ccRange c
    let (c, p) := p.skip.next
    let (c, p) := classChar c p
    let (p, _) ← reAppend p .ccRange c
    .ok (c, p)
  else do
    let (p, _) ← reAppend p .ccValue c
    .ok (c, p)

/-- Up to `]`. A class that does not end returns 0. -/
def classLoop : Nat → ReCompiled → Outcome (Nat × ReCompiled)
  | 0, _ => .error .unfinished
  | fuel + 1, p =>
      let (c, p) := p.next
      if c = 0 then .ok (0, p)
      else if c = '['.toNat ∧ p.peek.toNat = ':'.toNat then
        .error (.stop "POSIX character classes not supported")
      else do
        let (c, p) ← classItem c p
        if p.peek.toNat = ']'.toNat then .ok (c, p.skip) else classLoop fuel p

def classHead (p : ReCompiled) : Outcome (ReCompiled × Nat) :=
  if p.peek.toNat = '^'.toNat then reAppend p.skip .ccExc 0 else reAppend p .ccInc 0

/-- Behind `[`. -/
def classElement (p : ReCompiled) : Outcome ReCompiled := do
  let iFirst := p.nState
  let (p, _) ← classHead p
  let (c, p) ← classLoop (p.sIn.length + 1) p
  if c = 0 then .error (.stop "unclosed '['")
  else if iFirst < p.nState then p.setArg iFirst ((p.nState - iFirst : Nat) : Int)
  else .ok p

def star (iPrev : Nat) (p : ReCompiled) : Outcome ReCompiled := do
  let (p, _) ← reInsert p iPrev .goto (p.nState - iPrev + 1)
  let (p, _) ← reAppend p .fork (iPrev - p.nState + 1)
  .ok p

def plus (iPrev : Nat) (p : ReCompiled) : Outcome ReCompiled := do
  let (p, _) ← reAppend p .fork (iPrev - p.nState)
  .ok p

def question (iPrev : Nat) (p : ReCompiled) : Outcome ReCompiled := do
  let (p, _) ← reInsert p iPrev .fork (p.nState - iPrev + 1)
  .ok p

/-- The digits from here on, as a number that is not too big. -/
def reNumber (mxAlloc : Nat) : Nat → Bytes → Outcome (Nat × Bytes)
  | m, [] => .ok (m, [])
  | m, b :: rest =>
      if 48 ≤ b ∧ b ≤ 57 then
        let m := m * 10 + (b.toNat - 48)
        if mxAlloc < m * 2 then .error (.stop tooBig) else reNumber mxAlloc m rest
      else .ok (m, b :: rest)

def reCopies (iPrev sz : Nat) : Nat → ReCompiled → Outcome ReCompiled
  | 0, p => .ok p
  | k + 1, p => do
      let p ← reCopy p iPrev sz
      reCopies iPrev sz k p

def reOptionals (iPrev sz : Nat) : Nat → ReCompiled → Outcome ReCompiled
  | 0, p => .ok p
  | k + 1, p => do
      let (p, _) ← reAppend p .fork (sz + 1)
      let p ← reCopy p iPrev sz
      reOptionals iPrev sz k p

/-- The number behind a comma, or the first one again. -/
def reSecond (mxAlloc m : Nat) (rest : Bytes) : Outcome (Nat × Bytes) :=
  if (rest.headD 0).toNat = ','.toNat then reNumber mxAlloc 0 (rest.drop 1) else .ok (m, rest)

def reTimes (m n iPrev : Nat) (p : ReCompiled) : Outcome ReCompiled := do
  let sz := p.nState - iPrev
  if m = 0 then
    if n = 0 then .error (.stop "both m and n are zero in '\x7bm,n\x7d'")
    else do
      let (p, _) ← reInsert p iPrev .fork (sz + 1)
      reOptionals (iPrev + 1) sz (n - 1) p
  else do
    let p ← reCopies iPrev sz (m - 1) p
    let p ← reOptionals iPrev sz (n - m) p
    if n = 0 then do
      let (p, _) ← reAppend p .fork (-sz)
      .ok p
    else .ok p

/-- Behind `{`. -/
def braces (iPrev : Nat) (p : ReCompiled) : Outcome ReCompiled := do
  let (m, rest) ← reNumber p.mxAlloc 0 p.sIn
  let (n, rest) ← reSecond p.mxAlloc m rest
  if (rest.headD 0).toNat ≠ '}'.toNat then .error (.stop "unmatched '\x7b'")
  else if n < m then .error (.stop "n less than m in '\x7bm,n\x7d'")
  else reTimes m n iPrev { p with sIn := rest.drop 1 }

/-- What is repeated has to stand in front. -/
def operand (iPrev : Option Nat) (message : String) : Outcome Nat :=
  match iPrev with
  | none => .error (.stop message)
  | some i => .ok i

/-- The cases of the `switch`, but for `|` and the brackets. -/
def element (c : Nat) (iPrev : Option Nat) (p : ReCompiled) : Outcome ReCompiled :=
  match Char.ofNat c with
  | '.' =>
      if p.peek.toNat = '*'.toNat then do
        let (p, _) ← reAppend p .anyStar 0
        .ok p.skip
      else do
        let (p, _) ← reAppend p .any 0
        .ok p
  | '*' => do
      let i ← operand iPrev "'*' without operand"
      star i p
  | '+' => do
      let i ← operand iPrev "'+' without operand"
      plus i p
  | '?' => do
      let i ← operand iPrev "'?' without operand"
      question i p
  | '$' => do
      let (p, _) ← reAppend p .matchChar reEof
      .ok p
  | '^' => do
      let (p, _) ← reAppend p .atStart 0
      .ok p
  | '{' => do
      let i ← operand iPrev "'\x7bm,n\x7d' without operand"
      braces i p
  | '[' => classElement p
  | '\\' => escapeElement p
  | _ => do
      let (p, _) ← reAppend p .matchChar c
      .ok p

/-- The jumps around the operands of `|`. The place of the second one is returned. -/
def reBranch (iStart : Nat) (p : ReCompiled) : Outcome (ReCompiled × Nat) := do
  let (p, _) ← reInsert p iStart .fork (p.nState + 2 - iStart)
  reAppend p .goto 0

mutual

/-- `re_subcompile_re()`, up to the first unmatched `)`. -/
def reSubcompileRe : Nat → ReCompiled → Outcome ReCompiled
  | 0, _ => .error .unfinished
  | fuel + 1, p => do
      let iStart := p.nState
      let p ← reSubcompileString fuel none p
      reBranches iStart fuel p

/-- Its loop, over what stands behind each `|`. -/
def reBranches (iStart : Nat) : Nat → ReCompiled → Outcome ReCompiled
  | 0, _ => .error .unfinished
  | fuel + 1, p =>
      if p.peek.toNat = '|'.toNat then do
        let (p, iGoto) ← reBranch iStart p
        let p ← reSubcompileString fuel none p.skip
        let p ← p.setArg iGoto (p.nState - iGoto)
        reBranches iStart fuel p
      else .ok p

/-- The loop of `re_subcompile_string()`, over the elements of an operand of `|`. -/
def reSubcompileString : Nat → Option Nat → ReCompiled → Outcome ReCompiled
  | 0, _, _ => .error .unfinished
  | fuel + 1, iPrev, p =>
      let (c, after) := p.next
      let iStart := p.nState
      if c = 0 then .ok after
      -- the character is put back
      else if c = '|'.toNat ∨ c = ')'.toNat then .ok p
      else if c = '('.toNat then do
        let p ← reSubcompileRe fuel after
        if p.peek.toNat ≠ ')'.toNat then .error (.stop "unmatched '('")
        else reSubcompileString fuel (some iStart) p.skip
      else do
        let p ← element c iPrev after
        reSubcompileString fuel (some iStart) p

end

/-- A `^` in front of the whole expression makes the initial `.*` needless. -/
def anchored (ops : ReProgram) : ReProgram :=
  if ops[1]?.map Instr.op = some .atStart then ops.set 0 ⟨.goto, 1⟩ else ops

/-- The bytes of a character up to U+FFFF. -/
def initChar (x : Nat) : Option Bytes :=
  if x ≤ 0x7f then some [UInt8.ofNat x]
  else if x ≤ 0x7ff then
    some [UInt8.ofNat (0xc0 ||| x >>> 6), UInt8.ofNat (0x80 ||| (x &&& 0x3f))]
  else if x ≤ 0xffff then
    some [UInt8.ofNat (0xe0 ||| x >>> 12), UInt8.ofNat (0x80 ||| ((x >>> 6) &&& 0x3f)),
      UInt8.ofNat (0x80 ||| (x &&& 0x3f))]
  else none

/-- `zInit` has room for 12 bytes. -/
def initLoop : ReProgram → Bytes → Bytes
  | [], z => z
  | ⟨op, arg⟩ :: ops, z =>
      if z.length < 10 ∧ op = .matchChar then
        match initChar (arg % 2 ^ 32).toNat with
        | some bytes => initLoop ops (z ++ bytes)
        | none => z
      else z

/-- The matching characters that the expression begins with. -/
def initText (ops : ReProgram) (noCase : Bool) : Bytes :=
  match ops with
  | ⟨.anyStar, _⟩ :: rest =>
      if noCase then []
      else
        let z := initLoop rest []
        if z.getLast? = some 0 then z.dropLast else z
  | _ => []

/-- The two optimizations of a program, unless there has been an error. -/
def reFinish (p : ReCompiled) : Outcome ReCompiled :=
  let ops := anchored p.ops
  match p.zErr with
  | some z => .error (.stop z)
  | none => .ok { p with ops := ops, zInit := initText ops p.noCase }

def reCompile (zIn : Bytes) (mxRe : Nat) (noCase : Bool) : Outcome ReCompiled := do
  let p : ReCompiled := ⟨[], none, [], 0, mxRe, noCase, []⟩
  let (p, failed) := reResize p 30
  if failed then .error (.stop tooBig)
  else do
    let (p, _) ← reAppend p .anyStar 0
    let p ← reSubcompileRe (2 * zIn.length + 2) { p with sIn := zIn }
    if p.sIn ≠ [] then .error (.stop "unrecognized character")
    else do
      let (p, _) ← reAppend p .accept 0
      reFinish p

def reMaxnfa (mxLen : Nat) : Nat := 75 + mxLen / 2

end RSQLite.Regexp
