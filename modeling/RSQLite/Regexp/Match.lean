import RSQLite.Library.Lockstep
import RSQLite.R.Vector
import RSQLite.Regexp.Input

/-!
The programs that regular expressions are compiled to, and `re_match()`. All active states are
kept in two arrays, with a place for each opcode. A read or a write outside of an array is a
fault.
-/
namespace RSQLite.Regexp

inductive ReOp
  | matchChar
  | any
  | anyStar
  | fork
  | goto
  | accept
  | ccInc
  | ccExc
  | ccValue
  | ccRange
  | word
  | notWord
  | digit
  | notDigit
  | space
  | notSpace
  | boundary
  | atStart
deriving DecidableEq, Repr

structure Instr where
  op : ReOp
  arg : Int
deriving DecidableEq, Repr

abbrev ReProgram := List Instr

/-- The end of the input. -/
def reEof : Nat := 0

/-- The start of the input, larger than any character. -/
def reStart : Nat := 0xfffffff

def reWordChar (c : Nat) : Bool :=
  (48 ≤ c && c ≤ 57) || (97 ≤ c && c ≤ 122) || (65 ≤ c && c ≤ 90) || c == 95

def reDigitChar (c : Nat) : Bool := 48 ≤ c && c ≤ 57

def reSpaceChar (c : Nat) : Bool :=
  c == 32 || c == 9 || c == 10 || c == 13 || c == 11 || c == 12

/-- What the visit of a state adds to the states of this round and of the next one. -/
inductive Visit
  | accepted
  | goes (this next : List Nat)
deriving DecidableEq, Repr

/-- The state `arg` opcodes further. -/
def jump (x : Nat) (arg : Int) : Outcome Nat :=
  if 0 ≤ (x : Int) + arg then .ok ((x : Int) + arg).toNat else .error .outOfBounds

/-- Whether the class of `n` opcodes at `x` has an entry for `c`, from the `j`-th on. -/
def ccHit (ops : ReProgram) (x c n : Nat) : Nat → Nat → Outcome Bool
  | 0, _ => .error .unfinished
  | fuel + 1, j =>
      if j < n then
        match ops[x + j]? with
        | none => .error .outOfBounds
        | some entry =>
            if entry.op = .ccValue then
              if entry.arg = c then .ok true else ccHit ops x c n fuel (j + 1)
            else if entry.arg ≤ c then
              match ops[x + j + 1]? with
              | none => .error .outOfBounds
              | some last => if c ≤ last.arg then .ok true else ccHit ops x c n fuel (j + 2)
            else ccHit ops x c n fuel (j + 2)
      else .ok false

/-- The body of the `switch`. -/
def visit (ops : ReProgram) (cPrev c x : Nat) : Outcome Visit :=
  let reads (hit : Bool) : Outcome Visit := .ok (.goes [] (if hit then [x + 1] else []))
  match ops[x]? with
  | none => .error .outOfBounds
  | some ⟨op, arg⟩ =>
      match op with
      | .matchChar => reads (arg == c)
      | .atStart => .ok (.goes (if cPrev = reStart then [x + 1] else []) [])
      | .any => reads (c != 0)
      | .word => reads (reWordChar c)
      | .notWord => reads (!reWordChar c && c != 0)
      | .digit => reads (reDigitChar c)
      | .notDigit => reads (!reDigitChar c && c != 0)
      | .space => reads (reSpaceChar c)
      | .notSpace => reads (!reSpaceChar c && c != 0)
      | .boundary => .ok (.goes (if reWordChar c ≠ reWordChar cPrev then [x + 1] else []) [])
      | .anyStar => .ok (.goes [x + 1] [x])
      | .fork => do
          let target ← jump x arg
          .ok (.goes [target, x + 1] [])
      | .goto => do
          let target ← jump x arg
          .ok (.goes [target] [])
      | .accept => .ok .accepted
      | .ccExc =>
          if c = 0 then .ok (.goes [] []) else do
            let hit ← ccHit ops x c arg.toNat (arg.toNat + 1) 1
            let target ← jump x arg
            .ok (.goes [] (if !hit then [target] else []))
      | .ccInc => do
          let hit ← ccHit ops x c arg.toNat (arg.toNat + 1) 1
          let target ← jump x arg
          .ok (.goes [] (if hit then [target] else []))
      | .ccValue | .ccRange => .ok (.goes [] [])

/-- `re_add_state()`, in an array of `nState` places of 16 bits. -/
def reAddState (nState : Nat) (set : List Nat) (newState : Nat) : Outcome (List Nat) :=
  if newState ∈ set then .ok set
  else if set.length < nState then .ok (set ++ [newState % 2 ^ 16])
  else .error .outOfBounds

/-- The states from the `i`-th on are visited, also those that are added meanwhile. Nothing is
returned if one of them accepts, and else the states of the next round. -/
def visitStates (ops : ReProgram) (cPrev c : Nat) :
    Nat → Nat → List Nat → List Nat → Outcome (Option (List Nat))
  | 0, _, _, _ => .error .unfinished
  | fuel + 1, i, this, next =>
      match this[i]? with
      | none => .ok (some next)
      | some x => do
          match ← visit ops cPrev c x with
          | .accepted => .ok none
          | .goes stays moves =>
              let this ← stays.foldlM (reAddState ops.length) this
              let next ← moves.foldlM (reAddState ops.length) next
              visitStates ops cPrev c fuel (i + 1) this next

/-- Whether the jumps from a state lead to the end of the program. -/
def endsAccepted (ops : ReProgram) : Nat → Nat → Outcome Bool
  | 0, _ => .error .unfinished
  | fuel + 1, x =>
      match ops[x]? with
      | none => .error .outOfBounds
      | some ⟨op, arg⟩ =>
          if op = .goto then do
            let target ← jump x arg
            endsAccepted ops fuel target
          else .ok (op == .accept)

/-- The rounds, until the end of the input has been read or no state is left. -/
def matchLoop (ops : ReProgram) (noCase : Bool) : Nat → Nat → Bytes → List Nat → Outcome Bool
  | 0, _, _, _ => .error .unfinished
  | fuel + 1, c, input, states =>
      if c ≠ reEof ∧ states ≠ [] then do
        let cPrev := c
        let (c, input) := nextChar noCase input
        match ← visitStates ops cPrev c (ops.length + 1) 0 states [] with
        | none => .ok true
        | some next => matchLoop ops noCase fuel c input next
      else states.anyM (endsAccepted ops (ops.length + 1))

/-- A compiled regular expression, or one that is being compiled: what is left of its text, the
error, the opcodes and the number that there is memory for. -/
structure ReCompiled where
  sIn : Bytes
  zErr : Option String
  ops : ReProgram
  nAlloc : Nat
  mxAlloc : Nat
  noCase : Bool
  zInit : Bytes
deriving DecidableEq, Repr

/-- The text from the first place on where `zInit` stands. The text has no NUL, so that
`strncmp()` compares all of the bytes. -/
def searchInit (zInit : Bytes) : Bytes → Option Bytes
  | [] => none
  | b :: rest =>
      if zInit.length ≤ (b :: rest).length then
        if zInit.isPrefixOf (b :: rest) then some (b :: rest) else searchInit zInit rest
      else none

/-- `re_match()` of a text that ends with its NUL. -/
def reMatch (p : ReCompiled) (zIn : Bytes) : Outcome Bool :=
  if p.zInit = [] then matchLoop p.ops p.noCase (zIn.length + 2) reStart zIn [0]
  else match searchInit p.zInit zIn with
    | none => .ok false
    | some z => matchLoop p.ops p.noCase (z.length + 2) (reStart - 1) z [0]

end RSQLite.Regexp
