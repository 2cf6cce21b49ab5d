import RSQLite.Http.GetPage

/-!
`httpRead()`, and the states that a file can be in after it has been opened.
-/
namespace RSQLite

open Buffers

section Read

/-- `memcpy()` into a buffer at a position. -/
def copyTo (out : Bytes) (pos : Nat) (bytes : Bytes) : Bytes :=
  out.take pos ++ bytes ++ out.drop (pos + bytes.length)

/-- `httpRead()` of a downloaded file. -/
def readData (data : Bytes) (iAmt iOfst : Nat) : Rc × Bytes :=
  if iOfst + iAmt ≤ data.length then (.ok, (data.drop iOfst).take iAmt)
  else if iOfst < data.length then
    (.shortRead, data.drop iOfst ++ List.replicate (iAmt - (data.length - iOfst)) 0)
  else (.shortRead, List.replicate iAmt 0)

/-- What is copied out of a page: the offset in it, and the number of bytes. -/
def copiedPart (ps fin pn pos : Nat) : Nat × Nat :=
  let pOff := (pn - 1) * ps
  let s := if pOff < pos then pos - pOff else 0
  let e := if pOff + ps < fin then pOff + ps else fin
  (s, e - (pOff + s))

variable (server : Server) (env : Environment)

/-- The loop over the pages, from the page `pn` and the position `pos` in the file on. The
bytes of the file from `start` to `fin` are wanted, and `out` is what has been copied. -/
def readLoop (ps start fin : Nat) : Nat → Nat → Nat → Bytes → HttpState →
    Outcome (Rc × Bytes × HttpState)
  | 0, _, _, out, s => .ok (.ok, out, s)
  | more + 1, pn, pos, out, s => do
      let (rc, pPage, s) ← httpGetPage server env pn s
      match rc, pPage with
      | .ok, none => .error .outOfBounds
      | .ok, some pPage =>
          if 0 < (copiedPart ps fin pn pos).2 then do
            let bytes ← s.load pPage (copiedPart ps fin pn pos).1 (copiedPart ps fin pn pos).2
            readLoop ps start fin more (pn + 1) (pos + (copiedPart ps fin pn pos).2)
              (copyTo out (pos - start) bytes) s
          else readLoop ps start fin more (pn + 1) pos out s
      | rc, _ => .ok (rc, out, s)

/-- What follows the end of the file, if its length is known, is filled with zeros. -/
def fillTail (contentLength : Int) (iAmt iOfst : Nat) (out : Bytes) : Rc × Bytes :=
  if 0 < contentLength ∧ contentLength < iOfst + iAmt then
    let avail := (contentLength - iOfst).toNat
    if avail < iAmt then (.shortRead, out.take avail ++ List.replicate (iAmt - avail) 0)
    else (.ok, out)
  else (.ok, out)

/-- `httpRead()` into a buffer. -/
def httpRead (iAmt iOfst : Nat) (zBuf : Bytes) (s : HttpState) :
    Outcome (Rc × Bytes × HttpState) :=
  match s.file.data with
  | some data => .ok ((readData data iAmt iOfst).1, (readData data iAmt iOfst).2, s)
  | none =>
      match httpProbeMeta server env s with
      | (.ok, s) => do
          let ps := s.file.pageSize
          let pageStart := iOfst / ps + 1
          let pageEnd := (iOfst + iAmt - 1) / ps + 1
          let (rc, out, s) ← readLoop server env ps iOfst (iOfst + iAmt) (pageEnd + 1 - pageStart)
            pageStart iOfst zBuf s
          match rc with
          | .ok => .ok ((fillTail s.file.contentLength iAmt iOfst out).1,
              (fillTail s.file.contentLength iAmt iOfst out).2, s)
          | rc => .ok (rc, out, s)
      | (rc, s) => .ok (rc, zBuf, s)

end Read

/-- The states of a file that has been opened and used, whether its pages are requested one by
one or its bytes are read. -/
inductive HttpReachable (server : Server) (env : Environment) : HttpState → Prop
  | opened (zName : Option String) (f : HttpFile) (opens : httpOpen env zName = .ok f) :
      HttpReachable server env ⟨f, [], 0⟩
  | page (pageNo : Int) (rc : Rc) (p : Option PagePointer) (s s' : HttpState)
      (before : HttpReachable server env s)
      (requested : httpGetPage server env pageNo s = .ok (rc, p, s')) :
      HttpReachable server env s'
  | read (iAmt iOfst : Nat) (zBuf out : Bytes) (rc : Rc) (s s' : HttpState)
      (before : HttpReachable server env s)
      (read : httpRead server env iAmt iOfst zBuf s = .ok (rc, out, s')) :
      HttpReachable server env s'

end RSQLite
