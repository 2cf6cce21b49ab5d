import RSQLite.Http.File
import RSQLite.Library.Recent

/-!
`http_get_page()`: the page cache of a remote file, and the prefetch after a miss. The most
recent page is first in the arrays.
-/
namespace RSQLite

open Buffers

/-- Where a page can be read: in the downloaded file, or in a buffer of the cache. -/
inductive PagePointer
  | downloaded (off : Int)
  | buffer (p : Option Nat)
deriving DecidableEq, Repr

section Arrays

variable {α : Type}

/-- `memmove(&a[1], &a[0], n)` of cells. -/
def memmoveUp (n : Nat) (a : List α) : Outcome (List α) :=
  if n + 1 ≤ a.length then .ok (a.take 1 ++ a.take n ++ a.drop (n + 1))
  else .error .outOfBounds

/-- The first `n` cells are moved up, and a page is written to the first one. -/
def HttpFile.toFront (f : HttpFile) (n : Nat) (pageNo : Int) (pd : Option Nat) :
    Outcome HttpFile := do
  let pageNos ← memmoveUp n f.cachePageNo
  let data ← memmoveUp n f.cacheData
  .ok { f with cachePageNo := pageNos.set 0 pageNo, cacheData := data.set 0 pd }

/-- The first index of a page among those in use. -/
def HttpFile.index? (f : HttpFile) (pageNo : Int) : Option Nat :=
  (f.cachePageNo.take f.cacheCount).findIdx? (fun n => decide (n = pageNo))

end Arrays

section GetPage

/-- Insert at the front; if the cache is full, the last page is freed. -/
def insertFront (pageNo : Int) (buf : Option Nat) (s : HttpState) : Outcome HttpState :=
  if s.file.cacheCount = s.file.cacheCapacity then
    match s.file.cacheData[s.file.cacheCapacity - 1]? with
    | none => .error .outOfBounds
    | some last =>
        match free s.heap last with
        | none => .error .outOfBounds
        | some heap =>
            (s.file.toFront (s.file.cacheCount - 1) pageNo buf).map
              (fun file => { s with file := file, heap := heap })
  else
    ({ s.file with cacheCount := s.file.cacheCount + 1 }.toFront s.file.cacheCount pageNo buf).map
      (fun file => { s with file := file })

/-- A page that begins behind the end of the file, if its length is known. -/
def HttpFile.beyondEnd (f : HttpFile) (pageNo : Int) : Bool :=
  decide (0 < f.contentLength ∧ f.contentLength ≤ (pageNo - 1) * f.pageSize)

variable (server : Server) (env : Environment)

/-- The prefetch of the `k`-th page after `pageNo` and of the following ones. -/
def prefetchLoop (pageNo : Int) : Nat → Nat → HttpState → Outcome HttpState
  | 0, _, s => .ok s
  | more + 1, k, s =>
      if s.file.beyondEnd (pageNo + k) then .ok s
      else if (s.file.index? (pageNo + k)).isSome then prefetchLoop pageNo more (k + 1) s
      else
        match httpFetchRange server ((pageNo + k - 1) * s.file.pageSize) s.file.pageSize s with
        | (.ok, buf, s') => do
            let s'' ← insertFront (pageNo + k) buf s'
            prefetchLoop pageNo more (k + 1) s''
        | (_, _, s') => prefetchLoop pageNo more (k + 1) s'

/-- The page that was asked for is fetched, and some after it. -/
def missPage (pageNo : Int) (s : HttpState) : Outcome (Rc × Option PagePointer × HttpState) :=
  match httpFetchRange server ((pageNo - 1) * s.file.pageSize) s.file.pageSize s with
  | (.ok, buf, s') => do
      let s'' ← insertFront pageNo buf s'
      let t ← prefetchLoop server pageNo s''.file.prefetchPages.toNat 1 s''
      .ok (.ok, some (.buffer buf), t)
  | (rc, _, s') => .ok (rc, none, s')

/-- A cached page is moved to the front. -/
def hitPage (pageNo : Int) (i : Nat) (s : HttpState) :
    Outcome (Rc × Option PagePointer × HttpState) :=
  match s.file.cacheData[i]? with
  | none => .error .outOfBounds
  | some p =>
      if 0 < i then
        (s.file.toFront i pageNo p).map
          (fun file => (.ok, some (.buffer p), { s with file := file }))
      else .ok (.ok, some (.buffer p), s)

def httpGetPage (pageNo : Int) (s : HttpState) : Outcome (Rc × Option PagePointer × HttpState) :=
  if pageNo ≤ 0 then .ok (.corrupt, none, s)
  else match s.file.data with
    | some data =>
        let off := (pageNo - 1) * s.file.pageSize
        if data.length < off + s.file.pageSize then .ok (.shortRead, none, s)
        else .ok (.ok, some (.downloaded off), s)
    | none =>
        match httpProbeMeta server env s with
        | (.ok, s') =>
            match s'.file.index? pageNo with
            | some i => hitPage pageNo i s'
            | none => missPage server pageNo s'
        | (rc, s') => .ok (rc, none, s')

/-- `memcpy()` out of a page. -/
def HttpState.load (s : HttpState) (p : PagePointer) (off len : Nat) : Outcome Bytes :=
  match p with
  | .downloaded start =>
      match s.file.data with
      | none => .error .outOfBounds
      | some data =>
          if start.toNat + off + len ≤ data.length then
            .ok ((data.drop (start.toNat + off)).take len)
          else .error .outOfBounds
  | .buffer p =>
      match read s.heap p off len with
      | none => .error .outOfBounds
      | some bytes => .ok bytes

end GetPage

/-- The cells of both arrays, and those that are in use. -/
def HttpFile.cells (f : HttpFile) : List (Int × Option Nat) := f.cachePageNo.zip f.cacheData

def HttpFile.entries (f : HttpFile) : List (Int × Option Nat) := f.cells.take f.cacheCount

def HttpFile.withCache (f : HttpFile) (count : Nat) (cells : List (Int × Option Nat)) : HttpFile :=
  { f with
    cacheCount := count
    cachePageNo := cells.map Prod.fst
    cacheData := cells.map Prod.snd }

/-- Both arrays have room for `cacheCapacity` pages, and this is not less than 2 once the
file has been probed. -/
structure Arrays (f : HttpFile) : Prop where
  pageNos : f.cachePageNo.length = f.cacheCapacity
  data : f.cacheData.length = f.cacheCapacity
  count : f.cacheCount ≤ f.cacheCapacity
  room : f.haveMeta = true → 2 ≤ f.cacheCapacity

theorem withCache_cells (f : HttpFile) (count : Nat) (cells : List (Int × Option Nat)) :
    (f.withCache count cells).cells = cells := by
  rw [HttpFile.cells, HttpFile.withCache, ← List.unzip_fst, ← List.unzip_snd, List.zip_unzip]

theorem withCache_entries (f : HttpFile) (count : Nat) (cells : List (Int × Option Nat)) :
    (f.withCache count cells).entries = cells.take count := by
  rw [HttpFile.entries, withCache_cells]
  rfl

theorem Arrays.cells_length {f : HttpFile} (arrays : Arrays f) :
    f.cells.length = f.cacheCapacity := by
  rw [HttpFile.cells, List.length_zip, arrays.pageNos, arrays.data, Nat.min_self]

theorem Arrays.entries_length {f : HttpFile} (arrays : Arrays f) :
    f.entries.length = f.cacheCount := by
  rw [HttpFile.entries, List.length_take, arrays.cells_length, Nat.min_eq_left arrays.count]

theorem Arrays.cells_pageNos {f : HttpFile} (arrays : Arrays f) :
    f.cells.map Prod.fst = f.cachePageNo :=
  List.map_fst_zip (Nat.le_of_eq (arrays.pageNos.trans arrays.data.symm))

theorem Arrays.cells_data {f : HttpFile} (arrays : Arrays f) :
    f.cells.map Prod.snd = f.cacheData :=
  List.map_snd_zip (Nat.le_of_eq (arrays.data.trans arrays.pageNos.symm))

theorem Arrays.withCache {f : HttpFile} (arrays : Arrays f) (count : Nat)
    (cells : List (Int × Option Nat)) (length : cells.length = f.cacheCapacity)
    (inside : count ≤ f.cacheCapacity) : Arrays (f.withCache count cells) where
  pageNos := by rw [HttpFile.withCache, List.length_map, length]
  data := by rw [HttpFile.withCache, List.length_map, length]
  count := inside
  room := arrays.room

theorem Arrays.more {f : HttpFile} (arrays : Arrays f) (notFull : f.cacheCount ≠ f.cacheCapacity) :
    Arrays { f with cacheCount := f.cacheCount + 1 } where
  pageNos := arrays.pageNos
  data := arrays.data
  count := Nat.lt_of_le_of_ne arrays.count notFull
  room := arrays.room

theorem memmoveUp_set {α : Type} (n : Nat) (a : List α) (x : α) (inside : n + 1 ≤ a.length) :
    (memmoveUp n a).map (fun a => a.set 0 x) = .ok (x :: (a.take n ++ a.drop (n + 1))) := by
  rw [memmoveUp, if_pos inside]
  cases a with
  | nil => cases inside
  | cons first rest => rfl

theorem toFront_ok {f : HttpFile} (arrays : Arrays f) (n : Nat) (pageNo : Int) (pd : Option Nat)
    (inside : n + 1 ≤ f.cacheCapacity) :
    f.toFront n pageNo pd = .ok (f.withCache f.cacheCount
      ((pageNo, pd) :: (f.cells.take n ++ f.cells.drop (n + 1)))) := by
  have pageNos := memmoveUp_set n f.cachePageNo pageNo (by rw [arrays.pageNos]; exact inside)
  have data := memmoveUp_set n f.cacheData pd (by rw [arrays.data]; exact inside)
  rw [HttpFile.toFront]
  cases hp : memmoveUp n f.cachePageNo with
  | error e => rw [hp] at pageNos; cases pageNos
  | ok a =>
      cases hd : memmoveUp n f.cacheData with
      | error e => rw [hd] at data; cases data
      | ok b =>
          rw [hp] at pageNos
          rw [hd] at data
          have hp' := Except.ok.inj pageNos
          have hd' := Except.ok.inj data
          simp only at hp' hd'
          change Except.ok _ = Except.ok _
          rw [hp', hd', HttpFile.withCache]
          simp only [List.map_cons, List.map_append, List.map_take, List.map_drop,
            arrays.cells_pageNos, arrays.cells_data]

end RSQLite
