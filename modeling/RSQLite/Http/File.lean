import RSQLite.Library.Buffers
import RSQLite.R.Vector
import RSQLite.Sqlite.Value

/-!
A remote database file of the HTTP VFS: its record, how it is opened, and the transfers.
Each transfer may be answered differently. The counters of bytes and requests, and the
options that stay set on the curl handle, are left out.
-/
namespace RSQLite

open Buffers

/-- The result codes of SQLite that the VFS returns. -/
inductive Rc
  | ok
  | ioerr
  | shortRead
  | corrupt
  | cantopen
deriving DecidableEq, Repr

/-- What a transfer ends with. `total` is the size in a `Content-Range` header, or -1. -/
inductive Answer
  | failed
  | answered (code : Nat) (body : Bytes) (total : Int)
deriving DecidableEq, Repr

/-- What a HEAD request ends with. `contentLength` is the number in that header, or -1. -/
inductive HeadAnswer
  | failed
  | answered (code : Nat) (contentLength : Int)
deriving DecidableEq, Repr

/-- The answers to the `n`-th transfer: to HEAD, to a GET of the bytes from `first` to
`last`, and to a plain GET. -/
structure Server where
  head : Nat → HeadAnswer
  range : Nat → Int → Int → Answer
  download : Nat → Answer

/-- `sqlite3_realloc()` gives less than 2^31 - 256 bytes; a body that is longer is a write
error. -/
def perform : Answer → Answer
  | .failed => .failed
  | .answered code body total =>
      if body.length < 0x7fffff00 then .answered code body total else .failed

/-- The environment variables, an integer as `atoll()` reads it. -/
structure Environment where
  fallbackFulldl : Option String
  cacheMb : Option Int64
  prefetchPages : Option Int64

def httpEnvBool (v : Option String) (defval : Bool) : Bool :=
  match v with
  | none => defval
  | some v =>
      match v.toList with
      | [] => defval
      | c :: _ =>
          if c ∈ ['1', 'y', 'Y', 't', 'T'] then true
          else if c ∈ ['0', 'n', 'N', 'f', 'F'] then false
          else defval

def httpEnvInt64 (v : Option Int64) (defval : Int64) : Int64 :=
  match v with
  | none => defval
  | some x => if x ≤ 0 then defval else x

/-- `struct HttpFile`. The arrays have a cell for each page that the cache may hold; the
first `cacheCount` are in use. A page that was received without bytes is a null pointer. -/
structure HttpFile where
  data : Option Bytes
  haveMeta : Bool
  contentLength : Int
  pageSize : Nat
  cacheCapacity : Nat
  cacheCount : Nat
  cachePageNo : List Int
  cacheData : List (Option Nat)
  fallbackFull : Bool
  prefetchPages : Int
deriving DecidableEq, Repr

/-- A file, the memory, and the number of transfers made so far. -/
structure HttpState where
  file : HttpFile
  heap : Heap UInt8
  requests : Nat
deriving DecidableEq, Repr

/-- `httpOpen()`. Nothing is requested yet. -/
def httpOpen (env : Environment) (zName : Option String) : Except Rc HttpFile :=
  match zName with
  | none => .error .cantopen
  | some zName =>
      if ¬ "http://".toList <+: zName.toList ∧ ¬ "https://".toList <+: zName.toList then
        .error .cantopen
      else .ok
        { data := none
          haveMeta := false
          contentLength := -1
          pageSize := 4096
          cacheCapacity := 0
          cacheCount := 0
          cachePageNo := []
          cacheData := []
          fallbackFull := httpEnvBool env.fallbackFulldl true
          prefetchPages := (httpEnvInt64 env.prefetchPages 0).toInt32.toInt }

/-- The page size in the header of a database, or 4096. -/
def headerPageSize (header : Bytes) : Nat :=
  match header.drop 16 with
  | high :: low :: _ =>
      let psh := high.toNat * 256 + low.toNat
      if psh = 1 then 65536
      else if 512 ≤ psh ∧ psh ≤ 65536 ∧ psh &&& (psh - 1) = 0 then psh
      else 4096
  | _ => 4096

/-- The number of pages in this many megabytes. The product and the conversion to `int`
wrap. -/
def configuredCapacity (cacheMb : Int64) (pageSize : Nat) : Nat :=
  let cap := (cacheMb * 1024 * 1024 / Int64.ofNat pageSize).toInt32.toInt
  if cap < 2 then 2 else if 2048 < cap then 2048 else cap.toNat

def headLength : HeadAnswer → Int
  | .failed => -1
  | .answered code contentLength =>
      if code < 400 ∧ 0 < contentLength then contentLength else -1

/-- The file after it has been probed: the cache is empty. -/
def HttpFile.probed (f : HttpFile) (env : Environment) (contentLength : Int) (header : Bytes) :
    HttpFile :=
  let cap := configuredCapacity (httpEnvInt64 env.cacheMb 4) (headerPageSize header)
  { f with
    haveMeta := true
    contentLength := contentLength
    pageSize := headerPageSize header
    cacheCapacity := cap
    cacheCount := 0
    cachePageNo := List.replicate cap (-1)
    cacheData := List.replicate cap none }

/-- `http_probe_meta()`: a HEAD request, and one for the first 32 bytes. -/
def httpProbeMeta (server : Server) (env : Environment) (s : HttpState) : Rc × HttpState :=
  if s.file.haveMeta then (.ok, s)
  else
    let length := headLength (server.head s.requests)
    let failed := { s with file.contentLength := length, requests := s.requests + 2 }
    match perform (server.range (s.requests + 1) 0 31) with
    | .failed => (.cantopen, failed)
    | .answered code body _ =>
        if 400 ≤ code then (.cantopen, failed)
        else (.ok, { s with file := s.file.probed env length body, requests := s.requests + 2 })

def HttpState.answeredOnce (s : HttpState) : HttpState := { s with requests := s.requests + 1 }

/-- `httpDownload()`. An empty body is a null pointer. -/
def httpDownload (server : Server) (s : HttpState) : Rc × HttpState :=
  match perform (server.download s.requests) with
  | .failed => (.cantopen, { s.answeredOnce with file.data := none })
  | .answered code body _ =>
      if 400 ≤ code then (.cantopen, { s.answeredOnce with file.data := none })
      else (.ok, { s.answeredOnce with file.data := if body = [] then none else some body })

/-- The body is handed out in a buffer of its own. -/
def HttpState.delivered (s : HttpState) (body : Bytes) (total : Int) :
    Rc × Option Nat × HttpState :=
  (.ok, (alloc s.heap body).1,
    { s with
      heap := (alloc s.heap body).2
      file.contentLength :=
        if 0 < total ∧ s.file.contentLength < 0 then total else s.file.contentLength })

/-- `http_fetch_range()`. A server that ignores the range makes it download the file, once;
the body of the answer at hand is handed out all the same. -/
def httpFetchRange (server : Server) (off : Int) (len : Nat) (s : HttpState) :
    Rc × Option Nat × HttpState :=
  match perform (server.range s.requests off (off + len - 1)) with
  | .failed => (.ioerr, none, s.answeredOnce)
  | .answered code body total =>
      if 400 ≤ code then (.ioerr, none, s.answeredOnce)
      else if code = 206 then s.answeredOnce.delivered body total
      else if s.file.fallbackFull = true ∧ s.file.data = none then
        match httpDownload server s.answeredOnce with
        | (.ok, s') => s'.delivered body total
        | (rc, s') => (rc, none, s')
      else (.ioerr, none, s.answeredOnce)

end RSQLite
