import RSQLite.Http.File
import RSQLite.Sqlite.Uri

/-!
`sqliteRemote()`, from the URL to the name that the VFS opens. The texts are in UTF-8.
-/
namespace RSQLite

structure RString where
  bytes : Bytes
  noNul : 0 ∉ bytes

inductive RemoteError
  | stop (message : String)
  | connect (error : OpenError)
deriving DecidableEq, Repr

structure RemoteFile where
  zName : Bytes
  options : List (Bytes × Bytes)
deriving DecidableEq, Repr

/-- The parameters that are appended to the URI. -/
def remoteParams (immutable : Bool) : List (String × String) :=
  ("vfs", "http") :: if immutable then [("immutable", "1")] else []

/-- `paste(params, collapse = "&")`. -/
def pasteParams (params : List (String × String)) : Bytes :=
  [38].intercalate (params.map fun param => word param.1 ++ 61 :: word param.2)

/-- `httpFullPathname()`: `sqlite3_snprintf()` into a buffer of `nOut` bytes. -/
def httpFullPathname (zName : Bytes) (nOut : Nat) : Bytes := zName.take (nOut - 1)

/-- `mxPathname` of the VFS. -/
def httpMaxPathname : Nat := 1024

/-- `sqlite3PagerOpen()` with the VFS: the path is computed, and the file opened. The name of
the journal is longer by 8 bytes. -/
def pagerOpen (zFilename : Bytes) : Except OpenError Bytes :=
  let zPathname := httpFullPathname zFilename (httpMaxPathname + 1)
  if httpMaxPathname < zPathname.length + 8 then .error .cantopen
  else if word "http://" <+: zPathname ∨ word "https://" <+: zPathname then .ok zPathname
  else .error .cantopen

/-- `sqlite3_open_v2()` of a URI that names the VFS. -/
def openUri (uri : Bytes) : Except OpenError RemoteFile := do
  let (zFile, options, _) ← sqlite3ParseUri (· = word "http") (word "unix") uri
  let zName ← pagerOpen zFile
  .ok { zName := zName, options := options }

def sqliteRemote (hasHttpVFS : Bool) (url : RString) (immutable : Bool) :
    Except RemoteError RemoteFile :=
  if ¬ (word "http://" <+: url.bytes ∨ word "https://" <+: url.bytes) then
    .error (.stop "url must begin with http:// or https://")
  else if 63 ∈ url.bytes ∨ 35 ∈ url.bytes then
    .error (.stop "url must not contain a query string or fragment")
  else if ¬ hasHttpVFS then .error (.stop "HTTP VFS not available in this build")
  else
    (openUri (word "file:" ++ url.bytes ++ 63 :: pasteParams (remoteParams immutable))).mapError
      .connect

structure AcceptedUrl (url : RString) : Prop where
  scheme : word "http://" <+: url.bytes ∨ word "https://" <+: url.bytes
  noQuery : 63 ∉ url.bytes
  noFragment : 35 ∉ url.bytes

/-- The name is the URL byte for byte, with the parameters that were asked for. -/
def Arrives (url : RString) (immutable : Bool) (f : RemoteFile) : Prop :=
  f.zName = url.bytes ∧
    f.options = (word "vfs", word "http") ::
      if immutable then [(word "immutable", word "1")] else []

section Open

/-- The parameters as they stand behind the name. -/
def writtenParams (immutable : Bool) : Bytes :=
  word "vfs" ++ 0 :: (word "http" ++ 0 ::
    (if immutable then word "immutable" ++ 0 :: (word "1" ++ [0, 0, 0, 0]) else [0, 0, 0]))

theorem uriLoop_params (immutable : Bool) (zFile : Bytes) :
    uriLoop (.name, .copy, 0 :: zFile) (pasteParams (remoteParams immutable)) =
      zFile.reverse ++ 0 :: writtenParams immutable := by
  cases immutable with
  | true =>
      have copied : uriLoop (.name, .copy, 0 :: zFile) (pasteParams (remoteParams true)) =
          uriFinish .value ((word "1").reverse ++ 0 :: ((word "immutable").reverse ++
            0 :: ((word "http").reverse ++ 0 :: ((word "vfs").reverse ++ 0 :: zFile)))) := rfl
      rw [copied]
      simp [uriFinish, writtenParams]
  | false =>
      have copied : uriLoop (.name, .copy, 0 :: zFile) (pasteParams (remoteParams false)) =
          uriFinish .value ((word "http").reverse ++ 0 ::
            ((word "vfs").reverse ++ 0 :: zFile)) := rfl
      rw [copied]
      simp [uriFinish, writtenParams]

theorem uriOptions_params (immutable : Bool) (fuel : Nat) :
    uriOptions (fuel + 3) (writtenParams immutable) =
      (word "vfs", word "http") :: if immutable then [(word "immutable", word "1")] else [] := by
  cases immutable <;> rfl

variable (url : RString) (immutable : Bool)

theorem uriAuthority_remote (accepted : AcceptedUrl url) (tail : Bytes) :
    uriAuthority (url.bytes ++ tail) = .ok (url.bytes ++ tail) := by
  refine if_neg ?_
  rcases accepted.scheme with ⟨rest, split⟩ | ⟨rest, split⟩
  · have first : (url.bytes ++ tail).take 2 = [104, 116] := by rw [← split]; rfl
    rw [first]
    decide
  · have first : (url.bytes ++ tail).take 2 = [104, 116] := by rw [← split]; rfl
    rw [first]
    decide

theorem parse_remote (accepted : AcceptedUrl url) :
    sqlite3ParseUri (· = word "http") (word "unix")
        (word "file:" ++ url.bytes ++ 63 :: pasteParams (remoteParams immutable)) =
      .ok (unescaped url.bytes,
        (word "vfs", word "http") :: (if immutable then [(word "immutable", word "1")] else []),
        word "http") := by
  generalize params : pasteParams (remoteParams immutable) = query
  have scheme : (word "file:" ++ url.bytes ++ 63 :: query).take 5 = word "file:" := rfl
  have behind : (word "file:" ++ url.bytes ++ 63 :: query).drop 5 = url.bytes ++ 63 :: query := rfl
  have copied : uriLoop (.file, .copy, []) (url.bytes ++ 63 :: query) =
      unescaped url.bytes ++ 0 :: writtenParams immutable := by
    rw [uriLoop_file _ _ _ accepted.noQuery accepted.noFragment, ← params, uriLoop_params]
    simp
  obtain ⟨fuel, enough⟩ : ∃ fuel, (unescaped url.bytes).length +
      ((writtenParams immutable).length + 1) = fuel + 3 := by
    have options : 3 ≤ (writtenParams immutable).length := by cases immutable <;> decide
    exact ⟨(unescaped url.bytes).length + ((writtenParams immutable).length - 2), by omega⟩
  have named : uriFilename (unescaped url.bytes ++ 0 :: writtenParams immutable) =
      (unescaped url.bytes,
        (word "vfs", word "http") :: if immutable then [(word "immutable", word "1")] else []) := by
    rw [uriFilename_append _ _ (unescaped_noNul _ url.noNul), enough, uriOptions_params]
  rw [sqlite3ParseUri, if_pos scheme, behind, uriAuthority_remote url accepted]
  simp only [Except.map, copied, named]
  cases immutable <;> rfl

theorem scheme_unescaped (accepted : AcceptedUrl url) :
    word "http://" <+: unescaped url.bytes ∨ word "https://" <+: unescaped url.bytes := by
  refine accepted.scheme.imp ?_ ?_
  · rintro ⟨rest, split⟩
    exact ⟨unescaped rest, by rw [← split, unescaped_append _ _ (by decide)]⟩
  · rintro ⟨rest, split⟩
    exact ⟨unescaped rest, by rw [← split, unescaped_append _ _ (by decide)]⟩

theorem pagerOpen_remote (accepted : AcceptedUrl url) :
    pagerOpen (unescaped url.bytes) =
      if (unescaped url.bytes).length ≤ 1016 then .ok (unescaped url.bytes)
      else .error .cantopen := by
  simp only [pagerOpen, httpFullPathname, httpMaxPathname, Nat.add_sub_cancel, List.length_take]
  by_cases short : (unescaped url.bytes).length ≤ 1016
  · rw [if_pos short, if_neg (by omega), List.take_of_length_le (by omega),
      if_pos (scheme_unescaped url accepted)]
  · rw [if_neg short, if_pos (by omega)]

/-- An accepted URL is opened with its escapes decoded, if that is not too long. -/
theorem sqliteRemote_accepted (accepted : AcceptedUrl url) :
    sqliteRemote true url immutable =
      if (unescaped url.bytes).length ≤ 1016 then
        .ok
          { zName := unescaped url.bytes
            options := (word "vfs", word "http") ::
              if immutable then [(word "immutable", word "1")] else [] }
      else .error (.connect .cantopen) := by
  have scheme := accepted.scheme
  have characters : ¬ (63 ∈ url.bytes ∨ 35 ∈ url.bytes) :=
    not_or.mpr ⟨accepted.noQuery, accepted.noFragment⟩
  rw [sqliteRemote, if_neg (not_not.mpr scheme), if_neg characters, if_neg (by simp), openUri,
    parse_remote url immutable accepted]
  by_cases short : (unescaped url.bytes).length ≤ 1016
  · simp only [bind, Except.bind, pagerOpen_remote url accepted, if_pos short, Except.mapError]
  · simp only [bind, Except.bind, pagerOpen_remote url accepted, if_neg short, Except.mapError]

theorem sqliteRemote_refused (hasHttpVFS : Bool)
    (refused : ¬ (hasHttpVFS = true ∧ AcceptedUrl url)) (f : RemoteFile) :
    sqliteRemote hasHttpVFS url immutable ≠ .ok f := by
  rw [sqliteRemote]
  split
  · exact nofun
  · next scheme =>
      split
      · exact nofun
      · next characters =>
          split
          · exact nofun
          · next available =>
              have characters := not_or.mp characters
              exact absurd ⟨not_not.mp available, not_not.mp scheme, characters.1, characters.2⟩
                refused

end Open

/-- The URL arrives unchanged, or an error is raised, unless the URL has an escape and is not
too long without it. -/
theorem url_arrives_iff (hasHttpVFS : Bool) (url : RString) (immutable : Bool) :
    (∀ f, sqliteRemote hasHttpVFS url immutable = .ok f → Arrives url immutable f) ↔
      (hasHttpVFS = true ∧ AcceptedUrl url → Escaped url.bytes →
        1016 < (unescaped url.bytes).length) := by
  by_cases accepted : hasHttpVFS = true ∧ AcceptedUrl url
  · obtain ⟨rfl, valid⟩ := accepted
    rw [sqliteRemote_accepted url immutable valid]
    by_cases short : (unescaped url.bytes).length ≤ 1016
    · rw [if_pos short]
      constructor
      · intro arrives _ escaped
        have same := (arrives _ rfl).1
        exact absurd escaped ((unescaped_eq_iff _).mp same)
      · intro long f opened
        cases opened
        refine ⟨(unescaped_eq_iff _).mpr fun escaped => ?_, rfl⟩
        exact absurd (long ⟨rfl, valid⟩ escaped) (Nat.not_lt.mpr short)
    · rw [if_neg short]
      exact iff_of_true nofun (fun _ _ => Nat.lt_of_not_le short)
  · exact iff_of_true
      (fun f opened => absurd opened (sqliteRemote_refused url immutable hasHttpVFS accepted f))
      (fun valid => absurd valid accepted)

/-- The server is asked for a file with a space in its name. -/
theorem escaped_blank_decoded :
    ¬ ∀ f, sqliteRemote true ⟨word "https://example.org/my%20data.sqlite", by decide⟩ true = .ok f →
      Arrives ⟨word "https://example.org/my%20data.sqlite", by decide⟩ true f := by
  intro arrives
  have same := (arrives
    { zName := word "https://example.org/my data.sqlite"
      options := [(word "vfs", word "http"), (word "immutable", word "1")] } (by decide)).1
  exact absurd same (by decide)

end RSQLite
