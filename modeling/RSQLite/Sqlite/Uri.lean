import RSQLite.Column.Affinity
import RSQLite.Sqlite.Tokenize

/-!
URI filenames of SQLite, `sqlite3ParseUri()`, and the path that is handed to a VFS. The
options `cache` and `mode` are left out.
-/
namespace RSQLite

def sqlite3HexToInt (h : UInt8) : UInt8 := (h + 9 * ((h >>> (6 : UInt8)) &&& 1)) &&& 15

def octet (high low : UInt8) : UInt8 := (sqlite3HexToInt high <<< 4) + sqlite3HexToInt low

/-- `eState`: the file name, or the name or the value of an option. -/
inductive UriState
  | file
  | name
  | value
deriving DecidableEq, Repr

/-- What becomes of the characters: they are copied, ignored up to the end of the part after
`%00`, or skipped with an option that has no name. -/
inductive UriMode
  | copy
  | ignore
  | skip
deriving DecidableEq, Repr

/-- The characters at which a part ends. -/
def UriState.ends : UriState → UInt8 → Bool
  | file, c => c == 63
  | name, c => c == 61 || c == 38
  | value, c => c == 38

/-- The end of the options. -/
def uriFinish (eState : UriState) (zFile : Bytes) : Bytes :=
  zFile.reverse ++ (if eState = .name then [0] else []) ++ [0, 0, 0, 0]

/-- What is written for a character that stands for itself, most recent byte first. -/
def uriPut (eState : UriState) (c : UInt8) (zFile : Bytes) : UriState × UriMode × Bytes :=
  match eState with
  | .name =>
      if c = 38 ∨ c = 61 then
        if zFile.head? = some 0 then (.name, if c = 38 then .copy else .skip, zFile)
        else if c = 38 then (.name, .copy, 0 :: 0 :: zFile)
        else (.value, .copy, 0 :: zFile)
      else (.name, .copy, c :: zFile)
  | .file => if c = 63 then (.name, .copy, 0 :: zFile) else (.file, .copy, c :: zFile)
  | .value => if c = 38 then (.name, .copy, 0 :: zFile) else (.value, .copy, c :: zFile)

/-- The loop that copies the file name and the options. -/
def uriLoop : UriState × UriMode × Bytes → Bytes → Bytes
  | (eState, _, zFile), [] => uriFinish eState zFile
  | (eState, .skip, zFile), c :: rest =>
      if c = 35 then uriFinish eState zFile
      else uriLoop (eState, if c = 38 then .copy else .skip, zFile) rest
  | (eState, .ignore, zFile), c :: rest =>
      if c = 35 then uriFinish eState zFile
      else if eState.ends c then uriLoop (uriPut eState c zFile) rest
      else uriLoop (eState, .ignore, zFile) rest
  | (eState, .copy, zFile), 37 :: high :: low :: rest =>
      if sqlite3Isxdigit high ∧ sqlite3Isxdigit low then
        if octet high low = 0 then uriLoop (eState, .ignore, zFile) rest
        else uriLoop (eState, .copy, octet high low :: zFile) rest
      else uriLoop (eState, .copy, 37 :: zFile) (high :: low :: rest)
  | (eState, .copy, zFile), c :: rest =>
      if c = 35 then uriFinish eState zFile
      else uriLoop (uriPut eState c zFile) rest

/-- The options behind a file name, each a name and a value. -/
def uriOptions : Nat → Bytes → List (Bytes × Bytes)
  | 0, _ => []
  | fuel + 1, zOpt =>
      if zOpt.head?.getD 0 = 0 then []
      else
        let zVal := zOpt.drop ((cString zOpt).length + 1)
        (cString zOpt, cString zVal) :: uriOptions fuel (zVal.drop ((cString zVal).length + 1))

/-- Why a database is not opened. -/
inductive OpenError
  | invalidAuthority (text : Bytes)
  | noSuchVfs (name : Bytes)
  | cantopen
deriving DecidableEq, Repr

/-- The position behind the authority, which can only be empty or `localhost`. -/
def uriAuthority (zUri : Bytes) : Except OpenError Bytes :=
  if zUri.take 2 = word "//" then
    let authority := (zUri.drop 2).takeWhile (· ≠ 47)
    if authority = [] ∨ authority = word "localhost" then
      .ok (zUri.drop (2 + authority.length))
    else .error (.invalidAuthority authority)
  else .ok zUri

/-- The file name, and the options behind it. -/
def uriFilename (zFile : Bytes) : Bytes × List (Bytes × Bytes) :=
  (cString zFile, uriOptions zFile.length (zFile.drop ((cString zFile).length + 1)))

/-- `sqlite3ParseUri()`: the file name, its options, and the name of the VFS. -/
def sqlite3ParseUri (registered : Bytes → Bool) (zDefaultVfs zUri : Bytes) :
    Except OpenError (Bytes × List (Bytes × Bytes) × Bytes) := do
  let (zFile, options) ←
    if zUri.take 5 = word "file:" then
      (uriAuthority (zUri.drop 5)).map (fun rest => uriFilename (uriLoop (.file, .copy, []) rest))
    else .ok (zUri, [])
  let zVfs := ((options.filter (·.1 = word "vfs")).getLast?.map Prod.snd).getD zDefaultVfs
  if registered zVfs then .ok (zFile, options, zVfs) else .error (.noSuchVfs zVfs)

section Path

/-- A file name of a URI, up to its end: escapes are decoded, and the rest after `%00` is
ignored. -/
def unescaped : Bytes → Bytes
  | [] => []
  | 37 :: high :: low :: rest =>
      if sqlite3Isxdigit high ∧ sqlite3Isxdigit low then
        if octet high low = 0 then [] else octet high low :: unescaped rest
      else 37 :: unescaped (high :: low :: rest)
  | c :: rest => c :: unescaped rest

/-- There is an escape in the text. -/
def Escaped (text : Bytes) : Prop :=
  ∃ before high low rest, text = before ++ 37 :: high :: low :: rest ∧
    sqlite3Isxdigit high = true ∧ sqlite3Isxdigit low = true

variable (text : Bytes)

theorem not_escaped_nil : ¬ Escaped [] := by
  rintro ⟨before, high, low, rest, split, -⟩
  simp at split

theorem escaped_cons (c : UInt8) (rest : Bytes) :
    Escaped (c :: rest) ↔
      (∃ high low rest', c = 37 ∧ rest = high :: low :: rest' ∧ sqlite3Isxdigit high = true ∧
        sqlite3Isxdigit low = true) ∨ Escaped rest := by
  constructor
  · rintro ⟨before, high, low, rest', split, digits⟩
    cases before with
    | nil =>
        simp only [List.nil_append, List.cons.injEq] at split
        exact .inl ⟨high, low, rest', split.1, split.2, digits⟩
    | cons b before =>
        simp only [List.cons_append, List.cons.injEq] at split
        exact .inr ⟨before, high, low, rest', split.2, digits⟩
  · rintro (⟨high, low, rest', rfl, rfl, digits⟩ | ⟨before, high, low, rest', rfl, digits⟩)
    · exact ⟨[], high, low, rest', rfl, digits⟩
    · exact ⟨c :: before, high, low, rest', rfl, digits⟩

theorem unescaped_other (c : UInt8) (rest : Bytes)
    (other : ∀ high low rest', c = 37 → rest = high :: low :: rest' → False) :
    unescaped (c :: rest) = c :: unescaped rest :=
  unescaped.eq_3 c rest other

/-- Each escape makes a file name shorter. -/
theorem unescaped_length (text : Bytes) :
    (unescaped text).length ≤ text.length ∧
      ((unescaped text).length = text.length → ¬ Escaped text) := by
  induction text using unescaped.induct with
  | case1 => exact ⟨Nat.le_refl 0, fun _ => not_escaped_nil⟩
  | case2 high low rest digits ends =>
      rw [unescaped, if_pos digits, if_pos ends]
      simp
  | case3 high low rest digits continues ih =>
      rw [unescaped, if_pos digits, if_neg continues]
      simp only [List.length_cons]
      exact ⟨by omega, fun same => by omega⟩
  | case4 high low rest noDigits ih =>
      rw [unescaped, if_neg noDigits]
      simp only [List.length_cons] at ih ⊢
      refine ⟨by omega, fun same => ?_⟩
      rw [escaped_cons]
      rintro (⟨high', low', rest', -, split, digits⟩ | later)
      · cases split
        exact noDigits digits
      · exact ih.2 (by omega) later
  | case5 c rest other ih =>
      rw [unescaped_other c rest other]
      simp only [List.length_cons]
      refine ⟨by omega, fun same => ?_⟩
      rw [escaped_cons]
      rintro (⟨high, low, rest', percent, split, -⟩ | later)
      · exact other high low rest' percent split
      · exact ih.2 (by omega) later

theorem unescaped_of_not_escaped (text : Bytes) (plain : ¬ Escaped text) :
    unescaped text = text := by
  induction text using unescaped.induct with
  | case1 => rfl
  | case2 high low rest digits ends | case3 high low rest digits continues ih =>
      exact absurd ⟨[], high, low, rest, rfl, digits⟩ plain
  | case4 high low rest noDigits ih =>
      rw [unescaped, if_neg noDigits, ih (fun later => plain ((escaped_cons _ _).mpr (.inr later)))]
  | case5 c rest other ih =>
      rw [unescaped_other c rest other,
        ih (fun later => plain ((escaped_cons _ _).mpr (.inr later)))]

theorem unescaped_eq_iff (text : Bytes) : unescaped text = text ↔ ¬ Escaped text :=
  ⟨fun same => (unescaped_length text).2 (congrArg List.length same),
    unescaped_of_not_escaped text⟩

end Path

theorem uriLoop_ignore (zFile rest query : Bytes) (noQuery : 63 ∉ rest) (noFragment : 35 ∉ rest) :
    uriLoop (.file, .ignore, zFile) (rest ++ 63 :: query) =
      uriLoop (.name, .copy, 0 :: zFile) query := by
  induction rest with
  | nil => rw [List.nil_append, uriLoop]; rfl
  | cons c rest ih =>
      simp only [List.mem_cons, not_or] at noQuery noFragment
      have goes : UriState.file.ends c = false := by
        simp [UriState.ends, Ne.symm noQuery.1]
      rw [List.cons_append, uriLoop, if_neg (Ne.symm noFragment.1), goes]
      exact ih noQuery.2 noFragment.2

theorem uriLoop_plain (c : UInt8) (zFile rest : Bytes) (query : c ≠ 63) (fragment : c ≠ 35)
    (plain : ∀ high low rest', c = 37 → rest = high :: low :: rest' →
      ¬ (sqlite3Isxdigit high = true ∧ sqlite3Isxdigit low = true)) :
    uriLoop (.file, .copy, zFile) (c :: rest) = uriLoop (.file, .copy, c :: zFile) rest := by
  have put : uriPut .file c zFile = (.file, .copy, c :: zFile) := by simp [uriPut, query]
  by_cases percent : c = 37
  · subst percent
    match rest, plain with
    | [], _ => rfl
    | [_], _ => rw [uriLoop, if_neg fragment, put]; simp
    | high :: low :: rest', plain =>
        rw [uriLoop, if_neg (plain high low rest' rfl rfl)]
  · rw [uriLoop, if_neg fragment, put]
    exact fun high low rest' same => absurd same percent

/-- A file name is copied with its escapes decoded. -/
theorem uriLoop_file (text zFile query : Bytes) (noQuery : 63 ∉ text) (noFragment : 35 ∉ text) :
    uriLoop (.file, .copy, zFile) (text ++ 63 :: query) =
      uriLoop (.name, .copy, 0 :: ((unescaped text).reverse ++ zFile)) query := by
  induction text using unescaped.induct generalizing zFile with
  | case1 =>
      rw [List.nil_append, uriLoop]
      · rfl
      · exact fun high low rest same => absurd same (by decide)
  | case2 high low rest digits ends =>
      simp only [List.mem_cons, not_or] at noQuery noFragment
      simp only [List.cons_append]
      rw [uriLoop, if_pos digits, if_pos ends, unescaped, if_pos digits, if_pos ends]
      exact uriLoop_ignore zFile rest query noQuery.2.2.2 noFragment.2.2.2
  | case3 high low rest digits continues ih =>
      simp only [List.mem_cons, not_or] at noQuery noFragment
      simp only [List.cons_append]
      rw [uriLoop, if_pos digits, if_neg continues, unescaped, if_pos digits, if_neg continues,
        ih _ noQuery.2.2.2 noFragment.2.2.2]
      simp
  | case4 high low rest noDigits ih =>
      rw [List.mem_cons, not_or] at noQuery noFragment
      rw [List.cons_append, uriLoop_plain 37 zFile _ (by decide) (by decide), unescaped,
        if_neg noDigits, ih _ noQuery.2 noFragment.2]
      · simp
      · intro high' low' rest' _ split
        cases split
        exact noDigits
  | case5 c rest other ih =>
      rw [List.mem_cons, not_or] at noQuery noFragment
      rw [List.cons_append, uriLoop_plain c zFile _ (Ne.symm noQuery.1) (Ne.symm noFragment.1),
        unescaped_other c rest other, ih _ noQuery.2 noFragment.2]
      · simp
      · -- the question mark behind the name is no digit
        intro high low rest' percent split
        match rest, other, split with
        | [], _, split =>
            cases split
            exact fun digits => absurd digits.1 (by decide)
        | [_], _, split =>
            cases split
            exact fun digits => absurd digits.2 (by decide)
        | first :: second :: tail, other, _ => exact absurd rfl (other first second tail percent)

theorem unescaped_noNul (text : Bytes) (noNul : 0 ∉ text) : 0 ∉ unescaped text := by
  induction text using unescaped.induct with
  | case1 => exact noNul
  | case2 high low rest digits ends =>
      rw [unescaped, if_pos digits, if_pos ends]
      exact List.not_mem_nil
  | case3 high low rest digits continues ih =>
      rw [unescaped, if_pos digits, if_neg continues]
      simp only [List.mem_cons, not_or] at noNul ⊢
      exact ⟨Ne.symm continues, ih noNul.2.2.2⟩
  | case4 high low rest noDigits ih =>
      rw [unescaped, if_neg noDigits]
      rw [List.mem_cons, not_or] at noNul ⊢
      exact ⟨noNul.1, ih noNul.2⟩
  | case5 c rest other ih =>
      rw [unescaped_other c rest other]
      rw [List.mem_cons, not_or] at noNul ⊢
      exact ⟨noNul.1, ih noNul.2⟩

theorem unescaped_append (before rest : Bytes) (plain : 37 ∉ before) :
    unescaped (before ++ rest) = before ++ unescaped rest := by
  induction before with
  | nil => rfl
  | cons c before ih =>
      rw [List.mem_cons, not_or] at plain
      rw [List.cons_append, unescaped_other c _ (fun _ _ _ percent _ => plain.1 percent.symm),
        ih plain.2, List.cons_append]

theorem uriFilename_append (zFile options : Bytes) (noNul : 0 ∉ zFile) :
    uriFilename (zFile ++ 0 :: options) =
      (zFile, uriOptions (zFile.length + (options.length + 1)) options) := by
  have name : cString (zFile ++ 0 :: options) = zFile := by
    rw [cString, List.takeWhile_append_of_pos]
    · exact List.append_nil zFile
    · exact fun b member => decide_eq_true (ne_of_mem_of_not_mem member noNul)
  have behind : (zFile ++ 0 :: options).drop (zFile.length + 1) = options := by
    simp [List.drop_append]
  rw [uriFilename, name, behind, List.length_append, List.length_cons]

end RSQLite
