import RSQLite.Library.CString
import RSQLite.Sqlite.Uri

/-!
The SQL functions `uuid()`, `uuid_str()` and `uuid_blob()`: which values stand for a UUID, and the
texts that are written for them. `isxdigit()` accepts what `sqlite3Isxdigit()` accepts.
-/
namespace RSQLite.Uuid

inductive UuidExit
  | outOfBounds
  | assertion
deriving DecidableEq, Repr

abbrev Reading := Except UuidExit

def hyphen : UInt8 := 45

def openingBrace : UInt8 := 123

def closingBrace : UInt8 := 125

/-- `z[i]` -/
def charAt (z : Bytes) (i : Nat) : Reading UInt8 :=
  match z[i]? with
  | some c => .ok c
  | none => .error .outOfBounds

def sqlite3UuidHexToInt (h : UInt8) : Reading UInt8 :=
  if sqlite3Isxdigit h then .ok (sqlite3HexToInt h) else .error .assertion

def zDigits : Bytes := [48, 49, 50, 51, 52, 53, 54, 55, 56, 57, 97, 98, 99, 100, 101, 102]

/-- The rest of the loop of `sqlite3UuidBlobToStr()`, and the NUL. -/
def blobLoop : Nat → Nat → Bytes → Reading Bytes
  | 0, _, _ => .ok [0]
  | n + 1, k, aBlob => do
      let x ← charAt aBlob 0
      let high ← charAt zDigits (x >>> (4 : UInt8)).toNat
      let low ← charAt zDigits (x &&& 15).toNat
      let zStr ← blobLoop n (k / 2) (aBlob.drop 1)
      .ok ((if k % 2 = 1 then [hyphen] else []) ++ high :: low :: zStr)

def sqlite3UuidBlobToStr (aBlob : Bytes) : Reading Bytes := blobLoop 16 0x550 aBlob

/-- `if( zStr[0]==c ) zStr++;` -/
def skipChar (c : UInt8) (zStr : Bytes) : Reading Bytes := do
  let first ← charAt zStr 0
  .ok (if first = c then zStr.drop 1 else zStr)

/-- The octets that are left, and what is behind them. -/
def strLoop : Nat → Bytes → Reading (Option (Bytes × Bytes))
  | 0, zStr => .ok (some ([], zStr))
  | n + 1, zStr => do
      let zStr ← skipChar hyphen zStr
      let high ← charAt zStr 0
      if sqlite3Isxdigit high then
        let low ← charAt zStr 1
        if sqlite3Isxdigit low then
          let x ← sqlite3UuidHexToInt high
          let y ← sqlite3UuidHexToInt low
          let rest ← strLoop n (zStr.drop 2)
          .ok (rest.map fun (aBlob, zStr) => (((x <<< (4 : UInt8)) + y) :: aBlob, zStr))
        else .ok none
      else .ok none

def sqlite3UuidStrToBlob : Option Bytes → Reading (Option Bytes)
  | none => .ok none
  | some zStr => do
      let zStr ← skipChar openingBrace zStr
      match ← strLoop 16 zStr with
      | none => .ok none
      | some (aBlob, zStr) => do
          let zStr ← skipChar closingBrace zStr
          let last ← charAt zStr 0
          .ok (if last ≠ 0 then none else some aBlob)

/-- A text is followed by a NUL. -/
def sqlite3UuidInputToBlob : SqlValue → Reading (Option Bytes)
  | .text z => sqlite3UuidStrToBlob (some (z ++ [0]))
  | .blob pBlob => .ok (if pBlob.length = 16 then some pBlob else none)
  | .null | .integer _ | .real _ => .ok none

/-- `aBlob` is what `sqlite3_randomness()` has written. -/
def sqlite3UuidFunc (aBlob : Bytes) : Reading SqlValue := do
  let x ← charAt aBlob 6
  let aBlob := aBlob.set 6 ((x &&& 15) + 64)
  let y ← charAt aBlob 8
  let aBlob := aBlob.set 8 ((y &&& 63) + 128)
  let zStr ← sqlite3UuidBlobToStr aBlob
  .ok (.text (zStr.take 36))

def sqlite3UuidStrFunc (v : SqlValue) : Reading SqlValue := do
  match ← sqlite3UuidInputToBlob v with
  | none => .ok .null
  | some pBlob => do
      let zStr ← sqlite3UuidBlobToStr pBlob
      .ok (.text (zStr.take 36))

def sqlite3UuidBlobFunc (v : SqlValue) : Reading SqlValue := do
  match ← sqlite3UuidInputToBlob v with
  | none => .ok .null
  | some pBlob => .ok (.blob (pBlob.take 16))

def digitValue (c : UInt8) : Nat :=
  if c.toNat ≤ 57 then c.toNat - 48 else if c.toNat ≤ 70 then c.toNat - 55 else c.toNat - 87

/-- Two digits, which may have a hyphen in front of them. -/
structure Octet where
  hyphenated : Bool
  high : UInt8
  low : UInt8
  digits : sqlite3Isxdigit high = true ∧ sqlite3Isxdigit low = true

def Octet.text (o : Octet) : Bytes :=
  (if o.hyphenated then [hyphen] else []) ++ [o.high, o.low]

def Octet.value (o : Octet) : UInt8 := UInt8.ofNat (16 * digitValue o.high + digitValue o.low)

def octetsText (os : List Octet) : Bytes := os.flatMap Octet.text

/-- A text for a UUID. Each of the braces may be absent. -/
structure Spelling where
  opened : Bool
  octets : List Octet
  sixteen : octets.length = 16
  closed : Bool

def Spelling.text (s : Spelling) : Bytes :=
  (if s.opened then [openingBrace] else []) ++
    (octetsText s.octets ++ if s.closed then [closingBrace] else [])

def Spelling.blob (s : Spelling) : Bytes := s.octets.map Octet.value

/-- The UUID that a value stands for. -/
inductive StandsFor : SqlValue → Bytes → Prop
  | blob {b : Bytes} (sixteen : b.length = 16) : StandsFor (.blob b) b
  | text {z : Bytes} (s : Spelling) (spelled : cString z = s.text) : StandsFor (.text z) s.blob

theorem isxdigit_distinct (c : UInt8) (digit : sqlite3Isxdigit c = true) :
    c ≠ 0 ∧ c ≠ hyphen ∧ c ≠ openingBrace ∧ c ≠ closingBrace :=
  forall_byte (fun c => sqlite3Isxdigit c = true →
    c ≠ 0 ∧ c ≠ hyphen ∧ c ≠ openingBrace ∧ c ≠ closingBrace) (by decide +kernel) c digit

theorem hexToInt_value (c : UInt8) (digit : sqlite3Isxdigit c = true) :
    (sqlite3HexToInt c).toNat = digitValue c ∧ digitValue c < 16 :=
  forall_byte (fun c => sqlite3Isxdigit c = true →
    (sqlite3HexToInt c).toNat = digitValue c ∧ digitValue c < 16) (by decide +kernel) c digit

theorem Octet.value_eq (o : Octet) :
    (sqlite3HexToInt o.high <<< (4 : UInt8)) + sqlite3HexToInt o.low = o.value := by
  obtain ⟨high, _⟩ := hexToInt_value o.high o.digits.1
  obtain ⟨low, _⟩ := hexToInt_value o.low o.digits.2
  rw [Octet.value, ← high, ← low]
  apply UInt8.toNat_inj.mp
  rw [UInt8.toNat_add, UInt8.toNat_shiftLeft, UInt8.toNat_ofNat']
  have four : ((4 : UInt8).toNat % 8) = 4 := rfl
  rw [four, Nat.shiftLeft_eq]
  omega

theorem charAt_cons (c : UInt8) (z : Bytes) : charAt (c :: z) 0 = .ok c := rfl

theorem skipChar_same (c : UInt8) (z : Bytes) : skipChar c (c :: z) = .ok z := by
  rw [skipChar, charAt_cons]
  exact congrArg Except.ok (if_pos rfl)

theorem skipChar_other {c d : UInt8} (other : d ≠ c) (z : Bytes) :
    skipChar c (d :: z) = .ok (d :: z) := by
  rw [skipChar, charAt_cons]
  exact congrArg Except.ok (if_neg other)

theorem skipChar_optional {c d : UInt8} (given : Bool) (other : d ≠ c) (z : Bytes) :
    skipChar c ((if given then [c] else []) ++ d :: z) = .ok (d :: z) := by
  cases given with
  | false => exact skipChar_other other z
  | true => exact skipChar_same c (d :: z)

theorem skipChar_spec (c : UInt8) {z : Bytes} (nonzero : c ≠ 0) (nul : 0 ∈ z) :
    ∃ (given : Bool) (rest : Bytes), z = (if given then [c] else []) ++ rest ∧ 0 ∈ rest ∧
      skipChar c z = .ok rest := by
  cases z with
  | nil => cases nul
  | cons d rest =>
    by_cases same : d = c
    · subst same
      have later : 0 ∈ rest := (List.mem_cons.mp nul).resolve_left (Ne.symm nonzero)
      exact ⟨true, rest, rfl, later, skipChar_same d rest⟩
    · exact ⟨false, d :: rest, rfl, nul, skipChar_other same rest⟩

theorem octetsText_cons (o : Octet) (os : List Octet) (rest : Bytes) :
    octetsText (o :: os) ++ rest =
      (if o.hyphenated then [hyphen] else []) ++ o.high :: o.low :: (octetsText os ++ rest) := by
  rw [octetsText, List.flatMap_cons, Octet.text, List.append_assoc, List.append_assoc]
  rfl

theorem strLoop_octets (os : List Octet) (rest : Bytes) :
    strLoop os.length (octetsText os ++ rest) = .ok (some (os.map Octet.value, rest)) := by
  induction os with
  | nil => rfl
  | cons o os ih =>
    obtain ⟨high, low⟩ := o.digits
    have skipped := skipChar_optional o.hyphenated (isxdigit_distinct o.high high).2.1
      (o.low :: (octetsText os ++ rest))
    rw [octetsText_cons, List.length_cons, strLoop, skipped]
    change (if sqlite3Isxdigit o.high then _ else _) = _
    rw [if_pos high]
    change (if sqlite3Isxdigit o.low then _ else _) = _
    rw [if_pos low, sqlite3UuidHexToInt, sqlite3UuidHexToInt, if_pos high, if_pos low]
    change (strLoop os.length (octetsText os ++ rest) >>= _) = _
    rw [ih, List.map_cons, ← o.value_eq]
    rfl

/-- The loop stays in front of the NUL, and stops at octets only. -/
theorem strLoop_spec (n : Nat) {z : Bytes} (nul : 0 ∈ z) :
    strLoop n z = .ok none ∨ ∃ os rest, os.length = n ∧ z = octetsText os ++ rest ∧ 0 ∈ rest := by
  induction n generalizing z with
  | zero => exact .inr ⟨[], z, rfl, rfl, nul⟩
  | succ n ih =>
    obtain ⟨hyphenated, behind, text, nul', skipped⟩ := skipChar_spec hyphen (by decide) nul
    rw [strLoop, skipped]
    cases behind with
    | nil => cases nul'
    | cons high behind =>
      change (if sqlite3Isxdigit high then _ else _) = _ ∨ _
      by_cases first : sqlite3Isxdigit high = true
      · have later : 0 ∈ behind :=
          (List.mem_cons.mp nul').resolve_left (isxdigit_distinct high first).1.symm
        rw [if_pos first]
        cases behind with
        | nil => cases later
        | cons low behind =>
          change (if sqlite3Isxdigit low then _ else _) = _ ∨ _
          by_cases second : sqlite3Isxdigit low = true
          · have later' : 0 ∈ behind :=
              (List.mem_cons.mp later).resolve_left (isxdigit_distinct low second).1.symm
            rw [if_pos second, sqlite3UuidHexToInt, sqlite3UuidHexToInt, if_pos first,
              if_pos second]
            change (strLoop n behind >>= _) = _ ∨ _
            obtain none_ | ⟨os, rest, length, tail, nul''⟩ := ih later'
            · rw [none_]
              exact .inl rfl
            · refine .inr ⟨⟨hyphenated, high, low, first, second⟩ :: os, rest,
                congrArg Nat.succ length, ?_, nul''⟩
              rw [octetsText_cons, text, tail]
          · rw [if_neg second]
            exact .inl rfl
      · rw [if_neg first]
        exact .inl rfl

theorem octetsText_head (o : Octet) (os : List Octet) (rest : Bytes) :
    ∃ c tail, octetsText (o :: os) ++ rest = c :: tail ∧ c ≠ openingBrace := by
  rw [octetsText_cons]
  cases o.hyphenated with
  | false => exact ⟨_, _, rfl, (isxdigit_distinct o.high o.digits.1).2.2.1⟩
  | true => exact ⟨hyphen, _, rfl, by decide⟩

theorem spelling_append (s : Spelling) (rest : Bytes) :
    s.text ++ rest = (if s.opened then [openingBrace] else []) ++
      (octetsText s.octets ++ ((if s.closed then [closingBrace] else []) ++ rest)) := by
  rw [Spelling.text, List.append_assoc, List.append_assoc]

theorem strToBlob_spelling (s : Spelling) (rest : Bytes) :
    sqlite3UuidStrToBlob (some (s.text ++ 0 :: rest)) = .ok (some s.blob) := by
  rw [sqlite3UuidStrToBlob, spelling_append]
  obtain ⟨opened, octets, sixteen, closed⟩ := s
  have loop := strLoop_octets octets ((if closed then [closingBrace] else []) ++ 0 :: rest)
  have behind := @skipChar_optional closingBrace 0 closed (by decide) rest
  rw [sixteen] at loop
  cases octets with
  | nil => cases sixteen
  | cons o octets =>
    obtain ⟨c, tail, head, noBrace⟩ :=
      octetsText_head o octets ((if closed then [closingBrace] else []) ++ 0 :: rest)
    dsimp only
    rw [head] at loop ⊢
    rw [skipChar_optional opened noBrace tail]
    change (strLoop 16 (c :: tail) >>= _) = _
    rw [loop]
    change (skipChar closingBrace _ >>= _) = _
    rw [behind]
    rfl

/-- What is read in front of a NUL is a spelling. -/
theorem strToBlob_spec {z : Bytes} (nul : 0 ∈ z) :
    sqlite3UuidStrToBlob (some z) = .ok none ∨
      ∃ (s : Spelling) (rest : Bytes), z = s.text ++ 0 :: rest := by
  obtain ⟨opened, inside, text, nul₁, skipped⟩ := skipChar_spec openingBrace (by decide) nul
  rw [sqlite3UuidStrToBlob, skipped]
  change (strLoop 16 inside >>= _) = _ ∨ _
  obtain none_ | ⟨os, behind, sixteen, octets, nul₂⟩ := strLoop_spec 16 nul₁
  · rw [none_]
    exact .inl rfl
  · obtain ⟨closed, last, close, nul₃, skipped'⟩ := skipChar_spec closingBrace (by decide) nul₂
    have loop := strLoop_octets os behind
    rw [sixteen] at loop
    rw [octets, loop]
    change (skipChar closingBrace behind >>= _) = _ ∨ _
    rw [skipped']
    cases last with
    | nil => cases nul₃
    | cons c rest =>
      change Except.ok (if c ≠ 0 then none else _) = _ ∨ _
      by_cases more : c ≠ 0
      · rw [if_pos more]
        exact .inl rfl
      · obtain rfl := not_not.mp more
        refine .inr ⟨⟨opened, os, sixteen, closed⟩, rest, ?_⟩
        rw [spelling_append, text, octets, close]

theorem octetsText_noNul (os : List Octet) : 0 ∉ octetsText os := by
  rw [octetsText, List.mem_flatMap]
  rintro ⟨o, _, nul⟩
  obtain ⟨high, low⟩ := o.digits
  rw [Octet.text, List.mem_append] at nul
  rcases nul with nul | nul
  · cases given : o.hyphenated <;> simp [given, hyphen] at nul
  · rcases List.mem_pair.mp nul with zero | zero
    · exact (isxdigit_distinct o.high high).1 zero.symm
    · exact (isxdigit_distinct o.low low).1 zero.symm

theorem Spelling.noNul (s : Spelling) : 0 ∉ s.text := by
  rw [Spelling.text, List.mem_append, List.mem_append]
  rintro (nul | nul | nul)
  · cases given : s.opened <;> simp [given, openingBrace] at nul
  · exact octetsText_noNul s.octets nul
  · cases given : s.closed <;> simp [given, closingBrace] at nul

theorem cString_terminated (z : Bytes) : ∃ rest, z ++ [0] = cString z ++ 0 :: rest := by
  induction z with
  | nil => exact ⟨[], rfl⟩
  | cons c z ih =>
    by_cases zero : c = 0
    · subst zero
      exact ⟨z ++ [0], rfl⟩
    · obtain ⟨rest, same⟩ := ih
      refine ⟨rest, ?_⟩
      have kept : cString (c :: z) = c :: cString z := by
        rw [cString, List.takeWhile_cons_of_pos (by simpa using zero)]
        rfl
      rw [kept, List.cons_append, List.cons_append, same]

theorem cString_spelling {z rest : Bytes} {s : Spelling} (same : z ++ [0] = s.text ++ 0 :: rest) :
    cString z = s.text := by
  rw [cString, ← CString.takeWhile_before z [] 0, same]
  exact CString.takeWhile_delimited s.text rest 0 s.noNul

/-- Every value is refused, or read as the UUID that it stands for, within its text. -/
theorem inputToBlob_spec (v : SqlValue) :
    ∃ r, sqlite3UuidInputToBlob v = .ok r ∧ ∀ b, r = some b ↔ StandsFor v b := by
  cases v with
  | null | integer _ | real _ =>
    refine ⟨none, rfl, fun b => ?_⟩
    constructor
    · intro no
      cases no
    · intro no
      cases no
  | blob b =>
    refine ⟨_, rfl, fun b' => ?_⟩
    constructor
    · intro same
      by_cases sixteen : b.length = 16
      · rw [if_pos sixteen] at same
        exact Option.some.inj same ▸ .blob sixteen
      · rw [if_neg sixteen] at same
        cases same
    · rintro ⟨sixteen⟩
      exact if_pos sixteen
  | text z =>
    obtain ⟨rest, whole⟩ := cString_terminated z
    have spelled (s : Spelling) (same : cString z = s.text) :
        sqlite3UuidInputToBlob (.text z) = .ok (some s.blob) := by
      rw [sqlite3UuidInputToBlob, whole, same]
      exact strToBlob_spelling s rest
    obtain none_ | ⟨s, rest', text⟩ := strToBlob_spec (List.mem_append_right z (.head []))
    · refine ⟨none, none_, fun b => ?_⟩
      constructor
      · intro no
        cases no
      · intro stands
        cases stands with
        | text s same =>
          have read := none_.symm.trans (spelled s same)
          cases read
    · have same := cString_spelling text
      refine ⟨some s.blob, spelled s same, fun b => ⟨fun same' => ?_, fun stands => ?_⟩⟩
      · exact Option.some.inj same' ▸ .text s same
      · cases stands with
        | text s' same' => exact Except.ok.inj ((spelled s same).symm.trans (spelled s' same'))

def lowerDigit (n : Nat) : UInt8 := UInt8.ofNat (if n < 10 then 48 + n else 87 + n)

theorem lowerDigit_spec {n : Nat} (small : n < 16) :
    sqlite3Isxdigit (lowerDigit n) = true ∧ digitValue (lowerDigit n) = n ∧
      zDigits[n]? = some (lowerDigit n) :=
  (by decide : ∀ n : Fin 16, sqlite3Isxdigit (lowerDigit n) = true ∧
    digitValue (lowerDigit n) = n ∧ zDigits[n.val]? = some (lowerDigit n)) ⟨n, small⟩

theorem high_small (b : UInt8) : b.toNat / 16 < 16 := by
  have := b.toNat_lt
  omega

theorem low_small (b : UInt8) : b.toNat % 16 < 16 := Nat.mod_lt _ (by decide)

def writtenOctet (hyphenated : Bool) (b : UInt8) : Octet where
  hyphenated := hyphenated
  high := lowerDigit (b.toNat / 16)
  low := lowerDigit (b.toNat % 16)
  digits := ⟨(lowerDigit_spec (high_small b)).1, (lowerDigit_spec (low_small b)).1⟩

theorem writtenOctet_value (hyphenated : Bool) (b : UInt8) :
    (writtenOctet hyphenated b).value = b := by
  change UInt8.ofNat (16 * digitValue (lowerDigit (b.toNat / 16)) +
    digitValue (lowerDigit (b.toNat % 16))) = b
  rw [(lowerDigit_spec (high_small b)).2.1, (lowerDigit_spec (low_small b)).2.1,
    Nat.div_add_mod, UInt8.ofNat_toNat]

/-- The octets in front of which a hyphen is written. -/
def groups : List Nat := [4, 6, 8, 10]

def writtenOctets (b : Bytes) : List Octet := b.mapIdx fun i => writtenOctet (decide (i ∈ groups))

/-- `xxxxxxxx-xxxx-xxxx-xxxx-xxxxxxxxxxxx` -/
def written (b : Bytes) : Bytes := octetsText (writtenOctets b)

theorem blobLoop_octets (b : Bytes) (k : Nat) :
    blobLoop b.length k b =
      .ok (octetsText (b.mapIdx fun i => writtenOctet (k.testBit i)) ++ [0]) := by
  induction b generalizing k with
  | nil => rfl
  | cons x b ih =>
    have high : charAt zDigits (x >>> (4 : UInt8)).toNat = .ok (lowerDigit (x.toNat / 16)) := by
      have shift : (x >>> (4 : UInt8)).toNat = x.toNat / 16 := by
        rw [UInt8.toNat_shiftRight, Nat.shiftRight_eq_div_pow]
        rfl
      rw [shift, charAt, (lowerDigit_spec (high_small x)).2.2]
    have low : charAt zDigits (x &&& 15).toNat = .ok (lowerDigit (x.toNat % 16)) := by
      have mask : (x &&& 15).toNat = x.toNat % 16 := Nat.and_two_pow_sub_one_eq_mod x.toNat 4
      rw [mask, charAt, (lowerDigit_spec (low_small x)).2.2]
    have later : (b.mapIdx fun i => writtenOctet (k.testBit (i + 1))) =
        b.mapIdx fun i => writtenOctet ((k / 2).testBit i) := by
      simp only [Nat.testBit_succ]
    have first : k.testBit 0 = decide (k % 2 = 1) := Nat.testBit_zero k
    rw [List.length_cons, blobLoop, charAt_cons]
    change (charAt zDigits (x >>> (4 : UInt8)).toNat >>= _) = _
    rw [high]
    change (charAt zDigits (x &&& 15).toNat >>= _) = _
    rw [low]
    change (blobLoop b.length (k / 2) b >>= _) = _
    rw [ih, List.mapIdx_cons, octetsText_cons, later]
    change Except.ok ((if k % 2 = 1 then [hyphen] else []) ++ _) =
      Except.ok ((if k.testBit 0 = true then [hyphen] else []) ++ _)
    simp only [first, decide_eq_true_eq]
    rfl

theorem testBit_groups (i : Nat) : Nat.testBit 0x550 i = decide (i ∈ groups) := by
  by_cases inside : i < 11
  · exact (by decide : ∀ i : Fin 11, Nat.testBit 0x550 i = decide (i.val ∈ groups)) ⟨i, inside⟩
  · have large : 0x550 < 2 ^ i :=
      Nat.lt_of_lt_of_le (by decide) (Nat.pow_le_pow_right (by decide) (Nat.not_lt.mp inside))
    rw [Nat.testBit_lt_two_pow large]
    simp [groups]
    omega

theorem blobToStr_written {b : Bytes} (sixteen : b.length = 16) :
    sqlite3UuidBlobToStr b = .ok (written b ++ [0]) := by
  rw [sqlite3UuidBlobToStr, ← sixteen, blobLoop_octets]
  simp only [testBit_groups]
  rfl

theorem writtenOctets_values (b : Bytes) : (writtenOctets b).map Octet.value = b := by
  apply List.ext_getElem
  · rw [List.length_map, writtenOctets, List.length_mapIdx]
  · intro i _ _
    simp only [writtenOctets, List.getElem_map, List.getElem_mapIdx, writtenOctet_value]

theorem octetsText_length (os : List Octet) :
    (octetsText os).length = 2 * os.length + (os.map Octet.hyphenated).count true := by
  induction os with
  | nil => rfl
  | cons o os ih =>
    have text := congrArg List.length (octetsText_cons o os [])
    rw [List.append_nil, List.append_nil, List.length_append, List.length_cons, List.length_cons,
      ih] at text
    rw [text, List.map_cons, List.length_cons]
    cases o.hyphenated with
    | false => simp; omega
    | true => simp; omega

theorem written_length {b : Bytes} (sixteen : b.length = 16) : (written b).length = 36 := by
  have marks : (writtenOctets b).map Octet.hyphenated =
      (List.range 16).map fun i => decide (i ∈ groups) := by
    apply List.ext_getElem
    · simp [writtenOctets, sixteen]
    · intro i _ _
      simp [writtenOctets, writtenOctet]
  rw [written, octetsText_length, marks, writtenOctets, List.length_mapIdx, sixteen]
  decide

def canonical (b : Bytes) (sixteen : b.length = 16) : Spelling where
  opened := false
  octets := writtenOctets b
  sixteen := by rw [writtenOctets, List.length_mapIdx, sixteen]
  closed := false

theorem written_standsFor {b : Bytes} (sixteen : b.length = 16) :
    StandsFor (.text (written b)) b := by
  have same : (canonical b sixteen).text = written b := List.append_nil _
  have spelled := StandsFor.text (canonical b sixteen)
    (cString_of_no_nul _ (canonical b sixteen).noNul)
  rw [same, Spelling.blob, canonical, writtenOctets_values] at spelled
  exact spelled

variable {v w : SqlValue} {b c : Bytes}

theorem StandsFor.length (stands : StandsFor v b) : b.length = 16 := by
  cases stands with
  | blob sixteen => exact sixteen
  | text s _ => rw [Spelling.blob, List.length_map, s.sixteen]

theorem StandsFor.unique (stands : StandsFor v b) (stands' : StandsFor v c) : b = c := by
  obtain ⟨r, _, decides⟩ := inputToBlob_spec v
  exact Option.some.inj (((decides b).mpr stands).symm.trans ((decides c).mpr stands'))

theorem uuidFuncs_standsFor (stands : StandsFor v b) :
    sqlite3UuidBlobFunc v = .ok (.blob b) ∧ sqlite3UuidStrFunc v = .ok (.text (written b)) := by
  obtain ⟨r, read, decides⟩ := inputToBlob_spec v
  obtain rfl := (decides b).mpr stands
  have whole : (written b ++ [0]).take 36 = written b :=
    List.take_left' (written_length stands.length)
  constructor
  · rw [sqlite3UuidBlobFunc, read]
    change Except.ok (SqlValue.blob (b.take 16)) = _
    rw [List.take_of_length_le stands.length.le]
  · rw [sqlite3UuidStrFunc, read]
    change (sqlite3UuidBlobToStr b >>= _) = _
    rw [blobToStr_written stands.length]
    change Except.ok (SqlValue.text ((written b ++ [0]).take 36)) = _
    rw [whole]

/-- For every value, `uuid_blob()` and `uuid_str()` give the UUID that it stands for, or NULL where
it stands for none. They read nothing behind the NUL of a text. -/
theorem uuidFuncs_spec (v : SqlValue) :
    (∃ b, StandsFor v b ∧ sqlite3UuidBlobFunc v = .ok (.blob b) ∧
      sqlite3UuidStrFunc v = .ok (.text (written b))) ∨
    ((∀ b, ¬ StandsFor v b) ∧ sqlite3UuidBlobFunc v = .ok .null ∧
      sqlite3UuidStrFunc v = .ok .null) := by
  obtain ⟨r, read, decides⟩ := inputToBlob_spec v
  cases r with
  | some b => exact .inl ⟨b, (decides b).mp rfl, uuidFuncs_standsFor ((decides b).mp rfl)⟩
  | none =>
    refine .inr ⟨fun b stands => ?_, ?_, ?_⟩
    · have no := (decides b).mpr stands
      cases no
    · rw [sqlite3UuidBlobFunc, read]
      rfl
    · rw [sqlite3UuidStrFunc, read]
      rfl

theorem written_inj (sixteen : b.length = 16) (sixteen' : c.length = 16)
    (same : written b = written c) : b = c := by
  have readBack := written_standsFor sixteen
  rw [same] at readBack
  exact readBack.unique (written_standsFor sixteen')

/-- Two values have the same text if and only if they have the same bytes. -/
theorem uuidStr_eq_iff (v w : SqlValue) :
    sqlite3UuidStrFunc v = sqlite3UuidStrFunc w ↔
      sqlite3UuidBlobFunc v = sqlite3UuidBlobFunc w := by
  obtain ⟨b, stands, blob, str⟩ | ⟨_, blob, str⟩ := uuidFuncs_spec v
  · obtain ⟨c, stands', blob', str'⟩ | ⟨_, blob', str'⟩ := uuidFuncs_spec w
    · rw [blob, blob', str, str']
      constructor
      · intro same
        have texts : written b = written c := SqlValue.text.inj (Except.ok.inj same)
        rw [written_inj stands.length stands'.length texts]
      · intro same
        rw [SqlValue.blob.inj (Except.ok.inj same)]
    · rw [blob, blob', str, str']
      exact ⟨fun no => (by cases no), fun no => (by cases no)⟩
  · obtain ⟨c, _, blob', str'⟩ | ⟨_, blob', str'⟩ := uuidFuncs_spec w
    · rw [blob, blob', str, str']
      exact ⟨fun no => (by cases no), fun no => (by cases no)⟩
    · rw [blob, blob', str, str']

/-- `uuid_str()` chooses one text for each UUID: the result stands for what the argument stands
for, and it is its own result. -/
theorem uuidStr_canonical (v : SqlValue) :
    ∃ r, sqlite3UuidStrFunc v = .ok r ∧ sqlite3UuidStrFunc r = .ok r ∧
      sqlite3UuidBlobFunc r = sqlite3UuidBlobFunc v ∧
      ∀ w, sqlite3UuidStrFunc w = .ok r ↔ sqlite3UuidBlobFunc w = sqlite3UuidBlobFunc v := by
  have result : ∃ r, sqlite3UuidStrFunc v = .ok r ∧ sqlite3UuidStrFunc r = .ok r := by
    obtain ⟨b, stands, _, str⟩ | ⟨_, _, str⟩ := uuidFuncs_spec v
    · exact ⟨_, str, (uuidFuncs_standsFor (written_standsFor stands.length)).2⟩
    · exact ⟨.null, str, rfl⟩
  obtain ⟨r, str, again⟩ := result
  refine ⟨r, str, again, (uuidStr_eq_iff r v).mp (again.trans str.symm), fun w => ?_⟩
  rw [← uuidStr_eq_iff w v, str]

theorem version_bits (x : UInt8) : ((x &&& 15) + 64).toNat / 16 = 4 :=
  forall_byte (fun x => ((x &&& 15) + 64).toNat / 16 = 4) (by decide +kernel) x

theorem variant_bits (x : UInt8) : ((x &&& 63) + 128).toNat / 64 = 2 :=
  forall_byte (fun x => ((x &&& 63) + 128).toNat / 64 = 2) (by decide +kernel) x

theorem version_rest (x : UInt8) : ((x &&& 15) + 64).toNat % 16 = x.toNat % 16 :=
  forall_byte (fun x => ((x &&& 15) + 64).toNat % 16 = x.toNat % 16) (by decide +kernel) x

theorem variant_rest (x : UInt8) : ((x &&& 63) + 128).toNat % 64 = x.toNat % 64 :=
  forall_byte (fun x => ((x &&& 63) + 128).toNat % 64 = x.toNat % 64) (by decide +kernel) x

/-- What `uuid()` gives is read back as a UUID of version 4 and variant 1, random elsewhere. -/
theorem uuidFunc_version {aBlob : Bytes} (sixteen : aBlob.length = 16) :
    ∃ v b x y p q, sqlite3UuidFunc aBlob = .ok v ∧ sqlite3UuidStrFunc v = .ok v ∧
      sqlite3UuidBlobFunc v = .ok (.blob b) ∧ b.length = 16 ∧
      aBlob[6]? = some p ∧ b[6]? = some x ∧ x.toNat / 16 = 4 ∧ x.toNat % 16 = p.toNat % 16 ∧
      aBlob[8]? = some q ∧ b[8]? = some y ∧ y.toNat / 64 = 2 ∧ y.toNat % 64 = q.toNat % 64 ∧
      ∀ i, i ≠ 6 → i ≠ 8 → b[i]? = aBlob[i]? := by
  obtain ⟨p, at6⟩ : ∃ p, aBlob[6]? = some p := ⟨_, List.getElem?_eq_getElem (by omega)⟩
  obtain ⟨q, at8⟩ : ∃ q, aBlob[8]? = some q := ⟨_, List.getElem?_eq_getElem (by omega)⟩
  have kept : (aBlob.set 6 ((p &&& 15) + 64))[8]? = some q :=
    (List.getElem?_set_ne (by decide)).trans at8
  have length : ((aBlob.set 6 ((p &&& 15) + 64)).set 8 ((q &&& 63) + 128)).length = 16 := by
    rw [List.length_set, List.length_set, sixteen]
  obtain ⟨blob, str⟩ := uuidFuncs_standsFor (written_standsFor length)
  refine ⟨_, _, (p &&& 15) + 64, (q &&& 63) + 128, p, q, ?_, str, blob, length, at6, ?_,
    version_bits p, version_rest p, at8, ?_, variant_bits q, variant_rest q,
    fun i not6 not8 => ?_⟩
  · rw [sqlite3UuidFunc, charAt, at6]
    change (charAt (aBlob.set 6 ((p &&& 15) + 64)) 8 >>= _) = _
    rw [charAt, kept]
    change (sqlite3UuidBlobToStr _ >>= _) = _
    rw [blobToStr_written length]
    exact congrArg (fun z => Except.ok (SqlValue.text z)) (List.take_left' (written_length length))
  · rw [List.getElem?_set_ne (by decide), List.getElem?_set_self (by omega)]
  · rw [List.getElem?_set_self (by rw [List.length_set]; omega)]
  · rw [List.getElem?_set_ne (Ne.symm not8), List.getElem?_set_ne (Ne.symm not6)]

/-- The bytes of `00112233-4455-6677-8899-aabbccddeeff`. -/
theorem uuidFunc_version_bytes :
    let aBlob : Bytes := [0, 17, 34, 51, 68, 85, 102, 119, 136, 153, 170, 187, 204, 221, 238, 255]
    ∃ v b x y p q, sqlite3UuidFunc aBlob = .ok v ∧ sqlite3UuidStrFunc v = .ok v ∧
      sqlite3UuidBlobFunc v = .ok (.blob b) ∧ b.length = 16 ∧
      aBlob[6]? = some p ∧ b[6]? = some x ∧ x.toNat / 16 = 4 ∧ x.toNat % 16 = p.toNat % 16 ∧
      aBlob[8]? = some q ∧ b[8]? = some y ∧ y.toNat / 64 = 2 ∧ y.toNat % 64 = q.toNat % 64 ∧
      ∀ i, i ≠ 6 → i ≠ 8 → b[i]? = aBlob[i]? :=
  uuidFunc_version rfl

end RSQLite.Uuid
