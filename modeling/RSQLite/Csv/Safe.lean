import RSQLite.Csv.Fields

/-!
Every run of a cursor is safe, whatever the text is and whenever the memory runs out: the blocks of
the columns are as long as the cursor takes them to be, and hold the zero that ends a value.
-/
namespace RSQLite.Csv

open Returning

section Blocks

variable {t : CsvTable} {p q : CsvCursor} {memory : Memory}

/-- The block of a column, for the length that is noted. -/
def Block (block : Option Bytes) (len : Nat) : Prop :=
  match block with
  | none => len = 0
  | some b => len ≤ b.length ∧ 0 ∈ b

structure Valid (t : CsvTable) (p : CsvCursor) : Prop where
  reader : Sound t.source p.rdr
  values : p.azVal.length = t.nCol
  lengths : p.aLen.length = t.nCol
  blocks : List.Forall₂ Block p.azVal p.aLen

theorem forall₂_set {α β : Type} {R : α → β → Prop} {as : List α} {bs : List β}
    (all : List.Forall₂ R as bs) {a : α} {b : β} (new : R a b) (i : Nat) :
    List.Forall₂ R (as.set i a) (bs.set i b) := by
  induction all generalizing i with
  | nil => exact .nil
  | cons first rest ih =>
    cases i with
    | zero => exact .cons new rest
    | succ i => exact .cons first (ih i)

theorem resized_length (block : Option Bytes) (n : Nat) : (resized block n).length = n := by
  rw [resized, List.length_take, List.length_append, List.length_replicate]
  omega

theorem copyField_spec {b : Bytes} {len : Nat} (inside : p.rdr.z.length < p.rdr.nAlloc)
    (fits : p.rdr.z.length + 1 ≤ b.length) (i : Nat) :
    copyField p i (some b) len = .ok (true, { p with
      azVal := p.azVal.set i (some (p.rdr.z ++ 0 :: b.drop (p.rdr.z.length + 1)))
      aLen := p.aLen.set i len }) := by
  rw [copyField, if_pos ⟨fits, inside⟩]

/-- A value that fits, or gets a block that it fits into, unless there is no memory for it. -/
theorem storeField_spec (valid : Valid t p) (inside : p.rdr.z.length < p.rdr.nAlloc) {i : Nat}
    (column : i < t.nCol) :
    ((∃ k n, memory k n = false) ∧ ∃ k message, storeField memory p i = .ok (false, { p with
      rdr := { p.rdr with zErr := "out of memory", attempts := k }
      zErrMsg := message })) ∨
    ∃ tail len k, len ≤ (p.rdr.z ++ 0 :: tail).length ∧ storeField memory p i = .ok (true, { p with
      rdr := { p.rdr with attempts := k }
      azVal := p.azVal.set i (some (p.rdr.z ++ 0 :: tail)), aLen := p.aLen.set i len }) := by
  have lt := valid.values.symm ▸ column
  have lt' := valid.lengths.symm ▸ column
  have block := List.forall₂_iff_get.mp valid.blocks |>.2 i lt lt'
  have size (b : Bytes) : (p.rdr.z ++ 0 :: b.drop (p.rdr.z.length + 1)).length =
      p.rdr.z.length + (b.length - (p.rdr.z.length + 1) + 1) := by
    rw [List.length_append, List.length_cons, List.length_drop]
  rw [storeField]
  dsimp only
  rw [List.getElem?_eq_getElem lt, List.getElem?_eq_getElem lt']
  dsimp only
  split
  · rw [CsvReader.allocates]
    cases yields : memory p.rdr.attempts (p.rdr.z.length + 1) with
    | false => exact .inl ⟨⟨_, _, yields⟩, _, _, rfl⟩
    | true =>
      have long := resized_length p.azVal[i] (p.rdr.z.length + 1)
      refine .inr ⟨_, _, p.rdr.attempts + 1, ?_, copyField_spec
        (p := { p with rdr := { p.rdr with attempts := p.rdr.attempts + 1 } }) inside long.ge i⟩
      have := size (resized p.azVal[i] (p.rdr.z.length + 1))
      dsimp only
      omega
  · next large =>
    simp only [List.get_eq_getElem] at block
    cases held : p.azVal[i] with
    | none =>
      rw [held] at block
      change p.aLen[i] = 0 at block
      omega
    | some b =>
      rw [held] at block
      have long := block.1
      refine .inr ⟨_, _, p.rdr.attempts, ?_, copyField_spec inside (by omega) i⟩
      have := size b
      omega

theorem Valid.reading (valid : Valid t p) {rdr : CsvReader} (sound : Sound t.source rdr)
    (n : Int) (zErrMsg : Option String) :
    Valid t { p with rdr := rdr, iRowid := n, zErrMsg := zErrMsg } :=
  ⟨sound, valid.values, valid.lengths, valid.blocks⟩

theorem noted_sound {s : CsvSource} {rdr : CsvReader} (sound : Sound s rdr) (zErr : String)
    (k : Nat) : Sound s { rdr with zErr := zErr, attempts := k } :=
  ⟨sound.room, by cases s <;> exact sound.source⟩

theorem stored_valid (valid : Valid t p) (i k : Nat) {tail : Bytes} {len : Nat}
    (small : len ≤ (p.rdr.z ++ 0 :: tail).length) : Valid t { p with
      rdr := { p.rdr with attempts := k }
      azVal := p.azVal.set i (some (p.rdr.z ++ 0 :: tail)), aLen := p.aLen.set i len } := by
  have new : Block (some (p.rdr.z ++ 0 :: tail)) len := ⟨small, by simp⟩
  refine ⟨noted_sound valid.reader p.rdr.zErr k, ?_, ?_, forall₂_set valid.blocks new i⟩
  · rw [List.length_set, valid.values]
  · rw [List.length_set, valid.lengths]

theorem storeField_safe (valid : Valid t p) (inside : p.rdr.z.length < p.rdr.nAlloc) {i : Nat}
    (column : i < t.nCol) :
    Returns (storeField memory p i) (fun r => Valid t r.2 ∧ r.2.rdr.ahead = p.rdr.ahead)
      (fun _ => False) := by
  rcases @storeField_spec _ _ memory valid inside _ column with
    ⟨_, k, _, full⟩ | ⟨tail, len, k, small, stored⟩
  · rw [full]
    exact ⟨valid.reading (noted_sound valid.reader _ k) _ _, rfl⟩
  · rw [stored]
    exact ⟨stored_valid valid i k small, rfl⟩

theorem rowFields_safe (fuel i : Nat) (valid : Valid t p) (enough : p.rdr.ahead.length < fuel)
    (columns : i ≤ t.nCol) :
    Returns (rowFields memory t fuel p i) (fun r => Valid t r.2.1 ∧ r.2.2 ≤ t.nCol ∧
      r.2.1.rdr.ahead.length ≤ p.rdr.ahead.length) (fun _ => False) := by
  induction fuel generalizing p i with
  | zero => exact absurd enough (Nat.not_lt_zero _)
  | succ fuel ih =>
    rw [rowFields]
    refine (csvReadOneField_safe memory valid.reader).bind ?_
    rintro ⟨z, rdr⟩ ⟨field, shorter⟩
    have read : Valid t { p with rdr := rdr } :=
      ⟨field.reached.sound, valid.values, valid.lengths, valid.blocks⟩
    dsimp only at field shorter ⊢
    cases z with
    | false => exact ⟨read, columns, field.reached.ahead⟩
    | true =>
      have shorter := shorter rfl
      rw [if_pos rfl]
      split
      · next column =>
        refine (storeField_safe read (field.inside rfl) column).bind ?_
        rintro ⟨fits, q⟩ ⟨stored, ahead⟩
        dsimp only at stored ahead ⊢
        have nearer : q.rdr.ahead.length < p.rdr.ahead.length := ahead ▸ shorter
        split
        · split
          · refine (ih (i + 1) stored (by omega) column).imp ?_
            rintro r ⟨valid, columns, later⟩
            exact ⟨valid, columns, later.trans nearer.le⟩
          · exact ⟨stored, column, nearer.le⟩
        · exact ⟨stored, columns, nearer.le⟩
      · split
        · refine (ih i read (by dsimp only; omega) columns).imp ?_
          rintro r ⟨valid, columns, later⟩
          exact ⟨valid, columns, later.trans shorter.le⟩
        · exact ⟨read, columns, shorter.le⟩

/-- The columns that a row has no fields for are empty, or none if there is no memory. -/
theorem emptyFrom_spec (n : Nat) : ∀ {p : CsvCursor} {i : Nat}, Valid t p → i + n = t.nCol →
    ∃ q m, emptyFrom memory n p i = .ok q ∧ Valid t q ∧ q.rdr = { p.rdr with attempts := m } ∧
      q.iRowid = p.iRowid ∧ (∀ k, k < i → q.azVal[k]? = p.azVal[k]?) ∧
      ∀ k, i ≤ k → k < t.nCol →
        q.azVal[k]? = some (some [0]) ∨ ∃ attempt size, memory attempt size = false := by
  induction n with
  | zero =>
    intro p i valid columns
    exact ⟨p, p.rdr.attempts, rfl, valid, rfl, rfl, fun _ _ => rfl,
      fun k from_ to_ => absurd to_ (by omega)⟩
  | succ n ih =>
    intro p i valid columns
    have lt : i < p.azVal.length := by rw [valid.values]; omega
    have lt' : i < p.aLen.length := by rw [valid.lengths]; omega
    obtain ⟨z, mallocs⟩ : ∃ z, z = memory p.rdr.attempts 1 := ⟨_, rfl⟩
    have new : Block (if z then some [0] else none) 0 := by
      cases z with
      | true => exact ⟨Nat.zero_le _, .head _⟩
      | false => rfl
    have set : Valid t { p with
        rdr := { p.rdr with attempts := p.rdr.attempts + 1 }
        azVal := p.azVal.set i (if z then some [0] else none), aLen := p.aLen.set i 0 } := by
      refine ⟨noted_sound valid.reader p.rdr.zErr _, ?_, ?_, forall₂_set valid.blocks new i⟩
      · rw [List.length_set, valid.values]
      · rw [List.length_set, valid.lengths]
    obtain ⟨q, m, run, valid', rdr, rowid, before, later⟩ := ih set (i := i + 1) (by omega)
    refine ⟨q, m, ?_, valid', rdr, rowid, fun k less => ?_, fun k from_ to_ => ?_⟩
    · rw [emptyFrom, if_pos ⟨lt, lt'⟩, CsvReader.allocates, ← mallocs]
      exact run
    · rw [before k (by omega)]
      exact List.getElem?_set_ne (by omega)
    · by_cases here : k = i
      · subst here
        cases z with
        | false => exact .inr ⟨_, _, mallocs.symm⟩
        | true =>
          rw [before k (Nat.lt_succ_self k)]
          exact .inl (List.getElem?_set_self lt)
      · exact later k (by omega) to_

theorem csvtabNext_safe (valid : Valid t p) :
    Returns (csvtabNext memory t p) (Valid t) (fun _ => False) := by
  rw [csvtabNext]
  refine (rowFields_safe _ 0 valid (by omega) (Nat.zero_le _)).bind ?_
  rintro ⟨z, q, i⟩ ⟨valid, columns, _⟩
  dsimp only at valid columns ⊢
  split
  · exact valid.reading valid.reader _ _
  · obtain ⟨r, _, run, valid', _⟩ := @emptyFrom_spec t memory (t.nCol - i) _ i
      (valid.reading valid.reader (q.iRowid + 1) q.zErrMsg) (by omega)
    rw [run]
    exact valid'

/-- The data starts in the text. -/
def CsvTable.Starts (t : CsvTable) : Prop :=
  match t.source with
  | .file _ => True
  | .data zData => t.iStart ≤ (zData.takeWhile (· ≠ 0)).length

theorem rewound_safe {p : CsvReader} (starts : t.Starts) (sound : Sound t.source p) :
    Returns (rewound t p) (fun q => Sound t.source q ∧ q.z = p.z ∧ q.nAlloc = p.nAlloc)
      (fun _ => False) := by
  obtain ⟨room, source⟩ := sound
  rw [CsvTable.Starts] at starts
  rw [rewound]
  cases same : t.source with
  | file contents =>
    rw [same] at source
    obtain ⟨position, input⟩ := source
    rw [input]
    exact ⟨⟨room, _, rfl⟩, rfl, rfl⟩
  | data zData =>
    rw [same] at source starts
    obtain ⟨input, zIn⟩ := source
    rw [input]
    dsimp only
    rw [if_pos (by rw [zIn]; exact starts)]
    exact ⟨⟨room, rfl, zIn⟩, rfl, rfl⟩

theorem csvtabFilter_safe (starts : t.Starts) (valid : Valid t p) :
    Returns (csvtabFilter memory t p) (fun r => Valid t r.2) (fun _ => False) := by
  obtain ⟨fits, rdr, append, sound, _⟩ := csvAppend_safe memory valid.reader 0
  rw [csvtabFilter, append]
  cases fits with
  | false => exact valid.reading sound _ _
  | true =>
    change Returns (rewound t rdr >>= _) _ _
    refine (rewound_safe starts sound).bind ?_
    rintro q ⟨sound', _⟩
    exact (csvtabNext_safe (valid.reading sound' 0 _)).bind fun _ next => next

theorem csvtabColumn_safe (valid : Valid t p) (i : Int) :
    Returns (csvtabColumn t p i) (fun _ => True) (fun _ => False) := by
  rw [csvtabColumn]
  split
  · next inside =>
    have lt : i.toNat < p.azVal.length := by
      rw [valid.values]
      omega
    have lt' : i.toNat < p.aLen.length := by
      rw [valid.lengths]
      omega
    have block := (List.forall₂_iff_get.mp valid.blocks).2 i.toNat lt lt'
    simp only [List.get_eq_getElem] at block
    rw [List.getElem?_eq_getElem lt]
    cases held : p.azVal[i.toNat] with
    | none => trivial
    | some b =>
      rw [held] at block
      dsimp only
      rw [if_pos block.2]
      trivial
  · trivial

theorem csvtabOpen_safe (small : t.nCol < 32768) :
    Returns (csvtabOpen memory t) (fun opened => ∀ p ∈ opened, Valid t p) (fun _ => False) := by
  have blocks : List.Forall₂ Block (List.replicate t.nCol none) (List.replicate t.nCol 0) := by
    induction t.nCol with
    | zero => exact .nil
    | succ n ih => exact .cons rfl ih
  have none_ : ∀ p ∈ (none : Option CsvCursor), Valid t p := fun p no => by cases no
  have opened {rdr : CsvReader} (sound : Sound t.source rdr) :
      ∀ p ∈ some (CsvCursor.mk rdr (List.replicate t.nCol none) (List.replicate t.nCol 0) 0 none),
        Valid t p := by
    intro p is_
    obtain rfl := Option.some.inj is_
    exact ⟨sound, List.length_replicate, List.length_replicate, blocks⟩
  rw [csvtabOpen, if_pos small, CsvReader.allocates]
  cases memory csvReaderInit.attempts (sizeofCursor + 16 * t.nCol) with
  | false => exact none_
  | true =>
    cases same : t.source with
    | data zData => exact opened (same ▸ ⟨.inl ⟨rfl, rfl⟩, rfl, rfl⟩)
    | file contents =>
      dsimp only
      rw [if_pos rfl, csvReaderOpen, CsvReader.allocates]
      cases memory (csvReaderInit.attempts + 1) csvInBufSz with
      | false => exact none_
      | true => exact opened (same ▸ ⟨.inl ⟨rfl, rfl⟩, 0, rfl⟩)

theorem csvtabOpen_none (run : csvtabOpen memory t = .ok none) :
    ∃ attempt size, memory attempt size = false := by
  rw [csvtabOpen] at run
  split at run
  · rw [CsvReader.allocates] at run
    cases first : memory csvReaderInit.attempts (sizeofCursor + 16 * t.nCol) with
    | false => exact ⟨_, _, first⟩
    | true =>
      cases source : t.source with
      | data zData =>
        rw [first, source] at run
        cases run
      | file contents =>
        cases second : memory (csvReaderInit.attempts + 1) csvInBufSz with
        | false => exact ⟨_, _, second⟩
        | true =>
          rw [first, source] at run
          dsimp only at run
          rw [if_pos rfl, csvReaderOpen, CsvReader.allocates, second] at run
          cases run
  · cases run

theorem rowReset_safe (n : Nat) : ∀ {p : CsvCursor} {i : Nat}, Valid t p → i + n ≤ t.nCol →
    Returns (rowReset n p i) (fun _ => True) (fun _ => False) := by
  induction n with
  | zero => exact fun _ _ => trivial
  | succ n ih =>
    intro p i valid columns
    have lt : i < p.azVal.length := by rw [valid.values]; omega
    have lt' : i < p.aLen.length := by rw [valid.lengths]; omega
    rw [rowReset, if_pos ⟨lt, lt'⟩]
    refine ih ⟨valid.reader, ?_, ?_, forall₂_set valid.blocks (show Block none 0 from rfl) i⟩
      (by omega)
    · rw [List.length_set, valid.values]
    · rw [List.length_set, valid.lengths]

theorem csvtabClose_safe (valid : Valid t p) :
    Returns (csvtabClose t p) (fun _ => True) (fun _ => False) :=
  (rowReset_safe t.nCol valid (Nat.zero_add _).le).bind fun _ _ => trivial

end Blocks

/-- A call of a method of an open cursor. -/
inductive CsvCall
  | filter
  | next
  | eof
  | column (i : Int)
  | rowid

/-- `csvtabEof()` and `csvtabRowid()` read a field. -/
def csvCall (memory : Memory) (t : CsvTable) (p : CsvCursor) : CsvCall → Reading CsvCursor
  | .filter => do
      let (_, p) ← csvtabFilter memory t p
      .ok p
  | .next => csvtabNext memory t p
  | .column i => do
      let _ ← csvtabColumn t p i
      .ok p
  | .eof | .rowid => .ok p

def csvCalls (memory : Memory) (t : CsvTable) (p : CsvCursor) : List CsvCall → Reading CsvCursor
  | [] => .ok p
  | call :: calls => do
      let p ← csvCall memory t p call
      csvCalls memory t p calls

variable {t : CsvTable} {p : CsvCursor} {memory : Memory}

theorem csvCall_safe (starts : t.Starts) (valid : Valid t p) (call : CsvCall) :
    Returns (csvCall memory t p call) (Valid t) (fun _ => False) := by
  cases call with
  | filter => exact (csvtabFilter_safe starts valid).bind fun _ valid => valid
  | next => exact csvtabNext_safe valid
  | column i => exact (csvtabColumn_safe valid i).bind fun _ _ => valid
  | eof | rowid => exact valid

theorem csvCalls_safe (starts : t.Starts) (valid : Valid t p) (calls : List CsvCall) :
    Returns (csvCalls memory t p calls) (Valid t) (fun _ => False) := by
  induction calls generalizing p with
  | nil => exact valid
  | cons call calls ih => exact (csvCall_safe starts valid call).bind fun _ valid => ih valid

/-- In no run of a cursor, from when it is opened until it is closed, anything outside of a buffer
is read or written, whichever allocations fail. Without memory it is not opened. -/
theorem csvtabOpen_calls (memory : Memory) (small : t.nCol < 32768) (starts : t.Starts)
    (calls : List CsvCall) :
    csvtabOpen memory t = .ok none ∧ (∃ attempt size, memory attempt size = false) ∨
      ∃ p q r, csvtabOpen memory t = .ok (some p) ∧ csvCalls memory t p calls = .ok q ∧
        Valid t q ∧ csvtabClose t q = .ok r := by
  rcases (@csvtabOpen_safe t memory small).cases with ⟨opened, run, valid⟩ | ⟨_, _, no⟩
  · cases opened with
    | none => exact .inl ⟨run, csvtabOpen_none run⟩
    | some p =>
      rcases (@csvCalls_safe t p memory starts (valid p rfl) calls).cases with
        ⟨q, calls, valid'⟩ | ⟨_, _, no⟩
      · rcases (csvtabClose_safe valid').cases with ⟨r, closed, _⟩ | ⟨_, _, no⟩
        · exact .inr ⟨p, q, r, run, calls, valid', closed⟩
        · exact no.elim
      · exact no.elim
  · exact no.elim

/-- An unescaped quote in a file, and no memory from the fifth allocation on. -/
theorem csvtabOpen_calls_unescaped :
    let t : CsvTable := ⟨.file [34, 97, 34, 120, 44, 34, 10], 0, 2⟩
    let memory : Memory := fun attempt _ => decide (attempt < 4)
    ∃ p q r, csvtabOpen memory t = .ok (some p) ∧
      csvCalls memory t p [.filter, .eof, .column 0, .rowid, .next, .column 1] = .ok q ∧
      Valid t q ∧ csvtabClose t q = .ok r := by
  intro t memory
  rcases @csvtabOpen_calls t memory (by decide) trivial
    [.filter, .eof, .column 0, .rowid, .next, .column 1] with ⟨none_, _⟩ | run
  · cases none_
  · exact run

end RSQLite.Csv
