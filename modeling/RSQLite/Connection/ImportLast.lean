import RSQLite.Connection.ImportLines

/-!
When `RS_sqlite_getline()` returns the next line as it is. The string is terminated where
`eol` was found, but not where the file ends, and the comparison with `eol` can reach in front
of the buffer.
-/
namespace RSQLite

open Delimited

section Narrow

variable {memory : Nat → UInt8} {eol : Bytes} {ceol : UInt8}

/-- At the end of the file, the string in the buffer is what is returned. -/
def endOfFile (memory : Nat → UInt8) (file : Bytes) (nc : Nat) : Outcome (Option Bytes × Bytes) :=
  if file = [] then .ok (none, [])
  else (bufferString memory file nc).map (fun line => (nonempty line, []))

theorem getlineLoop_none (last : eol.getLast? = some ceol) (narrow : ceol < 128) (todo buf : Bytes)
    (nc : Nat) (none_ : ¬ eol <:+: buf ++ todo) (notEarly : NotEarly eol ceol buf.length todo) :
    getlineLoop memory eol ceol todo buf nc =
      endOfFile memory (buf ++ todo) (grownTo todo.length buf.length nc) := by
  induction todo generalizing buf nc with
  | nil =>
      rw [getlineLoop, endOfFile, List.append_nil, List.length_nil, grownTo]
      split
      · rfl
      · cases bufferString memory buf (if buf.length = nc then 2 * nc else nc) <;> rfl
  | cons c todo ih =>
      obtain ⟨inside, later⟩ := notEarly.cons
      have split : buf ++ c :: todo = buf ++ [c] ++ todo := by rw [List.append_assoc]; rfl
      have unended : ¬ eol <:+ buf ++ [c] := fun ended =>
        none_ (split ▸ ended.isInfix.trans (List.prefix_append _ todo).isInfix)
      rw [getlineLoop_next last narrow c todo buf nc inside, if_neg unended,
        ih (buf ++ [c]) _ (split ▸ none_) (by rwa [List.length_append]), ← split,
        List.length_append, List.length_singleton]
      rfl

end Narrow

section Exact

variable {memory : Nat → UInt8} {eol file : Bytes} {ceol : UInt8}

theorem grownTo_room (more i nc : Nat) (holds : i ≤ nc) (room : 0 < nc) :
    i + more < grownTo more i nc := by
  induction more generalizing i nc with
  | zero =>
      rw [grownTo]
      split <;> omega
  | succ more ih =>
      rw [grownTo]
      have later := ih (i + 1) (if i = nc then 2 * nc else nc) (by split <;> omega)
        (by split <;> omega)
      omega

/-- The next cell of the memory ends the string, or there is nothing to end. -/
def EndsFile (memory : Nat → UInt8) (file : Bytes) : Prop := file = [] ∨ memory file.length = 0

instance (memory : Nat → UInt8) (file : Bytes) : Decidable (EndsFile memory file) :=
  inferInstanceAs (Decidable (_ ∨ _))

/-- The string at the end of the file begins with what has been read, and goes on until a
zero in the memory behind it. -/
theorem bufferString_behind (memory : Nat → UInt8) (noNul : 0 ∉ file) {nc : Nat}
    (room : file.length < nc) :
    ∃ more, bufferString memory file nc =
      if 0 ∈ memory file.length :: more then .ok (file ++ cString (memory file.length :: more))
      else .error .outOfBounds := by
  obtain ⟨k, size⟩ : ∃ k, nc - file.length = k + 1 := ⟨nc - file.length - 1, by omega⟩
  refine ⟨(List.range' (file.length + 1) k).map memory, ?_⟩
  have filled : ∀ c ∈ file, decide (c ≠ 0) = true := fun c member =>
    decide_eq_true (fun zero => noNul (zero ▸ member))
  rw [bufferString, size, List.range'_succ, List.map_cons]
  simp only [List.mem_append, noNul, false_or, cString, List.takeWhile_append_of_pos filled]

theorem cString_eq_nil (c : UInt8) (more : Bytes) : cString (c :: more) = [] ↔ c = 0 := by
  by_cases zero : c = 0 <;> simp [cString, zero]

theorem nonempty_inj {line line' : Bytes} : nonempty line = nonempty line' ↔ line = line' := by
  by_cases empty : line = [] <;> by_cases empty' : line' = [] <;>
    simp [nonempty, empty, empty', eq_comm]

/-- What is returned at the end of the file is the rest of the file exactly if the memory
behind it ends the string. -/
theorem endOfFile_exact (memory : Nat → UInt8) (noNul : 0 ∉ file) {nc : Nat}
    (room : file.length < nc) :
    (∃ rest, endOfFile memory file nc = .ok (nonempty file, rest)) ↔ EndsFile memory file := by
  by_cases empty : file = []
  · exact iff_of_true ⟨[], by rw [endOfFile, if_pos empty, empty]; rfl⟩ (.inl empty)
  · obtain ⟨more, string⟩ := bufferString_behind memory noNul room
    rw [endOfFile, if_neg empty, string, EndsFile, or_iff_right empty]
    split
    · rw [← cString_eq_nil _ more]
      constructor
      · rintro ⟨rest, same⟩
        simp only [Except.map, Except.ok.injEq, Prod.mk.injEq, nonempty_inj] at same
        exact List.append_right_eq_self.mp same.1
      · intro ended
        exact ⟨[], by rw [ended, List.append_nil]; rfl⟩
    · next unended =>
        refine iff_of_false (fun found => by obtain ⟨rest, same⟩ := found; cases same) ?_
        intro zero
        exact unended (zero ▸ List.mem_cons_self)

theorem endOfFile_long (noNul : 0 ∉ file) {nc : Nat} (room : file.length < nc) {line rest : Bytes}
    (short : line.length < file.length) : endOfFile memory file nc ≠ .ok (nonempty line, rest) := by
  have filled : file ≠ [] := List.ne_nil_of_length_pos (Nat.zero_lt_of_lt short)
  obtain ⟨more, string⟩ := bufferString_behind memory noNul room
  rw [endOfFile, if_neg filled, string]
  split
  · intro same
    simp only [Except.map, Except.ok.injEq, Prod.mk.injEq, nonempty_inj] at same
    rw [← same.1, List.length_append] at short
    omega
  · intro same
    cases same

/-- The rest of the file can be read as it is: nothing is compared too early, a last byte of
`eol` that cannot be recognized is not needed, and where the file ends the memory ends the
string. -/
def Readable (memory : Nat → UInt8) (eol file : Bytes) : Prop :=
  match eol.getLast? with
  | none => False
  | some ceol =>
      if ceol < 128 then NotEarly eol ceol 0 file ∧ (eol <:+: file ∨ EndsFile memory file)
      else ¬ eol <:+: file ∧ EndsFile memory file

/-- `RS_sqlite_getline()` returns the bytes up to the next `eol`, or all that are left. -/
def ReadsLine (memory : Nat → UInt8) (eol file : Bytes) : Prop :=
  ∃ rest, getline memory eol file = .ok (nonempty (firstRecord eol file).1, rest)

theorem getline_early (last : eol.getLast? = some ceol) (narrow : ceol < 128)
    (early : ¬ NotEarly eol ceol 0 file) : getline memory eol file = .error .outOfBounds := by
  rw [getline, last]
  exact getlineLoop_early narrow file [] 1024 last early

theorem getline_inside (last : eol.getLast? = some ceol) (narrow : ceol < 128)
    (notEarly : NotEarly eol ceol 0 file) (inside : eol <:+: file) (noNul : 0 ∉ file) :
    getline memory eol file =
      .ok (nonempty (firstRecord eol file).1, (firstRecord eol file).2) := by
  have eol_ : eol ≠ [] := by
    rintro rfl
    cases last
  have first := firstRecord_first eol file inside eol_
  have noNul' : 0 ∉ (firstRecord eol file).1 := by
    rw [first.split] at noNul
    exact fun zero => noNul (List.mem_append_left _ (List.mem_append_left _ zero))
  rw [getline, last]
  simp only
  rw [getlineLoop_first last narrow _ _ file [] 1024 first _ notEarly,
    cString_of_no_nul _ noNul']
  exact Nat.lt_of_lt_of_le (List.length_pos_of_ne_nil eol_) (by rw [List.length_append]; omega)

theorem getline_none (last : eol.getLast? = some ceol) (narrow : ceol < 128)
    (notEarly : NotEarly eol ceol 0 file) (none_ : ¬ eol <:+: file) :
    getline memory eol file = endOfFile memory file (grownTo file.length 0 1024) := by
  rw [getline, last]
  exact getlineLoop_none last narrow file [] 1024 none_ notEarly

theorem getline_wide (last : eol.getLast? = some ceol) (wide : ¬ ceol < 128) :
    getline memory eol file = endOfFile memory file (grownTo file.length 0 1024) := by
  rw [getline, last]
  exact getlineLoop_wide memory eol ceol wide file [] 1024

theorem file_room (file : Bytes) : file.length < grownTo file.length 0 1024 := by
  have room := grownTo_room file.length 0 1024 (Nat.zero_le _) (by decide)
  rwa [Nat.zero_add] at room

/-- The next line is returned as it is exactly if the rest of the file can be read so. -/
theorem readsLine_readable (eol_ : eol ≠ []) (noNul : 0 ∉ file) :
    ReadsLine memory eol file ↔ Readable memory eol file := by
  have last := List.getLast?_eq_some_getLast eol_
  generalize eol.getLast eol_ = ceol at last
  rw [ReadsLine, Readable, last]
  simp only
  by_cases inside : eol <:+: file
  · by_cases narrow : ceol < 128
    · rw [if_pos narrow]
      by_cases notEarly : NotEarly eol ceol 0 file
      · rw [getline_inside last narrow notEarly inside noNul]
        exact iff_of_true ⟨_, rfl⟩ ⟨notEarly, .inl inside⟩
      · rw [getline_early last narrow notEarly]
        exact iff_of_false (fun found => by obtain ⟨rest, same⟩ := found; cases same)
          (fun both => notEarly both.1)
    · rw [if_neg narrow, getline_wide last narrow]
      have first := firstRecord_first eol file inside eol_
      have short : (firstRecord eol file).1.length < file.length := by
        have whole := congrArg List.length first.split
        have positive := List.length_pos_of_ne_nil eol_
        simp only [List.length_append] at whole
        omega
      refine iff_of_false (fun found => ?_) (fun both => both.1 inside)
      obtain ⟨rest, same⟩ := found
      exact endOfFile_long noNul (file_room file) short same
  · have ended := endOfFile_exact memory noNul (file_room file)
    rw [firstRecord_none eol file inside]
    by_cases narrow : ceol < 128
    · rw [if_pos narrow, or_iff_right inside]
      by_cases notEarly : NotEarly eol ceol 0 file
      · rw [getline_none last narrow notEarly inside, ended, and_iff_right notEarly]
      · rw [getline_early last narrow notEarly]
        exact iff_of_false (fun found => by obtain ⟨rest, same⟩ := found; cases same)
          (fun both => notEarly both.1)
    · rw [if_neg narrow, getline_wide last narrow, ended, and_iff_right inside]

theorem endOfFile_rest {nc : Nat} {line : Option Bytes} {rest : Bytes}
    (found : endOfFile memory file nc = .ok (line, rest)) : rest = [] := by
  rw [endOfFile] at found
  split at found
  · cases found
    rfl
  · cases string : bufferString memory file nc with
    | error f =>
        rw [string] at found
        cases found
    | ok line' =>
        rw [string] at found
        cases found
        rfl

theorem getline_readable (eol_ : eol ≠ []) (noNul : 0 ∉ file)
    (readable : Readable memory eol file) : getline memory eol file =
      .ok (nonempty (firstRecord eol file).1, (firstRecord eol file).2) := by
  obtain ⟨rest, found⟩ := (readsLine_readable eol_ noNul).mpr readable
  have last := List.getLast?_eq_some_getLast eol_
  generalize eol.getLast eol_ = ceol at last
  rw [Readable, last] at readable
  simp only at readable
  split at readable
  · next narrow =>
      by_cases inside : eol <:+: file
      · exact getline_inside last narrow readable.1 inside noNul
      · rw [getline_none last narrow readable.1 inside] at found
        rw [getline_none last narrow readable.1 inside, found, endOfFile_rest found,
          firstRecord_none eol file inside]
  · next wide =>
      rw [getline_wide last wide] at found
      rw [getline_wide last wide, found, endOfFile_rest found,
        firstRecord_none eol file readable.1]

end Exact

/-- The calls of `RS_sqlite_getline()` that follow a first one, by the number of lines before
each of them and the rest of the file. An empty line is the last one. -/
inductive Calls (eol : Bytes) : Nat → Bytes → Nat → Bytes → Prop
  | here (lineno : Nat) (file : Bytes) : Calls eol lineno file lineno file
  | next (lineno : Nat) (file : Bytes) (lineno' : Nat) (rest : Bytes)
      (filled : (firstRecord eol file).1 ≠ [])
      (later : Calls eol (lineno + 1) (firstRecord eol file).2 lineno' rest) :
      Calls eol lineno file lineno' rest

/-- In every call the rest of the file can be read as it is. -/
def EveryCall (memory : Nat → Nat → UInt8) (eol : Bytes) (lineno : Nat) (file : Bytes) : Prop :=
  ∀ lineno' rest, Calls eol lineno file lineno' rest → Readable (memory lineno') eol rest

/-- A terminator that is appended to the last line is found at its end, and not before. -/
def Terminates (eol : Bytes) (lineno : Nat) (file : Bytes) : Prop :=
  ∀ lineno' rest, Calls eol lineno file lineno' rest → ¬ eol <:+: rest →
    firstRecord eol (rest ++ eol) = (rest, [])

variable {DB : Type} {memory : Nat → Nat → UInt8} {eol : Bytes}

section Loop

variable (zFile : String) (separator : Bytes) (skip : Int) (nCol : Nat)

theorem importLoop_readable (eol_ : eol ≠ []) {file : Bytes} (noNul : 0 ∉ file)
    (rounds lineno : Nat) (readable : Readable (memory lineno) eol file) :
    (importLoop memory zFile separator eol skip nCol (rounds + 1) lineno file : Import DB Unit) =
      if (firstRecord eol file).1 = [] then pure ()
      else (do
        importUnskipped zFile separator skip nCol (lineno + 1) (firstRecord eol file).1
        importLoop memory zFile separator eol skip nCol rounds (lineno + 1)
          (firstRecord eol file).2) := by
  rw [importLoop, getline_readable eol_ noNul readable, nonempty]
  by_cases empty : (firstRecord eol file).1 = []
  · simp only [if_pos empty]
  · simp only [if_neg empty]

theorem importLoop_end (eol_ : eol ≠ []) (rounds lineno : Nat) :
    (importLoop memory zFile separator eol skip nCol (rounds + 1) lineno [] : Import DB Unit) =
      pure () := by
  rw [importLoop, getline_nil _ _ (List.getLast?_eq_some_getLast eol_)]

/-- With or without the last terminator, the loop does the same. -/
theorem importLoop_terminated (eol_ : eol ≠ []) (noNul : 0 ∉ eol) (rounds rounds' lineno : Nat)
    (file : Bytes) (enough : file.length < rounds) (enough' : (file ++ eol).length < rounds')
    (noNul' : 0 ∉ file) (every : EveryCall memory eol lineno file)
    (every' : EveryCall memory eol lineno (file ++ eol)) (ends : Terminates eol lineno file) :
    (importLoop memory zFile separator eol skip nCol rounds lineno file : Import DB Unit) =
      importLoop memory zFile separator eol skip nCol rounds' lineno (file ++ eol) := by
  induction rounds generalizing rounds' lineno file with
  | zero => exact absurd enough (Nat.not_lt_zero _)
  | succ rounds ih =>
      obtain ⟨rounds', rfl⟩ : ∃ n, rounds' = n + 1 := ⟨rounds' - 1, by omega⟩
      have noNul'' : 0 ∉ file ++ eol := by
        rw [List.mem_append]
        exact not_or.mpr ⟨noNul', noNul⟩
      rw [importLoop_readable zFile separator skip nCol eol_ noNul' _ _ (every _ _ (.here _ _)),
        importLoop_readable zFile separator skip nCol eol_ noNul'' _ _ (every' _ _ (.here _ _))]
      by_cases inside : eol <:+: file
      · have first := firstRecord_first eol file inside eol_
        have append := firstRecord_append eol file eol inside eol_
        rw [append]
        simp only
        split
        · rfl
        · next filled =>
            have whole := congrArg List.length first.split
            have positive := List.length_pos_of_ne_nil eol_
            simp only [List.length_append] at whole enough'
            have rest : 0 ∉ (firstRecord eol file).2 := by
              rw [first.split] at noNul'
              exact fun zero => noNul' (List.mem_append_right _ zero)
            rw [ih rounds' (lineno + 1) (firstRecord eol file).2 (by omega)
              (by rw [List.length_append]; omega) rest
              (fun l r call => every l r (.next _ _ _ _ filled call))
              (fun l r call => every' l r (.next _ _ _ _ (by rwa [append]) (by rwa [append])))
              (fun l r call => ends l r (.next _ _ _ _ filled call))]
      · have alone := ends lineno file (.here lineno file) inside
        rw [firstRecord_none eol file inside, alone]
        simp only
        split
        · rfl
        · next filled =>
            have positive := List.length_pos_of_ne_nil filled
            obtain ⟨rounds, rfl⟩ : ∃ n, rounds = n + 1 := ⟨rounds - 1, by omega⟩
            rw [List.length_append] at enough'
            obtain ⟨rounds', rfl⟩ : ∃ n, rounds' = n + 1 := ⟨rounds' - 1, by omega⟩
            rw [importLoop_end zFile separator skip nCol eol_,
              importLoop_end zFile separator skip nCol eol_]

end Loop

/-- A line is returned as it is exactly if the rest of the file can be read so; and where
this is the case in every call, the last terminator makes no difference to an import. -/
theorem readsLine_iff (eol : Bytes) (eol_ : eol ≠ []) (noNul : 0 ∉ eol) :
    (∀ memory file, 0 ∉ file → (ReadsLine memory eol file ↔ Readable memory eol file)) ∧
    ∀ (DB : Type) (engine : Engine DB) (memory : Nat → Nat → UInt8) (zTable zFile : String)
      (separator : Bytes) (skip : Int) (s : Connection DB) (file : Bytes), 0 ∉ file →
      EveryCall memory eol 0 file → EveryCall memory eol 0 (file ++ eol) →
      Terminates eol 0 file →
      (rsSqliteImport engine memory zTable zFile (some file) separator eol skip).run s =
        (rsSqliteImport engine memory zTable zFile (some (file ++ eol)) separator eol skip).run s := by
  refine ⟨fun memory file noNul' => readsLine_readable eol_ noNul', ?_⟩
  intro DB engine memory zTable zFile separator skip s file noNul' every every' ends
  have loops : ∀ nCol, (importLoop memory zFile separator eol skip nCol (file.length + 1) 0 file :
      Import DB Unit) = importLoop memory zFile separator eol skip nCol
        ((file ++ eol).length + 1) 0 (file ++ eol) := fun nCol =>
    importLoop_terminated zFile separator skip nCol eol_ noNul _ _ 0 file (Nat.lt_succ_self _)
      (Nat.lt_succ_self _) noNul' every every' ends
  simp only [EStateM.run, rsSqliteImport, loops]

/-- One line, in memory that is zero. -/
theorem readsLine_iff_zero :
    (rsSqliteImport pairsEngine (fun _ _ => 0) "t" "f" (some [97, 44, 98]) [44] [10] 0).run
        ⟨[], .closed⟩ =
      (rsSqliteImport pairsEngine (fun _ _ => 0) "t" "f" (some [97, 44, 98, 10]) [44] [10] 0).run
        ⟨[], .closed⟩ := by
  have first : firstRecord [10] ([97, 44, 98] : Bytes) = ([97, 44, 98], []) := by decide
  have first' : firstRecord [10] ([97, 44, 98, 10] : Bytes) = ([97, 44, 98], []) := by decide
  have readable : ∀ file : Bytes, Readable (fun _ => 0) [10] file :=
    fun file => ⟨List.not_mem_nil, .inr (.inr rfl)⟩
  refine (readsLine_iff [10] (by decide) (by decide)).2 _ pairsEngine _ "t" "f" [44] 0 ⟨[], .closed⟩
    [97, 44, 98] (by decide) (fun _ rest _ => readable rest) (fun _ rest _ => readable rest) ?_
  intro lineno rest call none_
  cases call with
  | here => exact first'
  | next _ _ _ _ _ later =>
      rw [first] at later
      cases later with
      | here => rfl
      | next _ _ _ _ filled _ => exact absurd rfl filled

/-- Memory that is not zero becomes part of the last line. -/
theorem readsLine_garbage :
    ¬ ReadsLine (fun k => if k = 1 then 120 else 0) [10] [97] ∧
    (rsSqliteImport pairsEngine (fun _ k => if k = 3 then 120 else 0) "t" "f" (some [97, 44, 98])
        [44] [10] 0).run ⟨[], .closed⟩ =
      .ok true ⟨[[.text [97], .text [98, 120]]], .closed⟩ ∧
    (rsSqliteImport pairsEngine (fun _ k => if k = 3 then 120 else 0) "t" "f"
        (some [97, 44, 98, 10]) [44] [10] 0).run ⟨[], .closed⟩ =
      .ok true ⟨[[.text [97], .text [98]]], .closed⟩ := by
  refine ⟨fun found => ?_, rfl, rfl⟩
  obtain ⟨rest, same⟩ := found
  cases same

end RSQLite
