import RSQLite.Connection.Getline

/-!
What the import of a file inserts. `RS_sqlite_getline()` returns the lines one after the
other, but `NULL` for the first empty one, and the import ends there.
-/
namespace RSQLite

open Delimited

/-- A file with what its buffer holds behind it. -/
def wholeLine (memory : Nat → UInt8) (file : Bytes) : Bytes :=
  cString (file ++
    (List.range' file.length (grownTo file.length 0 1024 - file.length)).map memory)

/-- What is read where no byte counts as the last one of `eol`: the whole file is one line. -/
def wholeFile (memory : Nat → UInt8) (file : Bytes) : List Bytes :=
  if file = [] then [] else [wholeLine memory file]

section Reading

variable (memory : Nat → Nat → UInt8) (eol : Bytes)

/-- The lines that are read one after the other until `NULL`, from the line number on. -/
inductive Reads : Nat → Bytes → List Bytes → Prop
  | ended (lineno : Nat) (file rest : Bytes)
      (read : getline (memory lineno) eol file = .ok (none, rest)) : Reads lineno file []
  | line (lineno : Nat) (file line rest : Bytes) (later : List Bytes)
      (read : getline (memory lineno) eol file = .ok (some line, rest))
      (reads : Reads (lineno + 1) rest later) : Reads lineno file (line :: later)

variable {memory} {eol}

theorem nonempty_some (line : Bytes) (h : line ≠ []) : nonempty line = some line := if_neg h

theorem getline_nil (memory : Nat → UInt8) (ceol : UInt8) (last : eol.getLast? = some ceol) :
    getline memory eol [] = .ok (none, []) := by
  rw [getline, last]
  rfl

/-- The lines are read up to the first empty one. -/
theorem reads_lines (ceol : UInt8) (last : eol.getLast? = some ceol) (narrow : ceol < 128)
    (lineno : Nat) (file : Bytes) (read : List Bytes) (reads : Reads memory eol lineno file read) :
    ∀ lines, 0 ∉ file → records eol file = some lines →
      read = lines.takeWhile (fun line => decide (line ≠ [])) := by
  obtain ⟨e, eol, rfl⟩ : ∃ e eol', eol = e :: eol' :=
    List.exists_cons_of_ne_nil (by rintro rfl; cases last)
  -- the lines that remain, and what `getline` makes of the first one
  have first : ∀ (lineno : Nat) (file : Bytes) (read : Option Bytes × Bytes) (lines : List Bytes),
      0 ∉ file → records (e :: eol) file = some lines →
      getline (memory lineno) (e :: eol) file = .ok read →
      (lines = [] ∧ read = (none, [])) ∨ ∃ line later, lines = line :: later ∧
        read.1 = nonempty line ∧ 0 ∉ read.2 ∧ records (e :: eol) read.2 = some later := by
    intro lineno file read lines noNul split found
    rcases records_some e eol file lines split with
      ⟨rfl, rfl⟩ | ⟨line, rest, later, here, rfl, after⟩
    · rw [getline_nil _ ceol last] at found
      cases found
      exact .inl ⟨rfl, rfl⟩
    · refine .inr ⟨line, later, rfl, ?_⟩
      rw [getline, last] at found
      obtain rfl := getlineLoop_line _ _ _ last narrow file line rest here read found
      rw [here.split] at noNul
      simp only [List.mem_append, not_or] at noNul
      exact ⟨by rw [cString_of_no_nul line noNul.1.1], noNul.2, after⟩
  induction reads with
  | ended lineno file rest found =>
      intro lines noNul split
      rcases first lineno file _ lines noNul split found with
        ⟨rfl, _⟩ | ⟨line, later, rfl, empty, _, _⟩
      · rfl
      · rw [nonempty] at empty
        split at empty
        · next blank => simp [blank]
        · cases empty
  | line lineno file line rest later found reads ih =>
      intro lines noNul split
      rcases first lineno file _ lines noNul split found with
        ⟨_, impossible⟩ | ⟨line', later', rfl, filled, noNul', split'⟩
      · cases impossible
      · rw [nonempty] at filled
        split at filled
        · cases filled
        · next nonblank =>
            cases filled
            rw [List.takeWhile_cons_of_pos (by simpa using nonblank), ih later' noNul' split']

/-- A last byte of `eol` from 128 on is never found. -/
theorem reads_wide (ceol : UInt8) (last : eol.getLast? = some ceol) (wide : ¬ ceol < 128)
    (file : Bytes) (noNul : 0 ∉ file) (read : List Bytes) (reads : Reads memory eol 0 file read) :
    read = wholeFile (memory 0) file := by
  have found : ∀ lineno file, getline (memory lineno) eol file =
      if file = [] then .ok (none, [])
      else (bufferString (memory lineno) file (grownTo file.length 0 1024)).map
        (fun line => (nonempty line, [])) := by
    intro lineno file
    rw [getline, last]
    exact getlineLoop_wide (memory lineno) eol ceol wide file [] 1024
  cases file with
  | nil =>
      cases reads with
      | ended _ _ rest read => rfl
      | line _ _ line rest later read reads =>
          rw [found] at read
          cases read
  | cons c file =>
      -- the line is not empty, since the file is not and has no NUL
      have filled : ∀ cells, cString (c :: file ++ cells) ≠ [] := by
        intro cells
        have nonzero : c ≠ 0 := by
          rintro rfl
          exact noNul List.mem_cons_self
        rw [cString, List.cons_append, List.takeWhile_cons_of_pos (by simpa using nonzero)]
        exact List.cons_ne_nil _ _
      cases reads with
      | ended _ _ rest read =>
          rw [found, if_neg (List.cons_ne_nil c file), bufferString] at read
          split at read
          · rw [Except.map, nonempty_some _ (filled _)] at read
            cases read
          · cases read
      | line _ _ line rest later read reads =>
          rw [found, if_neg (List.cons_ne_nil c file), bufferString] at read
          split at read
          · rw [Except.map, nonempty_some _ (filled _)] at read
            cases read
            have ended : later = [] := by
              cases reads with
              | ended _ _ rest read => rfl
              | line _ _ line rest later read reads =>
                  rw [found] at read
                  cases read
            rw [ended, wholeFile, if_neg (List.cons_ne_nil c file), wholeLine]
          · cases read

end Reading

/-- `na.strings` of the call of `read.table()` from which the column types are derived. -/
def naString : Bytes := [0x5C, 0x4E]

/-- The texts of the fields of a line. -/
def lineTexts (separator : Bytes) (nCol : Nat) (line : Bytes) : List Bytes :=
  (splitLine separator nCol line 0 0 [] []).2

theorem importedValue_eq (text : Bytes) :
    importedValue text = if naString <+: text then .null else .text text := by
  split
  · next marked =>
      obtain ⟨rest, rfl⟩ := marked
      rfl
  · next unmarked =>
      rw [importedValue.eq_2]
      intro rest split
      exact unmarked ⟨rest, split.symm⟩

/-- Two texts that are inserted with the same value. -/
def SameCell (text text' : Bytes) : Prop :=
  text = text' ∨ naString <+: text ∧ naString <+: text'

theorem sameCell_iff (text text' : Bytes) :
    importedValue text = importedValue text' ↔ SameCell text text' := by
  rw [importedValue_eq, importedValue_eq, SameCell]
  by_cases marked : naString <+: text
  · rw [if_pos marked]
    by_cases marked' : naString <+: text'
    · rw [if_pos marked']
      exact iff_of_true rfl (.inr ⟨marked, marked'⟩)
    · rw [if_neg marked']
      refine iff_of_false (fun same => by cases same) (fun same => ?_)
      rcases same with rfl | both
      · exact marked' marked
      · exact marked' both.2
  · rw [if_neg marked, or_iff_left (fun both => marked both.1)]
    by_cases marked' : naString <+: text'
    · rw [if_pos marked']
      refine iff_of_false (fun same => by cases same) ?_
      rintro rfl
      exact marked marked'
    · rw [if_neg marked', SqlValue.text.injEq]

theorem splitLine_ge (separator : Bytes) (nCol : Nat) (line : Bytes) (skip i : Nat) (text : Bytes)
    (texts : List Bytes) :
    i ≤ (splitLine separator nCol line skip i text texts).1 := by
  induction line generalizing skip i text texts with
  | nil => exact Nat.le_refl i
  | cons c line ih =>
      cases skip with
      | succ skip => exact ih skip i text texts
      | zero =>
          rw [splitLine]
          split
          · exact Nat.le_refl i
          · split
            · exact Nat.le_of_succ_le (ih _ (i + 1) _ _)
            · exact ih _ _ _ _

theorem splitLine_rest (separator : Bytes) (nCol : Nat) (line : Bytes) (i : Nat) (text : Bytes)
    (texts : List Bytes) (same : (splitLine separator nCol line 0 i text texts).1 = i) :
    (splitLine separator nCol line 0 i text texts).2 = texts ++ [text ++ line] := by
  induction line generalizing text with
  | nil => rw [splitLine, List.append_nil]
  | cons c line ih =>
      rw [splitLine] at same ⊢
      split at same
      · next ends => rw [if_pos ends]
      · next goesOn =>
          rw [if_neg goesOn]
          split at same
          · have more := splitLine_ge separator nCol line
              (if i + 1 < nCol then separator.length - 1 else 0) (i + 1) [] (texts ++ [text])
            omega
          · next unfound =>
              rw [if_neg unfound, ih (text ++ [c]) same, List.append_assoc]
              rfl

theorem splitLine_short (separator : Bytes) (nCol : Nat) (line : Bytes) (i : Nat) (text : Bytes)
    (texts : List Bytes) (short : line.length < separator.length) :
    (splitLine separator nCol line 0 i text texts).1 = i := by
  induction line generalizing text with
  | nil => rfl
  | cons c line ih =>
      rw [splitLine]
      split
      · rfl
      · split
        · next found =>
            have inside := (List.isPrefixOf_iff_prefix.mp found).length_le
            exact absurd short (Nat.not_lt.mpr inside)
        · exact ih (text ++ [c]) (Nat.lt_of_succ_lt short)

/-- What stands behind a line goes to its last text, if there are not more texts then. -/
theorem splitLine_append (separator : Bytes) (nCol : Nat) (rest line : Bytes) (skip i : Nat)
    (text : Bytes) (texts : List Bytes) (inside : skip ≤ line.length)
    (count : (splitLine separator nCol line skip i text texts).1 + 1 = nCol)
    (count' : (splitLine separator nCol (line ++ rest) skip i text texts).1 + 1 = nCol) :
    ∃ front last, (splitLine separator nCol line skip i text texts).2 = front ++ [last] ∧
      (splitLine separator nCol (line ++ rest) skip i text texts).2 = front ++ [last ++ rest] := by
  induction line generalizing skip i text texts with
  | nil =>
      obtain rfl : skip = 0 := Nat.le_zero.mp inside
      rw [splitLine] at count
      rw [List.nil_append] at count'
      exact ⟨texts, text, rfl, splitLine_rest separator nCol rest i text texts (by omega)⟩
  | cons c line ih =>
      cases skip with
      | succ skip => exact ih skip i text texts (Nat.le_of_succ_le_succ inside) count count'
      | zero =>
          rw [List.cons_append, splitLine] at count' ⊢
          rw [splitLine] at count ⊢
          by_cases ends : c = 10 ∨ c = 13
          · rw [if_pos ends, if_pos ends]
            exact ⟨texts, text ++ c :: line, rfl, by rw [List.append_assoc]; rfl⟩
          rw [if_neg ends] at count count' ⊢
          rw [if_neg ends]
          by_cases found : separator.isPrefixOf (c :: line) = true
          · have found' : separator.isPrefixOf (c :: (line ++ rest)) = true :=
              List.isPrefixOf_iff_prefix.mpr
                ((List.isPrefixOf_iff_prefix.mp found).trans (List.prefix_append (c :: line) rest))
            have size := (List.isPrefixOf_iff_prefix.mp found).length_le
            rw [List.length_cons] at size
            rw [if_pos found] at count ⊢
            rw [if_pos found'] at count' ⊢
            exact ih _ (i + 1) [] (texts ++ [text]) (by split <;> omega) count count'
          · rw [if_neg found] at count ⊢
            by_cases found' : separator.isPrefixOf (c :: (line ++ rest)) = true
            · -- a separator that begins in the line and ends behind it is one more
              exfalso
              rw [if_pos found'] at count'
              have more := splitLine_ge separator nCol (line ++ rest)
                (if i + 1 < nCol then separator.length - 1 else 0) (i + 1) [] (texts ++ [text])
              have long : (c :: line).length < separator.length := by
                by_contra short
                exact found (List.isPrefixOf_iff_prefix.mpr (List.prefix_of_prefix_length_le
                  (List.isPrefixOf_iff_prefix.mp found') (List.prefix_append (c :: line) rest)
                  (Nat.not_lt.mp short)))
              have none_ := splitLine_short separator nCol line i (text ++ [c]) texts
                (Nat.lt_of_succ_lt long)
              omega
            · rw [if_neg found'] at count' ⊢
              exact ih 0 i (text ++ [c]) texts (Nat.zero_le _) count count'

theorem splitLine_count (separator : Bytes) (nCol : Nat) (line : Bytes) :
    ∀ (skip i : Nat) (text : Bytes) (texts : List Bytes), texts.length = i →
      (splitLine separator nCol line skip i text texts).2.length =
        (splitLine separator nCol line skip i text texts).1 + 1 := by
  induction line with
  | nil =>
      rintro skip i text texts rfl
      rw [splitLine, List.length_append]
      rfl
  | cons c line ih =>
      intro skip i text texts count
      cases skip with
      | succ skip => exact ih skip i text texts count
      | zero =>
          rw [splitLine]
          split
          · rw [List.length_append, count]
            rfl
          · split
            · exact ih _ _ _ _ (by rw [List.length_append, count]; rfl)
            · exact ih _ _ _ _ count

/-- All columns have a text, and the last one begins with the marker. -/
def EndsMarked (separator : Bytes) (nCol : Nat) (line : Bytes) : Prop :=
  (lineTexts separator nCol line).length = nCol ∧
    ∃ text ∈ (lineTexts separator nCol line).getLast?, naString <+: text

/-- The values that a line is inserted with. -/
def lineRow (separator : Bytes) (nCol : Nat) (line : Bytes) : List SqlValue :=
  (splitLine separator nCol line 0 0 [] []).2.map importedValue

theorem lineRow_eq_iff {separator line line' : Bytes} {nCol : Nat} :
    lineRow separator nCol line = lineRow separator nCol line' ↔
      List.Forall₂ SameCell (lineTexts separator nCol line) (lineTexts separator nCol line') := by
  rw [← List.forall₂_eq_eq_eq]
  change List.Forall₂ Eq ((lineTexts separator nCol line).map importedValue)
    ((lineTexts separator nCol line').map importedValue) ↔ _
  rw [List.forall₂_map_left_iff, List.forall₂_map_right_iff]
  simp only [sameCell_iff]

/-- With more text behind it, a line is inserted with the same values exactly if the marker hides
this text. -/
theorem lineRow_append {separator line rest : Bytes} {nCol : Nat} (some_ : rest ≠ [])
    (count : (splitLine separator nCol (line ++ rest) 0 0 [] []).1 + 1 = nCol) :
    lineRow separator nCol (line ++ rest) = lineRow separator nCol line ↔
      EndsMarked separator nCol line := by
  have size (line : Bytes) : (lineTexts separator nCol line).length =
      (splitLine separator nCol line 0 0 [] []).1 + 1 :=
    splitLine_count separator nCol line 0 0 [] [] rfl
  rw [EndsMarked]
  by_cases columns : (lineTexts separator nCol line).length = nCol
  · obtain ⟨front, last, texts, texts'⟩ := splitLine_append separator nCol rest line 0 0 [] []
      (Nat.zero_le _) ((size line).symm.trans columns) count
    rw [and_iff_right columns, lineRow, lineRow, lineTexts, texts, texts', List.map_append,
      List.map_append, List.append_cancel_left_eq, List.getLast?_concat, List.map_singleton,
      List.map_singleton, List.singleton_inj, sameCell_iff]
    constructor
    · rintro (same | both)
      · exact absurd (List.append_right_eq_self.mp same) some_
      · exact ⟨last, rfl, both.2⟩
    · rintro ⟨text, isLast, marked⟩
      obtain rfl := Option.mem_some_iff.mp isLast
      exact .inr ⟨marked.trans (List.prefix_append _ rest), marked⟩
  · refine iff_of_false (fun same => columns ?_) (fun both => columns both.1)
    have length := congrArg List.length same
    rw [lineRow, lineRow, List.length_map, List.length_map] at length
    exact length.symm.trans ((size (line ++ rest)).trans count)

variable {DB : Type}

/-- The line with `j` lines before it is not skipped. -/
def unskipped (skip : Int) (j : Nat) : Bool := decide (skip < (Int32.ofNat (j + 1)).toInt)

theorem bindTexts_ready (texts : List Bytes) :
    ∀ (h : Handles (Connection DB)) (front back : List SqlValue), h.vdbe = .ready →
      h.bindings = front ++ back → back.length = texts.length →
        bindTexts front.length texts h = h.withBindings (front ++ texts.map importedValue) := by
  induction texts with
  | nil =>
      intro h front back ready bindings count
      rw [List.length_eq_zero_iff.mp count, List.append_nil] at bindings
      rw [bindTexts, List.map_nil, List.append_nil, ← bindings]
      rfl
  | cons text texts ih =>
      intro h front back ready bindings count
      obtain ⟨value, back, rfl⟩ := List.exists_cons_of_length_eq_add_one count
      have bound : h.bind (front.length + 1) (importedValue text) =
          h.withBindings (front ++ [importedValue text] ++ back) := by
        rw [Handles.bind, if_pos ⟨ready, Nat.succ_pos _⟩, bindings, Nat.add_sub_cancel,
          List.set_append_right _ _ (Nat.le_refl _), Nat.sub_self, List.append_assoc]
        rfl
      have later := ih (h.withBindings (front ++ [importedValue text] ++ back))
        (front ++ [importedValue text]) back ready rfl (Nat.succ.inj count)
      rw [List.length_append] at later
      rw [bindTexts, bound]
      refine later.trans ?_
      rw [Handles.withBindings_withBindings, List.append_assoc]
      rfl

/-- Ready for the next row of `nCol` values. -/
structure ForNext (nCol : Nat) (h : Handles (Connection DB)) : Prop where
  ready : h.vdbe = .ready
  count : h.bindings.length = nCol

theorem importRow_ok (nCol : Nat) (texts : List Bytes) (count : texts.length = nCol)
    (h h' : Handles (Connection DB)) (next : ForNext nCol h)
    (imported : (importRow texts).run h = .ok () h') :
    ForNext nCol h' ∧ h.Progress h' [texts.map importedValue] := by
  have bound := bindTexts_ready texts h [] h.bindings next.ready rfl (by rw [next.count, count])
  rw [List.length_nil, List.nil_append] at bound
  rw [importRow_run, bound] at imported
  have execution : (h.withBindings (texts.map importedValue)).toExecute =
      [texts.map importedValue] := by
    rw [Handles.toExecute, Handles.withBindings_vdbe, next.ready, Handles.withBindings_bindings]
  have stepped := (h.withBindings (texts.map importedValue)).step_stepped
  generalize (h.withBindings (texts.map importedValue)).step = shown at stepped imported
  cases stepped with
  | row row rest own h'' _ _ _ _ _ => cases imported
  | error message h'' _ _ _ _ _ _ => cases imported
  | done h'' _ _ progress halted bindings _ =>
      cases imported
      rw [execution] at progress
      refine ⟨⟨by rw [Handles.reset, halted], ?_⟩, ?_⟩
      · rw [Handles.reset, halted, bindings, Handles.withBindings_bindings, List.length_map, count]
      · have whole := ((h.progress_bindings _).trans progress).trans h''.progress_reset
        rwa [List.append_nil] at whole

theorem importUnskipped_ok (zFile : String) (separator : Bytes) (skip : Int) (nCol j : Nat)
    (line : Bytes) (h h' : Handles (Connection DB)) (next : ForNext nCol h)
    (imported : (importUnskipped zFile separator skip nCol (j + 1) line).run h = .ok () h') :
    (ForNext nCol h' ∧
      h.Progress h' (if unskipped skip j then [lineRow separator nCol line] else [])) ∧
      (unskipped skip j = true → (splitLine separator nCol line 0 0 [] []).1 + 1 = nCol) := by
  rw [importUnskipped] at imported
  split at imported
  · next early =>
      cases imported
      rw [unskipped, decide_eq_false (Int.not_lt.mpr early)]
      exact ⟨⟨next, .refl h⟩, fun no => absurd no Bool.false_ne_true⟩
  · next late =>
      rw [unskipped, decide_eq_true (Int.not_le.mp late), if_pos rfl, lineRow]
      rw [importLine] at imported
      have count := splitLine_count separator nCol line 0 0 [] [] rfl
      generalize splitLine separator nCol line 0 0 [] [] = fields at imported count ⊢
      simp only at imported
      split at imported
      · cases imported
      · next columns =>
          exact ⟨importRow_ok nCol _ (count.trans (not_not.mp columns)) h h' next imported,
            fun _ => not_not.mp columns⟩

/-- A loop that returns has read lines until `NULL`, and inserted those that are not
skipped, each of which has a text for each column. -/
theorem importLoop_ok (memory : Nat → Nat → UInt8) (zFile : String) (separator eol : Bytes)
    (skip : Int) (nCol rounds : Nat) :
    ∀ (lineno : Nat) (file : Bytes) (h h' : Handles (Connection DB)), ForNext nCol h →
      (importLoop memory zFile separator eol skip nCol rounds lineno file).run h = .ok () h' →
      ∃ read, Reads memory eol lineno file read ∧
        (∀ line ∈ acceptedFrom (unskipped skip) lineno read,
          (splitLine separator nCol line 0 0 [] []).1 + 1 = nCol) ∧
        h.Progress h'
          ((acceptedFrom (unskipped skip) lineno read).map (lineRow separator nCol)) := by
  induction rounds with
  | zero =>
      intro lineno file h h' next imported
      cases imported
  | succ rounds ih =>
      intro lineno file h h' next imported
      rw [importLoop] at imported
      split at imported
      · cases imported
      · next rest read =>
          cases imported
          exact ⟨[], .ended lineno file rest read, List.forall_mem_nil _, .refl h⟩
      · next line rest read =>
          rw [EStateM.run_bind] at imported
          cases run : (importUnskipped zFile separator skip nCol (lineno + 1) line).run h with
          | error f h'' =>
              rw [run] at imported
              cases imported
          | ok _ h'' =>
              rw [run] at imported
              obtain ⟨⟨next', progress⟩, columns⟩ := importUnskipped_ok _ _ _ _ _ _ _ _ next run
              obtain ⟨later, reads, columns', progress'⟩ := ih _ _ _ _ next' imported
              refine ⟨line :: later, .line lineno file line rest later read reads, ?_⟩
              have whole := progress.trans progress'
              rw [acceptedFrom]
              split
              · next accepted =>
                  rw [if_pos accepted] at whole
                  exact ⟨List.forall_mem_cons.mpr ⟨columns accepted, columns'⟩, whole⟩
              · next skipped =>
                  rw [if_neg skipped] at whole
                  exact ⟨columns', whole⟩

/-- The import has inserted exactly these rows, one execution each, and returned. -/
def Inserts (engine : Engine DB) (memory : Nat → Nat → UInt8) (zTable zFile : String)
    (file separator eol : Bytes) (skip : Int) (nCol : Nat) (s s' : Connection DB)
    (rows : List (List SqlValue)) : Prop :=
  ∃ program h, prepareSql engine s (.data (.insertValues zTable nCol)) = .ok program ∧
    (importLoop memory zFile separator eol skip nCol (file.length + 1) 0 file).run
      (Handles.prepare program s 0) = .ok () h ∧
    h.executed = rows ∧ s' = (Handles.runAll program s rows).1

/-- The nonempty lines after the first `skip` ones. -/
def expectedLines (skip : Int) (lines : List Bytes) : List Bytes :=
  (lines.drop skip.toNat).filter (fun line => decide (line ≠ []))

/-- What a file must be like that is read as one line. It is skipped, and no later line has any
text; or the file is empty, or one of its lines has text. If that is the first line, its last field
begins with the marker, which hides what follows; else its fields have the same values as those of
the whole file. -/
def MakesOneLine (whole separator : Bytes) (skip : Int) (nCol : Nat) (lines : List Bytes) : Prop :=
  if 0 < skip then ∀ line ∈ lines.drop skip.toNat, line = []
  else
    match lines with
    | [] => True
    | [] :: later => ∃ line, later.filter (fun line => decide (line ≠ [])) = [line] ∧
        List.Forall₂ SameCell (lineTexts separator nCol whole) (lineTexts separator nCol line)
    | first :: later => (∀ line ∈ later, line = []) ∧ EndsMarked separator nCol first

/-- Where the last byte of `eol` can be recognized, no line that is to be inserted comes
after an empty one or has a number that is too large. Where it cannot, the file is read as
one line. -/
def KeepsLines (memory : Nat → UInt8) (file separator eol : Bytes) (skip : Int) (nCol : Nat)
    (lines : List Bytes) : Prop :=
  match eol.getLast? with
  | none => False
  | some ceol =>
      if ceol < 128 then
        Unbroken (fun line => decide (line ≠ [])) (unskipped skip) skip.toNat lines
      else MakesOneLine (wholeLine memory file) separator skip nCol lines

/-- The file makes the same rows as its lines. -/
theorem wholeFile_rows {memory : Nat → UInt8} {file separator eol : Bytes} {skip : Int} {nCol : Nat}
    {lines : List Bytes} (eol_ : eol ≠ []) (noNul : 0 ∉ file) (split : records eol file = some lines)
    (counts : ∀ line ∈ acceptedFrom (unskipped skip) 0 (wholeFile memory file),
      (splitLine separator nCol line 0 0 [] []).1 + 1 = nCol) :
    (acceptedFrom (unskipped skip) 0 (wholeFile memory file)).map (lineRow separator nCol) =
        (expectedLines skip lines).map (lineRow separator nCol) ↔
      MakesOneLine (wholeLine memory file) separator skip nCol lines := by
  obtain ⟨e, eol, rfl⟩ := List.exists_cons_of_ne_nil eol_
  have first : unskipped skip 0 = true ↔ ¬ 0 < skip := by
    rw [unskipped, decide_eq_true_iff, show (Int32.ofNat (0 + 1)).toInt = 1 from rfl]
    omega
  rw [MakesOneLine.eq_def, expectedLines]
  rcases records_some e eol file lines split with ⟨rfl, rfl⟩ | ⟨record, rest, later, here, rfl, _⟩
  · rw [List.drop_nil]
    refine iff_of_true rfl ?_
    split
    · exact List.forall_mem_nil _
    · trivial
  have filled : file ≠ [] := by
    rw [here.split]
    simp
  have whole : wholeLine memory file = record ++ (e :: eol ++ rest ++ cString
      ((List.range' file.length (grownTo file.length 0 1024 - file.length)).map memory)) := by
    have nonzero : ∀ c ∈ file, decide (c ≠ 0) = true := fun c member =>
      decide_eq_true (fun zero => noNul (zero ▸ member))
    rw [wholeLine, cString, List.takeWhile_append_of_pos nonzero]
    conv => lhs; lhs; rw [here.split]
    rw [List.append_assoc, List.append_assoc, List.append_assoc]
    rfl
  rw [wholeFile, if_neg filled, acceptedFrom, acceptedFrom] at counts ⊢
  by_cases skips : 0 < skip
  · rw [if_neg (fun no => first.mp no skips), if_pos skips, List.map_nil, eq_comm, List.map_eq_nil_iff,
      List.filter_eq_nil_iff]
    simp
  · rw [if_pos (first.mpr skips)] at counts ⊢
    have count := counts _ (.head _)
    rw [if_neg skips, Int.toNat_eq_zero.mpr (Int.not_lt.mp skips), List.drop_zero,
      List.map_singleton]
    cases record with
    | nil =>
        rw [List.filter_cons_of_neg (by simp), eq_comm, List.map_eq_singleton_iff]
        exact exists_congr fun line => and_congr_right fun _ => eq_comm.trans lineRow_eq_iff
    | cons c record =>
        have rest_ : e :: eol ++ rest ++ cString ((List.range' file.length
            (grownTo file.length 0 1024 - file.length)).map memory) ≠ [] := by simp
        rw [whole] at count
        have marked := lineRow_append rest_ count
        rw [List.filter_cons_of_pos (by simp), List.map_cons, whole, List.cons_eq_cons, marked,
          eq_comm, List.map_eq_nil_iff, List.filter_eq_nil_iff, and_comm]
        simp

theorem int32_ofNat_le (n : Nat) : (Int32.ofNat n).toInt ≤ n := by
  rw [Int32.toInt_ofNat', Int.bmod_def, Int32.size]
  split <;> omega

theorem unskipped_late (skip : Int) (j : Nat) (accepted : unskipped skip j = true) :
    skip.toNat ≤ j := by
  have number := int32_ofNat_le (j + 1)
  have late := of_decide_eq_true accepted
  omega

/-- An import that succeeds has run its loop to the end. -/
theorem rsSqliteImport_inserts (engine : Engine DB) (memory : Nat → Nat → UInt8)
    (zTable zFile : String) (file separator eol : Bytes) (skip : Int) (nCol : Nat)
    (s s' : Connection DB) (columns : engine.columnCount zTable s.db = .ok nCol)
    (imported : (rsSqliteImport engine memory zTable zFile (some file) separator eol skip).run s =
      .ok true s') :
    ∃ read, Reads memory eol 0 file read ∧
      (∀ line ∈ acceptedFrom (unskipped skip) 0 read,
        (splitLine separator nCol line 0 0 [] []).1 + 1 = nCol) ∧
      ∀ rows, Inserts engine memory zTable zFile file separator eol skip nCol s s' rows ↔
        (acceptedFrom (unskipped skip) 0 read).map (lineRow separator nCol) = rows := by
  simp only [EStateM.run, rsSqliteImport, columns] at imported
  split at imported
  · cases imported
  · split at imported
    · cases imported
    · cases prepared : prepareSql engine s (.data (.insertValues zTable nCol)) with
      | error message =>
          rw [prepared] at imported
          cases imported
      | ok program =>
          rw [prepared] at imported
          simp only at imported
          have count : program.parameterNames.length = nCol := by
            rw [prepareSql] at prepared
            cases accepted : engine.prepare (.insertValues zTable nCol) s.db with
            | error message =>
                rw [accepted] at prepared
                cases prepared
            | ok exec =>
                rw [accepted] at prepared
                cases prepared
                exact List.length_replicate
          cases run : (importLoop memory zFile separator eol skip nCol (file.length + 1) 0 file).run
              (Handles.prepare program s 0) with
          | error f h =>
              rw [EStateM.run] at run
              rw [run] at imported
              cases imported
          | ok _ h =>
              rw [EStateM.run] at run
              rw [run] at imported
              cases imported
              obtain ⟨read, reads, counts, progress⟩ := importLoop_ok memory zFile separator eol skip nCol _
                0 file (Handles.prepare program s 0) h
                ⟨rfl, by rw [Handles.prepare, List.length_replicate, count]⟩ run
              refine ⟨read, reads, counts, fun rows => ⟨?_, ?_⟩⟩
              · rintro ⟨program', h', prepared', run', rfl, _⟩
                cases prepared.symm.trans prepared'
                cases (show EStateM.Result.ok () h = .ok () h' from run.symm.trans run')
                exact progress.executed.symm
              · rintro rfl
                refine ⟨program, h, prepared, run, progress.executed, ?_⟩
                have finalized := progress.trans h.progress_reset
                rw [List.append_nil] at finalized
                exact finalized.database

/-- An import that succeeds has inserted every nonempty line after the first `skip` ones
exactly if none of them comes after an empty line. -/
theorem importsLines_iff (engine : Engine DB) (memory : Nat → Nat → UInt8)
    (zTable zFile : String) (file separator eol : Bytes) (skip : Int) (nCol : Nat)
    (s s' : Connection DB) (lines : List Bytes) (noNul : 0 ∉ file)
    (split : records eol file = some lines)
    (columns : engine.columnCount zTable s.db = .ok nCol)
    (imported : (rsSqliteImport engine memory zTable zFile (some file) separator eol skip).run s =
      .ok true s') :
    Inserts engine memory zTable zFile file separator eol skip nCol s s'
        ((expectedLines skip lines).map (lineRow separator nCol)) ↔
      KeepsLines (memory 0) file separator eol skip nCol lines := by
  obtain ⟨read, reads, counts, inserts⟩ := rsSqliteImport_inserts engine memory zTable zFile file
    separator eol skip nCol s s' columns imported
  rw [inserts, KeepsLines]
  cases last : eol.getLast? with
  | none =>
      -- an empty `eol` is never read
      exfalso
      cases reads with
      | ended _ _ rest read | line _ _ line rest later read reads =>
          rw [getline, last] at read
          cases read
  | some ceol =>
      simp only
      split
      · next narrow =>
          rw [reads_lines ceol last narrow 0 file read reads lines noNul split]
          exact accepted_takeWhile_iff _ _ _ (fun j => unskipped_late skip j) _ lines
      · next wide =>
          have whole := reads_wide ceol last wide file noNul read reads
          rw [whole] at counts ⊢
          exact wholeFile_rows (by rintro rfl; cases last) noNul split counts

/-- Two columns of texts; the content is the rows. -/
def pairsEngine : Engine (List (List SqlValue)) where
  prepare _ _ := .ok (fun rows values => .done (rows ++ [values]) 1)
  existsTable _ _ := .ok true
  listFields _ _ := .ok ["x", "y"]
  columnCount _ _ := .ok 2
  commitError _ _ := none

/-- The lines `a,b`, `c,d` and `e,\N`, of which the first is skipped. -/
theorem importsLines_iff_skipped :
    Inserts pairsEngine (fun _ _ => 0) "t" "f"
      [97, 44, 98, 13, 10, 99, 44, 100, 13, 10, 101, 44, 92, 78, 13, 10] [44] [13, 10] 1 2
      ⟨[], .closed⟩
      ⟨[[.text [99], .text [100]], [.text [101], .null]], .closed⟩
      [[.text [99], .text [100]], [.text [101], .null]] := by
  refine (importsLines_iff pairsEngine (fun _ _ => 0) "t" "f" _ [44] [13, 10] 1 2 _ _
    [[97, 44, 98], [99, 44, 100], [101, 44, 92, 78]] (by decide) rfl rfl rfl).mpr ?_
  rw [KeepsLines, show [13, 10].getLast? = some (10 : UInt8) from rfl]
  simp only
  rw [if_pos (by decide)]
  decide

/-- The line after the empty one is not inserted. -/
theorem importsLines_emptyLine :
    (rsSqliteImport pairsEngine (fun _ _ => 0) "t" "f" (some [97, 44, 98, 10, 10, 99, 44, 100, 10])
        [44] [10] 0).run ⟨[], .closed⟩ = .ok true ⟨[[.text [97], .text [98]]], .closed⟩ ∧
      records [10] [97, 44, 98, 10, 10, 99, 44, 100, 10] =
        some [[97, 44, 98], [], [99, 44, 100]] ∧
      ¬ Inserts pairsEngine (fun _ _ => 0) "t" "f" [97, 44, 98, 10, 10, 99, 44, 100, 10] [44] [10] 0
        2 ⟨[], .closed⟩ ⟨[[.text [97], .text [98]]], .closed⟩
        ((expectedLines 0 [[97, 44, 98], [], [99, 44, 100]]).map (lineRow [44] 2)) := by
  refine ⟨rfl, rfl, ?_⟩
  rintro ⟨program, h, prepared, run, executed, database⟩
  cases prepared
  cases database

end RSQLite
