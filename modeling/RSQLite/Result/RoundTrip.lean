import RSQLite.Result.History
import RSQLite.Result.ReadBack

/-!
Writing an R vector to a column of a table and reading the column back. The vector is
bound element by element to an insertion, and the column is fetched by a result of its
own. What SQLite does with the statements is an assumption about the column.
-/
namespace RSQLite

open SqliteResultImpl DbColumnStorage

section Frame

variable (cv : Conversions) {source : Nat → SqliteColumnDataSource} {D : DataType}

theorem readWarnings_uniform (unwarned : Unwarned cv D) (rows : List (Option Row)) :
    ∀ before, Uniform (source 0) D ((before ++ rows).map (cellOf 0)) →
      readWarnings cv source [.unknown] before rows = [] := by
  induction rows with
  | nil => exact fun _ _ => rfl
  | cons row rest ih =>
      intro before uniform
      rw [List.append_cons] at uniform
      have here : Uniform (source 0) D ((before ++ [row]).map (cellOf 0)) := by
        rw [List.map_append] at uniform
        exact uniform.left
      have first : rowWarnings cv source [.unknown] before row = [] := by
        have approaches := finalType_approaches here .unknown (Or.inl rfl)
        rw [rowWarnings]
        exact congrArg (· ++ []) (cellWarnings_unwarned cv unwarned approaches (cellOf 0 row))
      rw [readWarnings, first, ih (before ++ [row]) uniform]
      rfl

theorem frameWarnings_uniform (unwarned : Unwarned cv D) (names : List String)
    (rows : List (Option Row)) (uniform : Uniform (source 0) D (rows.map (cellOf 0)))
    (declared : (source 0).getDeclDataType = D) (plain : (source 0).withAltTypes = false) :
    frameWarnings cv source [.unknown] names rows = [] := by
  have read := readWarnings_uniform cv unwarned rows [] uniform
  have conflicts : conflictWarnings source [.unknown] names rows = [] := by
    rw [conflictWarnings]
    cases names with
    | nil => rfl
    | cons name names =>
        exact List.filterMap_cons_none (readColumn_uniform uniform declared plain name)
  rw [frameWarnings, read, conflicts]
  rfl

end Frame

variable {DB : Type}

/-- A column of a table, by the two statements that write and read it. -/
structure TableColumn (DB : Type) where
  declType : String
  insert : Program DB
  select : Program DB
  cells : DB → List SqlValue

namespace TableColumn

variable (column : TableColumn DB)

/-- `INSERT INTO t VALUES (?)` adds a cell, stored under the affinity of the column, and
`SELECT x FROM t` shows the cells. -/
structure Stores (store : Affinity → SqlValue → SqlValue) : Prop where
  placeholder : column.insert.parameterNames.length = 1
  quiet : Quiet column.insert
  inserted : ∀ db value, (column.insert.exec db [value]).failure = none
  stored : ∀ db value, column.cells (column.insert.exec db [value]).database =
    column.cells db ++ [store (sqlite3AffinityType (word column.declType)) value]
  noPlaceholder : column.select.parameterNames = []
  width : column.select.columnNames.length = 1
  declared : column.select.declTypes = [some (word column.declType)]
  shown : ∀ db, (column.select.exec db []).rows = (column.cells db).map (fun cell => [cell])
  selected : ∀ db, (column.select.exec db []).failure = none

/-- The vector is bound to a result of the insertion, which executes it for each element. -/
def write (v : RVector) (db : DB) (totalChanges : Int32) : Outcome DB :=
  match create (Handles.prepare column.insert db totalChanges) false with
  | .error f _ => .error f
  | .ok _ s =>
      match (DbResult.bind [v]).run s with
      | .error f _ => .error f
      | .ok _ s => .ok s.handles.database

/-- A result of the query, without extended types, is fetched as a whole. -/
def read (cv : Conversions) (fuel : Nat) (db : DB) (totalChanges : Int32) : Outcome DataFrame :=
  match create (Handles.prepare column.select db totalChanges) false with
  | .error f _ => .error f
  | .ok _ s =>
      match (DbResult.fetch cv fuel (-1)).run s with
      | .error f _ => .error f
      | .ok frame _ => .ok frame

variable {column} {store : Affinity → SqlValue → SqlValue} (stores : column.Stores store)

include stores

theorem runUntilFailure_stores (cells : List SqlValue) : ∀ db, ∃ db',
    runUntilFailure column.insert db (cells.map (fun cell => .ok [cell])) = (none, db') ∧
      column.cells db' = column.cells db ++
        cells.map (store (sqlite3AffinityType (word column.declType))) := by
  induction cells with
  | nil => exact fun db => ⟨db, rfl, (List.append_nil _).symm⟩
  | cons cell rest ih =>
      intro db
      obtain ⟨db', ran, content⟩ := ih (column.insert.exec db [cell]).database
      refine ⟨db', ?_, ?_⟩
      · rw [List.map_cons, runUntilFailure_done _ _ _ _ (stores.inserted db cell), ran]
      · rw [content, stores.stored, List.append_assoc]
        rfl

theorem write_stores (v : RVector) (cells : List SqlValue)
    (rows : paramRows [v] = cells.map (fun cell => .ok [cell])) (db : DB)
    (totalChanges : Int32) : ∃ db', column.write v db totalChanges = .ok db' ∧
      column.cells db' = column.cells db ++
        cells.map (store (sqlite3AffinityType (word column.declType))) := by
  obtain ⟨db', ran, content⟩ := runUntilFailure_stores stores cells db
  have parameterised : column.insert.parameterNames ≠ [] :=
    List.ne_nil_of_length_eq_add_one stores.placeholder
  have checked : Checked (initialState (Handles.prepare column.insert db totalChanges) false)
      [v] := by
    have one : (initialState (Handles.prepare column.insert db totalChanges) false).nparams = 1 :=
      stores.placeholder
    constructor
    · rw [one]
      exact Nat.one_ne_zero
    · rw [one, List.length_singleton]
    · exact List.forall_mem_singleton.mpr rfl
  have left := bind_quiet _ [v] checked stores.quiet
  refine ⟨db', ?_, content⟩
  rw [write, create_parameterised _ db totalChanges false parameterised]
  rw [rows] at left
  have ended := left.trans ran
  cases bound : (DbResult.bind [v]).run
      (initialState (Handles.prepare column.insert db totalChanges) false) with
  | error f s =>
      rw [bound] at ended
      cases ended
  | ok _ s =>
      rw [bound] at ended
      simp only [bound]
      exact congrArg Except.ok (congrArg Prod.snd ended)

theorem rowsFrom_select (db : DB) : rowsFrom column.select db [.ok []] =
    ((column.cells db).map (fun cell => [cell]), none) := by
  simp only [rowsFrom, afterExecution, stores.selected, stores.shown, List.append_nil]

end TableColumn

/-- The result of a query that does not fail is created, with columns of unknown type. -/
theorem create_complete (program : Program DB) (db : DB) (totalChanges : Int32)
    (withAltTypes : Bool) (noParams : program.parameterNames = [])
    (complete : (rowsFrom program db [.ok []]).2 = none) : ∃ s,
    create (Handles.prepare program db totalChanges) withAltTypes = .ok () s ∧
      s.handles.program = program ∧ s.withAltTypes = withAltTypes ∧
      s.types = List.replicate program.columnNames.length .unknown := by
  have ended := step_end ((initialState (Handles.prepare program db totalChanges)
    withAltTypes).initialised true) (congrArg List.length noParams).symm
  rw [upcoming_prepared program db totalChanges withAltTypes noParams] at ended
  rw [create_noParams program db totalChanges withAltTypes noParams]
  generalize rowsFrom program db [.ok []] = stream at complete ended
  generalize step.run ((initialState (Handles.prepare program db totalChanges)
    withAltTypes).initialised true) = result at ended
  cases ended with
  | row h g done row progress run shown => exact ⟨_, rfl, progress.program, rfl, rfl⟩
  | finished h g done progress run hidden => exact ⟨_, rfl, progress.program, rfl, rfl⟩
  | failed h g done f progress run hidden => cases complete

theorem fetchedFrame_uniform (cv : Conversions) {D : DataType} (s : SqliteResultImpl DB)
    (types : s.types = [.unknown]) (declared : (s.columnSource 0).getDeclDataType = D)
    (plain : (s.columnSource 0).withAltTypes = false) (unwarned : Unwarned cv D)
    (rows : List (Option Row)) (cells : List SqlValue) (read : rows.map (cellOf 0) = cells)
    (uniform : Uniform (s.columnSource 0) D cells) :
    (s.fetchedFrame cv rows).columns =
        [(allocate cells.length D).withSlots (cells.map (slotOf cv D))] ∧
      (s.fetchedFrame cv rows).warnings = [] := by
  subst read
  constructor
  · rw [fetchedFrame, types]
    exact congrArg (· :: []) (fetchedVector_uniform cv uniform declared)
  · have silent := frameWarnings_uniform cv unwarned s.names rows uniform declared plain
    simp [fetchedFrame, types, silent]

theorem cellOf_singletons (cells : List SqlValue) :
    ((cells.map (fun cell => [cell])).map some).map (cellOf 0) = cells := by
  rw [List.map_map, List.map_map]
  exact List.map_id cells

theorem piece_all (rows : List Row) : Chunked.piece (-1) rows = rows := by
  simp [Chunked.piece, Chunked.amount]

namespace TableColumn

variable (cv : Conversions) {column : TableColumn DB} {store : Affinity → SqlValue → SqlValue}
  {D : DataType}

/-- A column that holds values of its declared type only is read without warnings. -/
theorem read_uniform (stores : column.Stores store) (db : DB) (totalChanges : Int32)
    (declared : datatypeFromDecltype (some (word column.declType)) false = D)
    (uniform : Uniform ⟨some (word column.declType), false⟩ D (column.cells db))
    (unwarned : Unwarned cv D) (fuel : Nat) (enough : (column.cells db).length < fuel) :
    ∃ frame, column.read cv fuel db totalChanges = .ok frame ∧
      frame.columns = [(allocate (column.cells db).length D).withSlots
        ((column.cells db).map (slotOf cv D))] ∧ frame.warnings = [] := by
  have stream := rowsFrom_select stores db
  obtain ⟨s, created, program, alt, types⟩ := create_complete column.select db totalChanges false
    stores.noPlaceholder (congrArg Prod.snd stream)
  have opened := opened_of_noParams column.select db totalChanges false s stores.noPlaceholder
    created
  rw [stores.width] at types
  have source : s.columnSource 0 = ⟨some (word column.declType), false⟩ := by
    rw [columnSource, program, stores.declared, alt]
    rfl
  have pending : s.Pending (rowsFrom column.select db [.ok []]) := opened.pending
  rw [stream] at pending
  have ended := fetch_end cv fuel s (-1) _ none opened.ready opened.count pending
    (reaches_nat _) (by rwa [List.length_map])
  generalize fetched : (fetch cv Nat fuel (-1)).run s = result at ended
  cases ended with
  | delivered frame h g c n types' done _ delivered whole _ _ _ _ _ =>
      rw [piece_all] at delivered
      have cells : frame.rows.map (cellOf 0) = column.cells db := by
        rw [delivered, cellOf_singletons]
      rw [← source] at uniform
      obtain ⟨columns, warnings⟩ := fetchedFrame_uniform cv s types (by rw [source]; exact declared)
        (by rw [source]) unwarned frame.rows (column.cells db) cells uniform
      rw [← (whole (by decide)).1] at columns warnings
      refine ⟨frame, ?_, columns, warnings⟩
      rw [read, created]
      simp only [DbResult.fetch, fetched]

/-- A vector that is written to a column of its own data type is read back with the same
elements, missing where they were missing, and without a warning. `Rf_length()` refuses a long
vector, so that it has fewer than 2^31 elements and is read with the counters of the driver, too
(`fetch_short`). -/
theorem read_write {χ : Type} (enc2utf8 : χ → Bytes) (data : FrameColumn χ) (v : RVector)
    (bindable : data.value.bindable enc2utf8 = v) (storable : v.Storable)
    (keeps : KeepsMatching store) (stores : column.Stores store)
    (declared : data.dataType false = .ok column.declType) (db : DB)
    (empty : column.cells db = []) (totalChanges totalChanges' : Int32) :
    ∃ db', column.write v db totalChanges = .ok db' ∧
      ∀ fuel, v.length < fuel → ∃ frame, column.read cv fuel db' totalChanges' = .ok frame ∧
        frame.columns = [v.readBack] ∧
        v.readBack.slots.map (Slot.isNA v.readBack.rclass) = v.isNA ∧ frame.warnings = [] := by
  subst bindable
  obtain ⟨D, cells, storedAs⟩ :=
    bindable_storedAs cv keeps enc2utf8 data column.declType storable declared
  obtain ⟨db', written, content⟩ := write_stores stores _ cells storedAs.rows db totalChanges
  rw [empty, List.nil_append, storedAs.stored] at content
  have length : cells.length = (data.value.bindable enc2utf8).length := by
    have count := congrArg List.length storedAs.rows
    simp only [paramRows, List.length_map, List.length_range'] at count
    exact count.symm
  refine ⟨db', written, fun fuel enough => ?_⟩
  obtain ⟨frame, read, columns, warnings⟩ := read_uniform cv stores db' totalChanges'
    storedAs.declared (by rw [content]; exact storedAs.uniform) storedAs.unwarned fuel
    (by rwa [content, length])
  rw [content, storedAs.readBack] at columns
  exact ⟨frame, read, columns, RVector.readBack_isNA _ storable, warnings⟩

/-- A table of one column, as the list of its cells. -/
def ofCells (declType : String) (store : Affinity → SqlValue → SqlValue) :
    TableColumn (List SqlValue) where
  declType := declType
  insert :=
    { columnNames := []
      declTypes := []
      parameterNames := [none]
      exec := fun db values =>
        { rows := []
          database := db ++ [store (sqlite3AffinityType (word declType)) (values.headD .null)]
          own := 1 } }
  select :=
    { columnNames := ["x"]
      declTypes := [some (word declType)]
      parameterNames := []
      exec := fun db _ => { rows := db.map (fun cell => [cell]), database := db } }
  cells := id

theorem ofCells_stores (declType : String) (store : Affinity → SqlValue → SqlValue) :
    (ofCells declType store).Stores store where
  placeholder := rfl
  quiet _ _ := rfl
  inserted _ _ := rfl
  stored _ _ := rfl
  noPlaceholder := rfl
  width := rfl
  declared := rfl
  shown _ := rfl
  selected _ := rfl

theorem keepsMatching_id : KeepsMatching (fun _ cell => cell) where
  null _ := rfl
  integer _ := rfl
  real _ := rfl
  text _ := rfl
  blob _ := rfl

/-- Two missing doubles of which one is a NaN, with 1.5 between them. -/
theorem read_write_doubles : ∃ db frame,
    (ofCells "REAL" (fun _ cell => cell)).write
        (.dbl [⟨0x7FF8000000000000⟩, ⟨0x3FF8000000000000⟩, naReal]) [] 0 = .ok db ∧
      (ofCells "REAL" (fun _ cell => cell)).read noConversions 4 db 0 = .ok frame ∧
      frame.columns =
        [{ type := .realsxp, slots := [.word naReal.bits, .word 0x3FF8000000000000,
          .word naReal.bits] }] ∧ frame.warnings = [] := by
  obtain ⟨db, written, back⟩ := read_write noConversions (fun bytes : Bytes => bytes)
    ⟨"x", .vector (.dbl [⟨0x7FF8000000000000⟩, ⟨0x3FF8000000000000⟩, naReal]), []⟩ _ rfl trivial
    keepsMatching_id (ofCells_stores "REAL" _) rfl [] rfl 0 0
  obtain ⟨frame, read, columns, _, warnings⟩ := back 4 (by decide)
  exact ⟨db, frame, written, read, columns, warnings⟩

end TableColumn

end RSQLite
