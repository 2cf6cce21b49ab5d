import RSQLite.Column.Warnings
import RSQLite.Library.Traverse
import RSQLite.Sqlite.Statement

/-!
The data frame that one fetch fills: one column per result column, each reading
its cell of the statement's current row. `reads` records the rows read, `none`
where the accessors had no row to read; no function of the driver looks at it.
`warnings` are those raised while reading, row by row and column by column.
-/
namespace RSQLite

structure DbDataFrame (I : Type) where
  nMax : Int
  i : I
  names : List String
  data : List (DbColumn I)
  reads : List (Option Row)
  warnings : List String

/-- The list that a fetch returns, with its attributes and the warnings raised. -/
structure DataFrame where
  names : List String
  columns : List Sexp
  rowNames : Nat
  warnings : List String
  reads : List (Option Row)

/-- The rows of the data frame. A peek reads a row that it does not deliver. -/
def DataFrame.rows (df : DataFrame) : List (Option Row) := df.reads.take df.rowNames

namespace DbDataFrame

variable {DB I : Type} [Counter I] (cv : Conversions)

def create (names : List String) (nMax : Int) (types : List DataType)
    (source : Nat → SqliteColumnDataSource) : DbDataFrame I where
  nMax := nMax
  i := Counter.zero
  names := names
  data := types.mapIdx (fun j dt => DbColumn.create dt nMax (source j))
  reads := []
  warnings := []

/-- What the columns have raised between two rows. -/
def raised (before after : List (DbColumn I)) : List String :=
  (before.zip after).flatMap (fun c => c.2.warnings.drop c.1.warnings.length)

def setColValues (df : DbDataFrame I) (h : Handles DB) : Outcome (DbDataFrame I) := do
  let data ← df.data.zipIdx.mapM
    (fun column => column.1.setColValue cv DbColumnStorage.appendFuel (h.columnValue column.2))
  .ok { df with
    data := data
    reads := df.reads ++ [h.current]
    warnings := df.warnings ++ raised df.data data }

/-- Whether there is room for a further row, and the frame with this one counted. -/
def advance (df : DbDataFrame I) : Outcome (Bool × DbDataFrame I) := do
  let i ← Counter.next df.i
  .ok (df.nMax < 0 || (Counter.toNat i : Int) < df.nMax, { df with i := i })

/-- The types are passed on to the next fetch. -/
def getData (df : DbDataFrame I) : Outcome (DataFrame × List DataType) := do
  let data := df.data.map (fun column => column.finalize df.i)
  let columns ← data.mapM DbColumn.toSexp
  .ok (⟨df.names, columns, Counter.toNat df.i, df.warnings ++
    (data.zip df.names).filterMap (fun named => named.1.warnTypeConflicts named.2), df.reads⟩,
    data.map DbColumn.getType)

end DbDataFrame

/-- Cell `j` of a row, as the accessors read it. -/
def cellOf (j : Nat) (row : Option Row) : SqlValue := (row.getD []).getD j .null

theorem columnValue_eq {DB : Type} (h : Handles DB) (j : Nat) :
    h.columnValue j = cellOf j h.current := rfl

open Counter

variable {I : Type} [Counter I] (cv : Conversions) (source : Nat → SqliteColumnDataSource)

/-- The warnings of reading `row` after the rows `before`. -/
def rowWarnings (types : List DataType) (before : List (Option Row)) (row : Option Row) :
    List String :=
  (types.mapIdx (fun j T => cellWarnings cv
    (finalType (source j) (initialType T) ((before ++ [row]).map (cellOf j)))
    (cellOf j row))).flatten

def readWarnings (types : List DataType) : List (Option Row) → List (Option Row) → List String
  | _, [] => []
  | before, row :: rest =>
      rowWarnings cv source types before row ++ readWarnings types (before ++ [row]) rest

theorem readWarnings_append (types : List DataType) (rows : List (Option Row))
    (row : Option Row) :
    ∀ before, readWarnings cv source types before (rows ++ [row]) =
      readWarnings cv source types before rows ++
        rowWarnings cv source types (before ++ rows) row := by
  induction rows with
  | nil =>
      intro before
      simp only [List.nil_append, readWarnings, List.append_nil]
  | cons first rest ih =>
      intro before
      simp only [List.cons_append, readWarnings, ih, List.append_assoc, List.nil_append]

/-- The frame started with `types` and has read `rows`. -/
structure Framed (types : List DataType) (df : DbDataFrame I) (rows : List (Option Row)) :
    Prop where
  width : df.data.length = types.length
  reads : df.reads = rows
  warnings : df.warnings = readWarnings cv source types [] rows
  tracks : ∀ (j : Nat) (c : DbColumn I) (T : DataType), df.data[j]? = some c →
    types[j]? = some T → ∃ earlier current,
      Tracks cv (source j) (initialType T) c earlier current (rows.map (cellOf j))

theorem framed_create (names : List String) (nMax : Int) (types : List DataType) :
    Framed cv source types (DbDataFrame.create names nMax types source : DbDataFrame I) [] where
  width := List.length_mapIdx
  reads := rfl
  warnings := rfl
  tracks j c T hc hT := by
    simp only [DbDataFrame.create, List.getElem?_mapIdx, hT, Option.map_some,
      Option.some.injEq] at hc
    subst hc
    exact ⟨[], [], tracks_create cv (source j) T nMax⟩

theorem getElem?_of_length {α β : Type} (xs : List α) (ys : List β) (h : xs.length = ys.length)
    (j : Nat) (x : α) (hx : xs[j]? = some x) : ∃ y, ys[j]? = some y := by
  have inside := (List.getElem?_eq_some_iff.mp hx).1
  exact ⟨ys[j], List.getElem?_eq_getElem (by omega)⟩

omit [Counter I] in
/-- What the columns raise for a row is what the row's cells raise under the types that
the columns have by then. -/
theorem raised_framed (types : List DataType) (rows : List (Option Row)) (row : Option Row)
    (data data' : List (DbColumn I)) (width : data.length = types.length)
    (width' : data'.length = types.length)
    (read : ∀ (j : Nat) (c c' : DbColumn I) (T : DataType), data[j]? = some c →
      data'[j]? = some c' → types[j]? = some T → c'.warnings = c.warnings ++
        cellWarnings cv (finalType (source j) (initialType T) ((rows ++ [row]).map (cellOf j)))
          (cellOf j row)) :
    DbDataFrame.raised data data' = rowWarnings cv source types rows row := by
  rw [DbDataFrame.raised, List.flatMap_def, rowWarnings]
  congr 1
  apply List.ext_getElem
  · simp only [List.length_map, List.length_zip, List.length_mapIdx, width, width', min_self]
  · intro j inside inside'
    rw [List.length_mapIdx] at inside'
    have column : j < data.length := width ▸ inside'
    have column' : j < data'.length := width' ▸ inside'
    have warned := read j data[j] data'[j] types[j] (List.getElem?_eq_getElem column)
      (List.getElem?_eq_getElem column') (List.getElem?_eq_getElem inside')
    simp only [List.getElem_map, List.getElem_zip, List.getElem_mapIdx, warned, List.drop_left]

/-- Reading a row that can be counted never fails and extends the frame by it. -/
theorem setColValues_framed {DB : Type} (types : List DataType) (df : DbDataFrame I)
    (rows : List (Option Row)) (h : Handles DB) (framed : Framed cv source types df rows)
    (far : Reaches I (rows.length + 1)) :
    ∃ df', df.setColValues cv h = .ok df' ∧ Framed cv source types df' (rows ++ [h.current]) ∧
      df'.i = df.i ∧ df'.nMax = df.nMax ∧ df'.names = df.names := by
  have step : ∀ (j : Nat) (c : DbColumn I), df.data[j]? = some c →
      ∃ c', c.setColValue cv DbColumnStorage.appendFuel (h.columnValue j) = .ok c' ∧
        ∀ T, types[j]? = some T → ∃ earlier current,
          Tracks cv (source j) (initialType T) c' earlier current
            ((rows ++ [h.current]).map (cellOf j)) := by
    intro j c hc
    obtain ⟨T, hT⟩ := getElem?_of_length df.data types framed.width j c hc
    obtain ⟨earlier, current, tracks⟩ := framed.tracks j c T hc hT
    obtain ⟨c', earlier', current', run, tracks'⟩ := setColValue_tracks cv (source j) 0
      (initialType T) c earlier current _ (h.columnValue j) tracks (by rwa [List.length_map])
    refine ⟨c', run, ?_⟩
    intro T' hT'
    obtain rfl : T = T' := Option.some.inj (hT.symm.trans hT')
    rw [List.map_append, List.map_singleton, ← columnValue_eq]
    exact ⟨earlier', current', tracks'⟩
  obtain ⟨data, all⟩ := Traverse.mapM_total
    (fun column : DbColumn I × Nat =>
      column.1.setColValue cv DbColumnStorage.appendFuel (h.columnValue column.2))
    df.data.zipIdx
    (fun column hcolumn => by
      obtain ⟨c', run, _⟩ := step column.2 column.1 (List.mem_zipIdx_iff_getElem?.mp hcolumn)
      exact ⟨c', run⟩)
  have length := Traverse.mapM_length _ _ _ all
  rw [List.length_zipIdx] at length
  have column : ∀ (j : Nat) (c' : DbColumn I), data[j]? = some c' → ∃ c, df.data[j]? = some c ∧
      c.setColValue cv DbColumnStorage.appendFuel (h.columnValue j) = .ok c' ∧
        ∀ T, types[j]? = some T → ∃ earlier current,
          Tracks cv (source j) (initialType T) c' earlier current
            ((rows ++ [h.current]).map (cellOf j)) := by
    intro j c' hc'
    obtain ⟨⟨c, k⟩, hcolumn, run⟩ := Traverse.mapM_getElem? _ _ _ all j c' hc'
    rw [List.getElem?_zipIdx, Option.map_eq_some_iff] at hcolumn
    obtain ⟨c₀, hc, same⟩ := hcolumn
    obtain ⟨rfl, rfl⟩ := Prod.mk.inj same
    obtain ⟨c'', run', tracks⟩ := step j c₀ hc
    rw [Nat.zero_add] at run
    obtain rfl := Except.ok.inj (run'.symm.trans run)
    exact ⟨c₀, hc, run', tracks⟩
  refine ⟨{ df with
    data := data
    reads := df.reads ++ [h.current]
    warnings := df.warnings ++ DbDataFrame.raised df.data data }, ?_, ⟨?_, ?_, ?_, ?_⟩, rfl, rfl,
    rfl⟩
  · simp only [DbDataFrame.setColValues, all, bind, Except.bind]
  · exact length.trans framed.width
  · simp only [framed.reads]
  · rw [readWarnings_append, List.nil_append, framed.warnings,
      raised_framed cv source types rows h.current df.data data framed.width
        (length.trans framed.width)]
    intro j c c' T hc hc' hT
    obtain ⟨c₀, hc₀, run, tracks⟩ := column j c' hc'
    obtain rfl : c₀ = c := Option.some.inj (hc₀.symm.trans hc)
    obtain ⟨earlier, current, tracks⟩ := tracks T hT
    rw [setColValue_warnings cv _ c₀ c' _ run, tracks.dt, columnValue_eq]
  · intro j c' T hc' hT
    obtain ⟨_, _, _, tracks⟩ := column j c' hc'
    exact tracks T hT

/-- The types that a frame passes on, and the columns that it returns, for the rows
it has read. -/
def frameTypes (types : List DataType) (rows : List (Option Row)) : List DataType :=
  types.mapIdx (fun j T => vectorType (source j) (initialType T) (rows.map (cellOf j)))

def frameColumns (types : List DataType) (rows : List (Option Row)) : List Sexp :=
  types.mapIdx (fun j T => fetchedVector cv (source j) (initialType T) (rows.map (cellOf j)))

theorem framed_getType (types : List DataType) (df : DbDataFrame I) (rows : List (Option Row))
    (framed : Framed cv source types df rows) :
    df.data.map DbColumn.getType = frameTypes source types rows := by
  apply List.ext_getElem?
  intro j
  rw [List.getElem?_map, frameTypes, List.getElem?_mapIdx]
  cases hc : df.data[j]? with
  | none =>
      have short : types[j]? = none := by
        rw [List.getElem?_eq_none_iff, ← framed.width]
        exact List.getElem?_eq_none_iff.mp hc
      rw [short, Option.map_none, Option.map_none]
  | some c =>
      obtain ⟨T, hT⟩ := getElem?_of_length df.data types framed.width j c hc
      obtain ⟨earlier, current, tracks⟩ := framed.tracks j c T hc hT
      rw [hT, Option.map_some, Option.map_some,
        getType_of_tracks cv (source j) _ c earlier current _ tracks]

/-- The vectors of a frame, given the vector of each column. -/
theorem framed_toSexp (types : List DataType) (df : DbDataFrame I) (rows : List (Option Row))
    (framed : Framed cv source types df rows) (n : I) (vector : Nat → DataType → Sexp)
    (convert : ∀ (j : Nat) (T : DataType) (c : DbColumn I) earlier current,
      Tracks cv (source j) (initialType T) c earlier current (rows.map (cellOf j)) →
      (c.finalize n).toSexp = .ok (vector j T)) :
    (df.data.map (fun column => column.finalize n)).mapM DbColumn.toSexp =
      .ok (types.mapIdx vector) := by
  have each : ∀ (j : Nat) (c : DbColumn I), df.data[j]? = some c →
      ∃ T, types[j]? = some T ∧ (c.finalize n).toSexp = .ok (vector j T) := by
    intro j c hc
    obtain ⟨T, hT⟩ := getElem?_of_length df.data types framed.width j c hc
    obtain ⟨earlier, current, tracks⟩ := framed.tracks j c T hc hT
    exact ⟨T, hT, convert j T c earlier current tracks⟩
  obtain ⟨columns, all⟩ := Traverse.mapM_total DbColumn.toSexp
    (df.data.map (fun column => column.finalize n))
    (fun column hcolumn => by
      obtain ⟨c, hmem, rfl⟩ := List.mem_map.mp hcolumn
      obtain ⟨j, hj⟩ := List.getElem?_of_mem hmem
      obtain ⟨T, _, run⟩ := each j c hj
      exact ⟨_, run⟩)
  have length := Traverse.mapM_length _ _ _ all
  rw [List.length_map, framed.width] at length
  rw [all]
  congr 1
  apply List.ext_getElem?
  intro j
  rw [List.getElem?_mapIdx]
  cases hy : columns[j]? with
  | none =>
      have short : types[j]? = none := by
        rw [List.getElem?_eq_none_iff, ← length]
        exact List.getElem?_eq_none_iff.mp hy
      rw [short, Option.map_none]
  | some y =>
      obtain ⟨column, hcolumn, run⟩ := Traverse.mapM_getElem? _ _ _ all j y hy
      rw [List.getElem?_map, Option.map_eq_some_iff] at hcolumn
      obtain ⟨c, hc, rfl⟩ := hcolumn
      obtain ⟨T, hT, run'⟩ := each j c hc
      rw [hT, Option.map_some, Except.ok.inj (run.symm.trans run')]

/-- The warnings of the type conflicts, column by column. -/
def conflictWarnings (types : List DataType) (names : List String) (rows : List (Option Row)) :
    List String :=
  ((types.mapIdx (fun j T => readColumn (source j) (initialType T) (rows.map (cellOf j)))).zip
    names).filterMap (fun named => named.1.warnTypeConflicts named.2)

theorem filterMap_zip_congr {α β γ δ : Type} (f : α → γ → Option δ) (g : β → γ → Option δ)
    (xs : List α) (ys : List β) (zs : List γ)
    (h : List.Forall₂ (fun x y => ∀ z, f x z = g y z) xs ys) :
    (xs.zip zs).filterMap (fun p => f p.1 p.2) = (ys.zip zs).filterMap (fun p => g p.1 p.2) := by
  induction h generalizing zs with
  | nil => rfl
  | cons first others ih =>
      cases zs with
      | nil => rfl
      | cons z zs =>
          simp only [List.zip_cons_cons, List.filterMap_cons, first, ih]

theorem framed_conflicts (types : List DataType) (df : DbDataFrame I) (rows : List (Option Row))
    (framed : Framed cv source types df rows) (n : I) :
    ((df.data.map (fun column => column.finalize n)).zip df.names).filterMap
        (fun named => named.1.warnTypeConflicts named.2) =
      conflictWarnings source types df.names rows := by
  refine filterMap_zip_congr DbColumn.warnTypeConflicts DbColumn.warnTypeConflicts _ _ _ ?_
  refine List.forall₂_iff_get.mpr ⟨by simp [framed.width], ?_⟩
  intro j inside inside' name
  rw [List.length_map] at inside
  have typed : j < types.length := framed.width ▸ inside
  obtain ⟨earlier, current, tracks⟩ := framed.tracks j df.data[j] types[j]
    (List.getElem?_eq_getElem inside) (List.getElem?_eq_getElem typed)
  simp only [List.get_eq_getElem, List.getElem_map, List.getElem_mapIdx]
  exact warnTypeConflicts_of_tracks cv (source j) _ _ earlier current _ tracks n name

/-- All warnings of a frame that has read the rows. -/
def frameWarnings (types : List DataType) (names : List String) (rows : List (Option Row)) :
    List String :=
  readWarnings cv source types [] rows ++ conflictWarnings source types names rows

theorem getData_framed (types : List DataType) (df : DbDataFrame I) (rows : List (Option Row))
    (framed : Framed cv source types df rows) (counted : toNat df.i = rows.length) :
    df.getData = .ok (⟨df.names, frameColumns cv source types rows, rows.length,
      frameWarnings cv source types df.names rows, rows⟩, frameTypes source types rows) := by
  have columns := framed_toSexp cv source types df rows framed df.i
    (fun j T => fetchedVector cv (source j) (initialType T) (rows.map (cellOf j)))
    (fun j T c earlier current tracks => by
      exact toSexp_of_tracks cv (source j) _ c earlier current _ tracks df.i
        (by rw [List.length_map, counted]))
  simp only [DbDataFrame.getData, columns, bind, Except.bind]
  rw [framed_conflicts cv source types df rows framed, List.map_map,
    ← framed_getType cv source types df rows framed, framed.reads, framed.warnings, counted]
  rfl

theorem copyTo_empty (s : DbColumnStorage I) (x : Sexp) (dt : DataType) (pos : I)
    (empty : x.slots = []) : s.copyTo x dt pos = .ok (x, zero) := by
  have full : ∀ k, ¬ k < x.length := by simp [Sexp.length, empty]
  have values : DbColumnStorage.copyValues s dt (toNat s.i) x zero pos = .ok (x, zero, pos) := by
    cases toNat s.i with
    | zero => rfl
    | succ rounds => rw [DbColumnStorage.copyValues, if_neg (fun go => full _ go.2.2)]
  have defaults : DbColumnStorage.fillDefaults s dt (toNat s.i) x zero pos = .ok (x, zero) := by
    cases toNat s.i with
    | zero => rfl
    | succ rounds => rw [DbColumnStorage.fillDefaults, if_neg (fun go => full _ go.2)]
  simp only [DbColumnStorage.copyTo, values, defaults, bind, Except.bind]

theorem copyChunks_empty (dt : DataType) (chunks : List (DbColumnStorage I)) (x : Sexp)
    (empty : x.slots = []) : DbColumn.copyChunks dt chunks x (zero : I) = .ok x := by
  have nothing : add (zero : I) zero = .ok zero := by
    rw [add, toNat_zero, Nat.add_zero, ← toNat_zero (I := I)]
    exact ofNat_toNat zero
  induction chunks with
  | nil => rfl
  | cons current rest ih =>
      simp only [DbColumn.copyChunks, copyTo_empty current x dt zero empty, nothing, bind,
        Except.bind, ih]

theorem allocate_zero_slots (dt : DataType) : (DbColumnStorage.allocate 0 dt).slots = [] := by
  simp [DbColumnStorage.allocate, Sexp.allocVector]

/-- A frame that counted no row returns columns without elements. -/
theorem getData_peeked (types : List DataType) (df : DbDataFrame I) (rows : List (Option Row))
    (framed : Framed cv source types df rows) (counted : toNat df.i = 0) :
    df.getData = .ok (⟨df.names,
      (frameTypes source types rows).map (DbColumnStorage.allocate 0), 0,
      frameWarnings cv source types df.names rows, rows⟩, frameTypes source types rows) := by
  have columns := framed_toSexp cv source types df rows framed df.i
    (fun j T => DbColumnStorage.allocate 0
      (vectorType (source j) (initialType T) (rows.map (cellOf j))))
    (fun j T c earlier current tracks => by
      have type := getType_of_tracks cv (source j) _ c earlier current _ tracks
      change DbColumn.copyChunks c.getType c.storage
        (DbColumnStorage.allocate (toNat df.i) c.getType) zero = _
      rw [counted, type]
      exact copyChunks_empty _ _ _ (allocate_zero_slots _))
  have blank : (frameTypes source types rows).map (DbColumnStorage.allocate 0) =
      types.mapIdx (fun j T => DbColumnStorage.allocate 0
        (vectorType (source j) (initialType T) (rows.map (cellOf j)))) := by
    apply List.ext_getElem?
    intro j
    simp only [frameTypes, List.getElem?_map, List.getElem?_mapIdx, Option.map_map]
    rfl
  simp only [DbDataFrame.getData, columns, bind, Except.bind]
  rw [framed_conflicts cv source types df rows framed, List.map_map, blank,
    ← framed_getType cv source types df rows framed, framed.reads, framed.warnings, counted]
  rfl

end RSQLite
