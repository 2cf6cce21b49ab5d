import RSQLite.Column.Extended
import RSQLite.Result.History
import RSQLite.Result.Look
import RSQLite.Result.Upward

/-!
Dates and times over the life of a result. Every fetch, after whatever requests, delivers a
column of a documented type as that type, and says so for each cell that it cannot map.
-/
namespace RSQLite

open SqliteResultImpl Simulation Measured

variable {DB : Type} {cv : Conversions}

section Warnings

variable {source : Nat → SqliteColumnDataSource} {types : List DataType} {j : Nat}
  {T S : DataType}

theorem rowWarnings_extended (extended : Extended (source j) T) (column : types[j]? = some S)
    (starts : StartsExtended T (initialType S)) (before : List (Option Row)) (row : Option Row) :
    List.Sublist (refusal cv T (cellOf j row)) (rowWarnings cv source types before row) := by
  refine List.sublist_flatten_of_mem (List.mem_iff_getElem?.mpr ⟨j, ?_⟩)
  rw [List.getElem?_mapIdx, column, Option.map_some]
  refine congrArg some (cellWarnings_extended extended.dated _ (cellOf j row) (fun value => ?_))
  rw [List.map_append, List.map_singleton, finalType_append, extended.nextType_eq _
    (extended.finalType_starts _ _ starts), value]
  rfl

/-- Every cell of the column that cannot be mapped is warned of, in the order of the rows. -/
theorem readWarnings_extended (extended : Extended (source j) T) (column : types[j]? = some S)
    (starts : StartsExtended T (initialType S)) (rows : List (Option Row)) :
    ∀ before, List.Sublist ((rows.map (cellOf j)).flatMap (refusal cv T))
      (readWarnings cv source types before rows) := by
  induction rows with
  | nil => exact fun _ => List.Sublist.refl []
  | cons row rest ih =>
      intro before
      exact (rowWarnings_extended extended column starts before row).append (ih (before ++ [row]))

end Warnings

/-- A column of a documented type has that type or none. -/
def TypedAs (j : Nat) (T : DataType) (s : SqliteResultImpl DB) : Prop :=
  ∀ S, s.types[j]? = some S → StartsExtended T S

/-- A result on a connection with extended types, with such a column. -/
structure Dated (program : Program DB) (j : Nat) (T : DataType) (s : SqliteResultImpl DB) :
    Prop where
  belongs : BelongsTo program (fun _ => True) true s
  typed : TypedAs j T s

section Requests

variable {program : Program DB} {j : Nat} {T : DataType}

theorem Dated.extended {s : SqliteResultImpl DB} (dated : Dated program j T s)
    (declared : Extended ⟨program.declTypes.getD j none, true⟩ T) :
    Extended (s.columnSource j) T := by
  rwa [columnSource, dated.belongs.program, dated.belongs.withAltTypes]

theorem startsExtended_initialType {S : DataType} (starts : StartsExtended T S) :
    StartsExtended T (initialType S) := by
  rw [initialType]
  split
  · exact Or.inl rfl
  · exact starts

theorem typedAs_frameTypes {s s' : SqliteResultImpl DB} (extended : Extended (s.columnSource j) T)
    (typed : TypedAs j T s) (rows : List (Option Row))
    (types : s'.types = frameTypes s.columnSource s.types rows) : TypedAs j T s' := by
  intro U hU
  rw [types, frameTypes, List.getElem?_mapIdx, Option.map_eq_some_iff] at hU
  obtain ⟨S, hS, rfl⟩ := hU
  exact Or.inr (extended.vectorType_eq _
    (startsExtended_initialType (typed S hS)) _)

theorem FetchReturns.typedAs {s : SqliteResultImpl DB}
    {r : EStateM.Result Fault (SqliteResultImpl DB) DataFrame} (returns : FetchReturns cv s r)
    (extended : Extended (s.columnSource j) T) (typed : TypedAs j T s) :
    TypedAs j T (endState r) := by
  cases returns with
  | rows rows s' types => exact typedAs_frameTypes extended typed rows types
  | peeked => exact typedAs_frameTypes extended typed s.shown rfl
  | raised f s' same =>
      intro S hS
      exact typed S (same ▸ hS)

theorem dated_answer (declared : Extended ⟨program.declTypes.getD j none, true⟩ T) (fuel : Nat)
    (request : Request) (s : SqliteResultImpl DB) (dated : Dated program j T s) :
    Dated program j T (answer cv fuel request s).2 := by
  have extended := dated.extended declared
  refine ⟨belongsTo_answer cv (fun _ _ _ => trivial) fuel request s dated.belongs, ?_⟩
  cases request with
  | fetch nMax => exact (fetch_returns cv fuel nMax s).typedAs extended dated.typed
  | bind params =>
      intro S hS
      rw [answer, types_of_commutes _ s (commutes_dbBind s.types params)] at hS
      exact dated.typed S hS
  | complete | nRowsFetched | nRowsAffected => exact dated.typed
  | columnInfo =>
      rw [answer, getColumnInfo, run_bind_ok _ _ _ _ _ (peekFirstRow_eq cv s)]
      exact typedAs_frameTypes extended dated.typed s.shown rfl

theorem types_created (h : Handles DB) (withAltTypes : Bool) (s : SqliteResultImpl DB)
    (created : create h withAltTypes = .ok () s) :
    s.types = List.replicate h.columnCount .unknown := by
  have started := types_of_commutes (afterBind true) (initialState h withAltTypes)
    (commutes_afterBind _ true)
  simp only [create] at created
  split at created
  · rw [created] at started
    exact started
  · cases created
    rfl

theorem dated_created (db : DB) (n : Int32) (s : SqliteResultImpl DB)
    (created : create (Handles.prepare program db n) true = .ok () s) : Dated program j T s := by
  refine ⟨belongsTo_created (fun _ _ _ => trivial) db trivial n s created, ?_⟩
  intro S hS
  rw [types_created _ true s created] at hS
  exact Or.inl (List.eq_of_mem_replicate (List.mem_of_getElem? hS))

end Requests

theorem frame_column {source : Nat → SqliteColumnDataSource} {types : List DataType}
    {rows : List (Option Row)} {j : Nat} {x : Sexp}
    (column : (frameColumns cv source types rows)[j]? = some x) :
    ∃ S, types[j]? = some S ∧
      x = fetchedVector cv (source j) (initialType S) (rows.map (cellOf j)) := by
  rw [frameColumns, List.getElem?_mapIdx, Option.map_eq_some_iff] at column
  obtain ⟨S, hS, rfl⟩ := column
  exact ⟨S, hS, rfl⟩

theorem peeked_column {s : SqliteResultImpl DB} {j : Nat} {T : DataType} {x : Sexp}
    (extended : Extended (s.columnSource j) T) (typed : TypedAs j T s)
    (column : (s.peekedFrame cv).columns[j]? = some x) :
    ∃ S, s.types[j]? = some S ∧ x = fetchedVector cv (s.columnSource j) (initialType S) [] := by
  rw [peekedFrame, peekedTypes, frameTypes, List.getElem?_map, List.getElem?_mapIdx,
    Option.map_map, Option.map_eq_some_iff] at column
  obtain ⟨S, hS, rfl⟩ := column
  have starts := startsExtended_initialType (typed S hS)
  refine ⟨S, hS, ?_⟩
  rw [Function.comp_apply, fetchedVector, extended.vectorType_eq _ starts,
    extended.vectorType_eq _ starts]
  exact (Sexp.withSlots_self _ _ (allocate_zero_slots T)).symm

/-- A connection with extended types delivers every column that is declared with a documented
type, in every fetch of the life of a result, as documented exactly when no number in a DATE
column is beyond 32 bits. -/
theorem extended_column_iff (genuine : cv.Genuine) (program : Program DB) (db : DB) (n : Int32)
    (s s' : SqliteResultImpl DB)
    (created : create (Handles.prepare program db n) true = .ok () s) (fuel : Nat)
    (history : List Request) (nMax : Int) (frame : DataFrame)
    (fetched : (DbResult.fetch cv fuel nMax).run (answers (answer cv fuel) history s).2 =
      .ok frame s')
    (j : Nat) (decl : Bytes) (T : DataType) (declared : program.declTypes.getD j none = some decl)
    (documented : documentedType decl = some T) (x : Sexp)
    (column : frame.columns[j]? = some x) :
    DeliversDates cv T (frame.rows.map (cellOf j)) x frame.warnings ↔
      (T = .date → ∀ cell ∈ frame.rows.map (cellOf j), cell.isNumeric = true →
        cell.FitsInt32) := by
  have source : Extended ⟨program.declTypes.getD j none, true⟩ T :=
    extended_of_documented _ decl T rfl declared documented
  have dated : Dated program j T (answers (answer cv fuel) history s).2 :=
    invariant_answers (answer cv fuel) (Dated program j T) (dated_answer source fuel) history s
      (dated_created db n s created)
  generalize (answers (answer cv fuel) history s).2 = t at fetched dated
  have extended := dated.extended source
  have returns := fetch_returns cv fuel nMax t
  rw [fetched] at returns
  cases returns with
  | rows rows _ types =>
      obtain ⟨S, hS, rfl⟩ := frame_column column
      have starts := startsExtended_initialType (dated.typed S hS)
      have all : (t.fetchedFrame cv rows).rows = rows := List.take_length
      rw [all]
      refine deliversDates_iff genuine extended _ starts _ _ ?_
      have warned : List.Sublist _ (readWarnings cv t.columnSource t.types [] rows) :=
        readWarnings_extended extended hS starts rows []
      exact warned.trans ((List.sublist_append_left _ _).trans (List.sublist_append_right _ _))
  | peeked =>
      obtain ⟨S, hS, rfl⟩ := peeked_column extended dated.typed column
      have starts := startsExtended_initialType (dated.typed S hS)
      exact deliversDates_iff genuine extended _ starts [] _ (List.nil_sublist _)

/-- SQLite's own conversion of numbers, for columns without text. -/
def sqliteConversions : Conversions := { noConversions with realToInt64 := sqlite3RealToI64 }

theorem genuine_sqliteConversions : sqliteConversions.Genuine where
  date _ _ parsed := by cases parsed
  time _ _ parsed := by cases parsed
  datetime _ _ parsed := by cases parsed
  real := rfl

/-- What is fetched from a NULL and a number in a column that is declared with this type. -/
theorem fetch_declared (cv : Conversions) (decl : Bytes) (cell : SqlValue) :
    ∃ s s', create (Handles.prepare (declaredProgram (some decl) cell) () 0) true = .ok () s ∧
      (DbResult.fetch cv 3 (-1)).run s =
        .ok (s.fetchedFrame cv [some [.null], some [cell]]) s' ∧
      (s.fetchedFrame cv [some [.null], some [cell]]).columns =
        [fetchedVector cv ⟨some decl, true⟩ .unknown [.null, cell]] := by
  refine ⟨_, ?left, rfl, ?fetched, rfl⟩
  case fetched =>
    rw [fetch_advance cv 3 _ rfl rfl (-1) (by decide) (by exact Nat.lt_succ_self 2)]
    rfl

/-- A NULL and the day 18262 in a column declared `Date`. -/
theorem extended_column_iff_date :
    ∃ s s' frame x, create (Handles.prepare (declaredProgram (some (word "Date"))
        (.integer 18262)) () 0) true = .ok () s ∧
      (DbResult.fetch sqliteConversions 3 (-1)).run s = .ok frame s' ∧
      frame.columns = [x] ∧
      DeliversDates sqliteConversions .date [.null, .integer 18262] x frame.warnings := by
  obtain ⟨s, s', created, fetched, columns⟩ :=
    fetch_declared sqliteConversions (word "Date") (.integer 18262)
  refine ⟨s, s', _, _, created, fetched, columns, ?_⟩
  refine (extended_column_iff genuine_sqliteConversions _ () 0 s s' created 3 [] (-1) _ fetched 0
    (word "Date") .date rfl (by decide) _ (by rw [columns]; rfl)).mpr ?_
  intro _ cell member numeric
  have read : cell ∈ [SqlValue.null, .integer 18262] := member
  rw [List.mem_cons, List.mem_singleton] at read
  obtain rfl | rfl := read
  · cases numeric
  · exact ⟨18262, rfl, by decide, by decide⟩

/-- The day 2147483648 comes back as the day -2147483648. -/
theorem date_wrapped :
    ∃ s s' frame x, create (Handles.prepare (declaredProgram (some (word "DATE"))
        (.integer 2147483648)) () 0) true = .ok () s ∧
      (DbResult.fetch sqliteConversions 3 (-1)).run s = .ok frame s' ∧
      frame.columns = [x] ∧
      x.slots = [.word naReal.bits, .word (Binary64.ofInt (-2147483648)).bits] ∧
      ¬ DeliversDates sqliteConversions .date [.null, .integer 2147483648] x frame.warnings := by
  obtain ⟨s, s', created, fetched, columns⟩ :=
    fetch_declared sqliteConversions (word "DATE") (.integer 2147483648)
  have extended : Extended ⟨some (word "DATE"), true⟩ .date :=
    extended_of_documented _ _ _ rfl rfl (by decide)
  refine ⟨s, s', _, _, created, fetched, columns, ?_, fun delivers => ?_⟩
  · exact fetchedSlots_extended extended .unknown (Or.inl rfl) _
  · obtain ⟨d, part, _, upper⟩ := (deliversDates_iff genuine_sqliteConversions extended .unknown
      (Or.inl rfl) _ _ delivers.warned).mp delivers rfl (.integer 2147483648)
      (List.mem_cons_of_mem _ List.mem_cons_self) rfl
    obtain rfl : 2147483648 = d := Option.some.inj part
    exact absurd upper (by decide)

end RSQLite
