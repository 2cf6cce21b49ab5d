import RSQLite.Result.Ahead

/-!
The column types over the life of a result. A fetch takes them over from the one before and
passes them on; every cell that it reads moves the type of its column up, and nothing else
touches the types.
-/
namespace RSQLite

open SqliteResultImpl Measured Simulation Commuting

variable {DB : Type} (cv : Conversions)

/-- BOOL stands for a column without a declared type, so both it and UNKNOWN give way to any
type; an INT column may become wider. -/
def MovesUp (T U : DataType) : Prop := T = .bool ∨ Promotes T U

theorem movesUp_refl (T : DataType) : MovesUp T T := Or.inr (promotes_refl T)

theorem movesUp_trans {S T U : DataType} (h : MovesUp S T) (h' : MovesUp T U) : MovesUp S U := by
  obtain bool | promotes := h
  · exact Or.inl bool
  · obtain rfl | promotes' := h'
    · obtain unknown | same | ⟨_, wide | wide⟩ := promotes
      · exact Or.inr (Or.inl unknown)
      · exact Or.inl same
      · cases wide
      · cases wide
    · exact Or.inr (promotes_trans promotes promotes')

theorem movesUp_typed {T U : DataType} (h : MovesUp T U) (unknown : T ≠ .unknown)
    (bool : T ≠ .bool) : U = T ∨ T = .int ∧ (U = .int64 ∨ U = .real) := by
  obtain h | h | h | h := h
  · exact absurd h bool
  · exact absurd h unknown
  · exact Or.inl h.symm
  · exact Or.inr h

theorem movesUp_vectorType (source : SqliteColumnDataSource) (T : DataType)
    (cells : List SqlValue) : MovesUp T (vectorType source (initialType T) cells) := by
  by_cases bool : T = .bool
  · exact Or.inl bool
  · have promotes := finalType_promotes source T cells
    rw [initialType, if_neg bool, vectorType]
    split
    · next untyped =>
        rw [untyped] at promotes
        obtain h | h | ⟨_, h | h⟩ := promotes
        · exact Or.inr (Or.inl h)
        · exact Or.inr (Or.inl h)
        · cases h
        · cases h
    · exact Or.inr promotes

/-- No column disappears, and the type of none moves down. -/
def TypesMoveUp (s s' : SqliteResultImpl DB) : Prop :=
  s'.types.length = s.types.length ∧
    ∀ (j : Nat) (T U : DataType), s.types[j]? = some T → s'.types[j]? = some U → MovesUp T U

theorem typesMoveUp_of_eq {s s' : SqliteResultImpl DB} (same : s'.types = s.types) :
    TypesMoveUp s s' := by
  refine ⟨congrArg List.length same, ?_⟩
  intro j T U hT hU
  rw [same, hT] at hU
  obtain rfl := Option.some.inj hU
  exact movesUp_refl T

theorem typesMoveUp_trans (s t u : SqliteResultImpl DB) (h : TypesMoveUp s t)
    (h' : TypesMoveUp t u) : TypesMoveUp s u := by
  refine ⟨h'.1.trans h.1, ?_⟩
  intro j T V hT hV
  obtain ⟨U, hU⟩ := getElem?_of_length s.types t.types h.1.symm j T hT
  exact movesUp_trans (h.2 j T U hT hU) (h'.2 j U V hU hV)

theorem typesMoveUp_frameTypes (s s' : SqliteResultImpl DB)
    (source : Nat → SqliteColumnDataSource) (rows : List (Option Row))
    (types : s'.types = frameTypes source s.types rows) : TypesMoveUp s s' := by
  rw [TypesMoveUp, types]
  refine ⟨List.length_mapIdx, ?_⟩
  intro j T U hT hU
  rw [frameTypes, List.getElem?_mapIdx, hT, Option.map_some] at hU
  obtain rfl := Option.some.inj hU
  exact movesUp_vectorType (source j) T _

/-- The vector has the R type, the class and the time zone of the column type, `n` elements,
and each of them is one of that R type. -/
structure VectorOf (n : Nat) (x : Sexp) (T : DataType) : Prop where
  type : x.type = DbColumnStorage.sexptypeFromDatatype T
  rclass : x.rclass = DbColumnStorage.classFromDatatype T
  tzone : x.tzone = DbColumnStorage.tzoneFromDatatype T
  length : x.length = n
  slots : ∀ v ∈ x.slots, v.sexpType = x.type

theorem vectorOf_fetchedVector (source : SqliteColumnDataSource) (T : DataType)
    (cells : List SqlValue) :
    VectorOf cells.length (fetchedVector cv source T cells) (vectorType source T cells) where
  type := rfl
  rclass := rfl
  tzone := rfl
  length := fetchedVector_length cv source T cells
  slots v hv := by
    obtain ⟨read, hread, rfl⟩ := List.mem_map.mp hv
    exact elementOf_type cv _ read.1 read.2 (vectorType_ne_unknown source T cells)
      (promotes_vectorType source T cells read.1 read.2 hread)

theorem vectorOf_allocate (T : DataType) : VectorOf 0 (DbColumnStorage.allocate 0 T) T where
  type := rfl
  rclass := rfl
  tzone := rfl
  length := congrArg List.length (allocate_zero_slots T)
  slots v hv := by
    rw [allocate_zero_slots] at hv
    cases hv

theorem vectorsOf_frameColumns (source : Nat → SqliteColumnDataSource) (types : List DataType)
    (rows : List (Option Row)) :
    List.Forall₂ (VectorOf rows.length) (frameColumns cv source types rows)
      (frameTypes source types rows) := by
  refine List.forall₂_iff_get.mpr ⟨by simp only [frameColumns, frameTypes, List.length_mapIdx], ?_⟩
  intro j inside inside'
  have column : j < types.length := by
    rwa [frameTypes, List.length_mapIdx] at inside'
  have vector := vectorOf_fetchedVector cv (source j) (initialType types[j]) (rows.map (cellOf j))
  rw [List.length_map] at vector
  simpa only [frameColumns, frameTypes, List.get_eq_getElem, List.getElem_mapIdx] using vector

theorem vectorsOf_allocate (types : List DataType) :
    List.Forall₂ (VectorOf 0) (types.map (DbColumnStorage.allocate 0)) types := by
  rw [List.forall₂_map_left_iff]
  exact List.forall₂_same.mpr (fun T _ => vectorOf_allocate T)

theorem types_of_commutes {α : Type} (x : Method DB α) (s : SqliteResultImpl DB)
    (commutes : Commutes (withTypes s.types) x) : (endState (x.run s)).types = s.types := by
  have mapped := commutes s
  rw [show s.withTypes s.types = s from rfl] at mapped
  cases run : x.run s with
  | ok a s' =>
      rw [run, mapState] at mapped
      have kept := congrArg SqliteResultImpl.types (EStateM.Result.ok.inj mapped).2
      exact kept
  | error f s' =>
      rw [run, mapState] at mapped
      have kept := congrArg SqliteResultImpl.types (EStateM.Result.error.inj mapped).2
      exact kept

theorem commutes_afterBind (types : List DataType) (paramsHaveRows : Bool) :
    Commutes (withTypes types) (afterBind paramsHaveRows : Method DB Unit) := by
  refine commutes_bind _ _ (commutes_modify _ (fun _ => rfl)) (fun _ => ?_)
  cases paramsHaveRows with
  | true => exact commutes_step types
  | false => exact commutes_pure ()

theorem commutes_implBind (types : List DataType) (params : List RVector) :
    Commutes (withTypes types) (SqliteResultImpl.bind params : Method DB Unit) := by
  refine commutes_get _ (fun _ => rfl) (fun s => ?_)
  apply commutes_ite _ _ _ (commutes_throwFault types _)
  apply commutes_ite _ _ _ (commutes_throwFault types _)
  refine commutes_bind _ _ (commutes_modify _ (fun _ => rfl)) (fun _ => ?_)
  apply commutes_bind _ _ (commutes_bindRow types)
  exact fun hasParams => commutes_afterBind types hasParams

theorem commutes_dbBind (types : List DataType) (params : List RVector) :
    Commutes (withTypes types) (DbResult.bind params : Method DB Unit) := by
  apply commutes_bind _ _ (commutes_liftOutcome types _)
  exact fun _ => commutes_implBind types params

/-- How the loop of a fetch can end: it has counted all rows that its frame has read, or the
statement failed. -/
inductive Collected (source : Nat → SqliteColumnDataSource) (types : List DataType)
    (names : List String) (s : SqliteResultImpl DB) :
    EStateM.Result Fault (SqliteResultImpl DB) (DbDataFrame Nat) → Prop
  | ok (df : DbDataFrame Nat) (rows : List (Option Row)) (s' : SqliteResultImpl DB)
      (framed : Framed cv source types df rows) (counted : df.i = rows.length)
      (named : df.names = names) (same : s'.types = s.types) :
      Collected source types names s (.ok df s')
  | error (f : Fault) (s' : SqliteResultImpl DB) (same : s'.types = s.types) :
      Collected source types names s (.error f s')

theorem Collected.of_types {source : Nat → SqliteColumnDataSource} {types : List DataType}
    {names : List String} {s t : SqliteResultImpl DB}
    {r : EStateM.Result Fault (SqliteResultImpl DB) (DbDataFrame Nat)}
    (collected : Collected cv source types names s r) (same : s.types = t.types) :
    Collected cv source types names t r := by
  cases collected with
  | ok df rows s' framed counted named same' =>
      exact .ok df rows s' framed counted named (same'.trans same)
  | error f s' same' => exact .error f s' (same'.trans same)

theorem fetchLoop_collected (source : Nat → SqliteColumnDataSource) (types : List DataType)
    (fuel : Nat) : ∀ (s : SqliteResultImpl DB) (df : DbDataFrame Nat) (seen : List (Option Row)),
      Framed cv source types df seen → df.i = seen.length →
      Collected cv source types df.names s ((fetchLoop cv fuel df).run s) := by
  induction fuel with
  | zero => exact fun s _ _ _ _ => .error .unfinished s rfl
  | succ fuel ih =>
      intro s df seen framed counted
      cases complete : s.complete with
      | true =>
          rw [fetchLoop_complete cv fuel s df complete]
          exact .ok df seen s framed counted rfl rfl
      | false =>
          obtain ⟨read, df', set, advance, framed', i, _, names⟩ :=
            round_framed cv source types s df seen framed counted (reaches_nat _)
          have same := types_of_commutes step s (commutes_step s.types)
          cases ahead : step.run s with
          | error f s' =>
              rw [ahead] at same
              rw [fetchLoop_failed cv fuel s s' df read f complete set ahead]
              exact .error f s' same
          | ok _ s' =>
              rw [ahead] at same
              rw [fetchLoop_room cv fuel s s' df read df' complete set ahead advance]
              have counted' : df'.i = (seen ++ [s.handles.current]).length := by
                rw [List.length_append, List.length_singleton, ← counted]
                exact i
              by_cases more : HasRoom df'
              · rw [if_pos more]
                have collected := ih { s' with nrows := s'.nrows + 1 } df' _ framed' counted'
                rw [names] at collected
                exact collected.of_types cv same
              · rw [if_neg more]
                exact .ok _ _ _ framed' counted' names same

/-- How a fetch can end: with the frame of the rows that it has read, with the frame of a
peek, or without a change of the types. -/
inductive FetchReturns (s : SqliteResultImpl DB) :
    EStateM.Result Fault (SqliteResultImpl DB) DataFrame → Prop
  | rows (rows : List (Option Row)) (s' : SqliteResultImpl DB)
      (types : s'.types = frameTypes s.columnSource s.types rows) :
      FetchReturns s (.ok (s.fetchedFrame cv rows) s')
  | peeked : FetchReturns s (.ok (s.peekedFrame cv) s.peeked)
  | raised (f : Fault) (s' : SqliteResultImpl DB) (same : s'.types = s.types) :
      FetchReturns s (.error f s')

theorem fetch_returns (fuel : Nat) (nMax : Int) (s : SqliteResultImpl DB) :
    FetchReturns cv s ((DbResult.fetch cv fuel nMax).run s) := by
  cases ready : s.ready with
  | false =>
      rw [DbResult.fetch, fetch, EStateM.run_bind, EStateM.run_get]
      simp only [ready, Bool.false_eq_true, ite_false, run_throwFault]
      exact .raised _ s rfl
  | true =>
      by_cases asked : nMax = 0
      · rw [asked, fetch_none cv fuel s ready]
        exact .peeked
      · have framed : Framed cv s.columnSource s.types (s.newDataFrame nMax : DbDataFrame Nat) [] :=
          framed_create cv s.columnSource s.names nMax s.types
        have loop := fetchLoop_collected cv s.columnSource s.types fuel s
          (s.newDataFrame nMax : DbDataFrame Nat) [] framed rfl
        rw [DbResult.fetch, fetch, EStateM.run_bind, EStateM.run_get]
        simp only [ready, ite_true, ne_eq, asked, not_false_eq_true]
        rw [fetchRows, EStateM.run_bind, EStateM.run_get]
        generalize ran :
          (fetchLoop cv fuel (s.newDataFrame nMax : DbDataFrame Nat)).run s = result at loop
        cases loop with
        | error f s' same =>
            simp only [run_bind_error _ _ _ _ _ ran]
            exact .raised f s' same
        | ok df rows s' framed' counted named same =>
            have data := getData_framed cv s.columnSource s.types df rows framed' counted
            simp only [run_bind_ok _ _ _ _ _ ran,
              run_bind_ok _ _ _ _ _ (getData_run _ df _ _ data), EStateM.run_pure, named]
            exact .rows rows _ rfl

theorem FetchReturns.typesMoveUp {s : SqliteResultImpl DB}
    {r : EStateM.Result Fault (SqliteResultImpl DB) DataFrame} (returns : FetchReturns cv s r) :
    TypesMoveUp s (endState r) := by
  cases returns with
  | rows rows s' types => exact typesMoveUp_frameTypes s s' s.columnSource rows types
  | peeked => exact typesMoveUp_frameTypes s s.peeked s.columnSource s.shown rfl
  | raised f s' same => exact typesMoveUp_of_eq same

theorem FetchReturns.vectors {s s' : SqliteResultImpl DB} {frame : DataFrame}
    (returns : FetchReturns cv s (.ok frame s')) :
    List.Forall₂ (VectorOf frame.rowNames) frame.columns s'.types := by
  cases returns with
  | rows rows _ types =>
      rw [types]
      exact vectorsOf_frameColumns cv s.columnSource s.types rows
  | peeked => exact vectorsOf_allocate s.peekedTypes

theorem typesMoveUp_answer (fuel : Nat) (request : Request) (s : SqliteResultImpl DB) :
    TypesMoveUp s (answer cv fuel request s).2 := by
  cases request with
  | fetch nMax => exact (fetch_returns cv fuel nMax s).typesMoveUp
  | bind params =>
      exact typesMoveUp_of_eq (types_of_commutes _ s (commutes_dbBind s.types params))
  | complete | nRowsFetched | nRowsAffected => exact typesMoveUp_of_eq rfl
  | columnInfo =>
      rw [answer, getColumnInfo, run_bind_ok _ _ _ _ _ (peekFirstRow_eq cv s)]
      exact typesMoveUp_frameTypes s s.peeked s.columnSource s.shown rfl

/-- Over any run of binds, peeks and fetches the columns stay as many, a column type that is
settled stays but for one move from INT to INT64 or REAL, and every frame that is returned on
the way has one column of each type that the result has by then. -/
theorem types_only_move_up (fuel : Nat) (s : SqliteResultImpl DB) (history : List Request) :
    (answers (answer cv fuel) history s).2.types.length = s.types.length ∧
    (∀ (j : Nat) (T U : DataType), s.types[j]? = some T →
      (answers (answer cv fuel) history s).2.types[j]? = some U → T ≠ .unknown → T ≠ .bool →
      U = T ∨ T = .int ∧ (U = .int64 ∨ U = .real)) ∧
    ∀ (nMax : Int) (frame : DataFrame) (s' : SqliteResultImpl DB),
      (DbResult.fetch cv fuel nMax).run (answers (answer cv fuel) history s).2 = .ok frame s' →
      List.Forall₂ (VectorOf frame.rowNames) frame.columns s'.types := by
  obtain ⟨length, upward⟩ := related_answers (answer cv fuel) TypesMoveUp
    (fun _ => typesMoveUp_of_eq rfl) typesMoveUp_trans (typesMoveUp_answer cv fuel) history s
  refine ⟨length, ?_, ?_⟩
  · intro j T U hT hU unknown bool
    exact movesUp_typed (upward j T U hT hU) unknown bool
  · intro nMax frame s' run
    have returns := fetch_returns cv fuel nMax (answers (answer cv fuel) history s).2
    rw [run] at returns
    exact returns.vectors

end RSQLite
