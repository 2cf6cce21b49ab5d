import RSQLite.Column.Trace

/-!
The chain of chunks computes the trace. `Holds` is the invariant of one chunk
and the cells it took, `Tracks` the one of the column: the chunks' cells, tagged
with the chunks' types, are the trace of all cells so far. No capacity, chunk
boundary or NULL run enters either result.
-/
namespace RSQLite

open DbColumnStorage Counter

variable {I : Type} [Counter I] (cv : Conversions) (source : SqliteColumnDataSource)

structure Holds (s : DbColumnStorage I) (cells : List SqlValue) : Prop where
  count : toNat s.i = cells.length
  type : s.data.type = sexptypeFromDatatype s.dt
  room : s.dt ≠ .unknown → 0 < s.capacity
  untyped : s.dt = .unknown → s.capacity = 0
  written : ∀ k cell, cells[k]? = some cell → k < s.capacity →
    s.data.slots[k]? = some (slotOf cv s.dt cell)
  beyond : ∀ k cell, cells[k]? = some cell → s.capacity ≤ k → cell.isNull = true

theorem getElem?_snoc {α : Type} (xs : List α) (x y : α) (k : Nat)
    (h : (xs ++ [x])[k]? = some y) :
    (k < xs.length ∧ xs[k]? = some y) ∨ (k = xs.length ∧ y = x) := by
  obtain lt | ge := Nat.lt_or_ge k xs.length
  · exact Or.inl ⟨lt, by rwa [List.getElem?_append_left lt] at h⟩
  · have inside := (List.getElem?_eq_some_iff.mp h).1
    simp only [List.length_append, List.length_singleton] at inside
    obtain rfl : k = xs.length := by omega
    rw [List.getElem?_concat_length] at h
    exact Or.inr ⟨rfl, (Option.some.inj h).symm⟩

theorem sexptypeFromDatatype_eq_nilsxp (dt : DataType) :
    sexptypeFromDatatype dt = .nilsxp ↔ dt = .unknown := by
  cases dt <;> simp [sexptypeFromDatatype]

theorem allocate_length (length : Nat) (dt : DataType) (h : dt ≠ .unknown) :
    (allocate length dt).length = length :=
  Sexp.allocVector_length _ _ (fun nil => h ((sexptypeFromDatatype_eq_nilsxp dt).mp nil))

theorem getNewCapacity_pos (nMax desired : Int) : 0 < getNewCapacity nMax desired := by
  simp only [getNewCapacity]
  split <;> omega

theorem create_capacity_pos (dt : DataType) (desired nMax : Int) (h : dt ≠ .unknown) :
    0 < (create dt desired nMax : DbColumnStorage I).capacity := by
  rw [capacity, create, allocate_length _ _ h]
  exact getNewCapacity_pos nMax desired

theorem holds_create (dt : DataType) (desired nMax : Int) :
    Holds cv (create dt desired nMax : DbColumnStorage I) [] where
  count := toNat_zero
  type := rfl
  room h := create_capacity_pos dt desired nMax h
  untyped h := by
    obtain rfl : dt = .unknown := h
    rfl
  written _ _ h := by simp at h
  beyond _ _ h := by simp at h

theorem defaultSlot_type (dt : DataType) (h : dt ≠ .unknown) :
    (defaultSlot dt).sexpType = sexptypeFromDatatype dt := by
  cases dt <;> first | rfl | exact absurd rfl h

theorem fetchSlot_type (dt : DataType) (cell : SqlValue) (h : dt ≠ .unknown) :
    (fetchSlot cv dt cell).1.sexpType = sexptypeFromDatatype dt := by
  cases dt <;> first | rfl | exact absurd rfl h

theorem slotOf_type (dt : DataType) (cell : SqlValue) (h : dt ≠ .unknown) :
    (slotOf cv dt cell).sexpType = sexptypeFromDatatype dt := by
  simp only [slotOf]
  split
  · exact defaultSlot_type dt h
  · exact fetchSlot_type cv dt cell h

theorem holds_typed {s : DbColumnStorage I} {cells : List SqlValue} (h : Holds cv s cells)
    (free : toNat s.i < s.capacity) : s.dt ≠ .unknown := by
  intro untyped
  have := h.untyped untyped
  omega

/-- Writing the next slot extends what the chunk holds by one cell. -/
theorem holds_write (s : DbColumnStorage I) (cells : List SqlValue) (cell : SqlValue)
    (h : Holds cv s cells) (free : toNat s.i < s.capacity) (i : I)
    (counted : toNat i = toNat s.i + 1) :
    Holds cv { s with
      data := s.data.withSlots (s.data.slots.set (toNat s.i) (slotOf cv s.dt cell))
      i := i } (cells ++ [cell]) := by
  have size : (s.data.slots.set (toNat s.i) (slotOf cv s.dt cell)).length = s.capacity :=
    List.length_set
  refine ⟨?_, h.type, ?_, ?_, ?_, ?_⟩
  · simp only [counted, List.length_append, List.length_singleton, h.count]
  · intro typed
    simpa only [capacity, Sexp.length, Sexp.withSlots_slots, size] using h.room typed
  · intro untyped
    exact absurd untyped (holds_typed (s := s) cv h free)
  · intro k c hk hcap
    simp only [capacity, Sexp.length, Sexp.withSlots_slots, size] at hcap
    obtain ⟨lt, hold⟩ | ⟨rfl, rfl⟩ := getElem?_snoc cells cell c k hk
    · change (s.data.slots.set (toNat s.i) (slotOf cv s.dt cell))[k]? = some (slotOf cv s.dt c)
      rw [List.getElem?_set_ne (by rw [h.count]; omega)]
      exact h.written k c hold hcap
    · rw [← h.count]
      exact List.getElem?_set_self free
  · intro k c hk hcap
    simp only [capacity, Sexp.length, Sexp.withSlots_slots, size] at hcap
    have count := h.count
    simp only [capacity, Sexp.length] at free
    obtain ⟨lt, _⟩ | ⟨rfl, _⟩ := getElem?_snoc cells cell c k hk <;> omega

theorem holds_count (s : DbColumnStorage I) (cells : List SqlValue) (cell : SqlValue)
    (h : Holds cv s cells) (full : s.capacity ≤ toNat s.i) (null : cell.isNull = true) (i : I)
    (counted : toNat i = toNat s.i + 1) :
    Holds cv { s with i := i } (cells ++ [cell]) := by
  refine ⟨?_, h.type, h.room, h.untyped, ?_, ?_⟩
  · simp only [counted, List.length_append, List.length_singleton, h.count]
  · intro k c hk hcap
    have count := h.count
    obtain ⟨_, hold⟩ | ⟨rfl, _⟩ := getElem?_snoc cells cell c k hk
    · exact h.written k c hold hcap
    · simp only [capacity] at hcap full
      omega
  · intro k c hk hcap
    obtain ⟨_, hold⟩ | ⟨_, rfl⟩ := getElem?_snoc cells cell c k hk
    · exact h.beyond k c hold hcap
    · exact null

theorem Holds.next {s : DbColumnStorage I} {cells : List SqlValue} (h : Holds cv s cells)
    (far : Reaches I (cells.length + 1)) : ∃ i, next s.i = .ok i ∧ toNat i = toNat s.i + 1 :=
  next_ok (by rwa [h.count])

theorem appendNull_holds (s : DbColumnStorage I) (cells : List SqlValue) (cell : SqlValue)
    (h : Holds cv s cells) (far : Reaches I (cells.length + 1)) (null : cell.isNull = true) :
    ∃ s', appendNull s = .ok ⟨s', false, []⟩ ∧ Holds cv s' (cells ++ [cell]) ∧ s'.dt = s.dt := by
  obtain ⟨i, counted, one⟩ := h.next cv far
  by_cases free : toNat s.i < s.capacity
  · have typed := holds_typed cv h free
    have slot : slotOf cv s.dt cell = defaultSlot s.dt := by simp only [slotOf, null, ite_true]
    have filled : fillDefaultValue s.data s.dt (toNat s.i) =
        .ok (s.data.withSlots (s.data.slots.set (toNat s.i) (slotOf cv s.dt cell))) := by
      rw [fillDefaultValue, if_neg typed, slot]
      exact Sexp.set_eq_ok _ _ _ (by rw [defaultSlot_type _ typed, h.type]) free
    refine ⟨_, ?_, holds_write cv s cells cell h free i one, rfl⟩
    simp only [appendNull, free, ite_true, filled, counted, bind, Except.bind]
  · refine ⟨_, ?_, holds_count cv s cells cell h (by omega) null i one, rfl⟩
    simp only [appendNull, free, ite_false, counted, bind, Except.bind]

theorem fetchValue_eq_ok (s : DbColumnStorage I) (cells : List SqlValue) (cell : SqlValue)
    (h : Holds cv s cells) (free : toNat s.i < s.capacity) (value : cell.isNull = false) :
    fetchValue cv cell s =
      .ok (s.data.withSlots (s.data.slots.set (toNat s.i) (slotOf cv s.dt cell)),
        (fetchSlot cv s.dt cell).2) := by
  have typed := holds_typed cv h free
  have slot : slotOf cv s.dt cell = (fetchSlot cv s.dt cell).1 := by
    simp only [slotOf, value, Bool.false_eq_true, ite_false]
  have written := Sexp.set_eq_ok s.data (toNat s.i) (fetchSlot cv s.dt cell).1
    (by rw [fetchSlot_type cv _ _ typed, h.type]) free
  simp only [fetchValue, typed, ite_false, written, slot, bind, Except.bind]

theorem appendData_this (fuel : Nat) (s : DbColumnStorage I) (cells : List SqlValue)
    (cell : SqlValue) (h : Holds cv s cells) (far : Reaches I (cells.length + 1))
    (free : toNat s.i < s.capacity)
    (value : cell.isNull = false) (same : nextType source s.dt cell = s.dt) :
    ∃ next, appendData cv source cell (fuel + 1) s = .ok next ∧ next.pushed = false ∧
      Holds cv next.storage (cells ++ [cell]) ∧ next.storage.dt = s.dt := by
  have typed := holds_typed cv h free
  have narrow : ∀ T, T = .int64 ∨ T = .real → ¬ (s.dt = .int ∧ source.getDataType cell = T) := by
    rintro T hT ⟨isInt, wide⟩
    simp only [nextType, value, Bool.false_eq_true, ite_false, isInt, reduceCtorEq] at same
    obtain rfl | rfl := hT <;> simp [wide] at same
  obtain ⟨i, counted, one⟩ := h.next cv far
  refine ⟨⟨_, false, (fetchSlot cv s.dt cell).2⟩, ?_, rfl,
    holds_write cv s cells cell h free i one, rfl⟩
  simp only [appendData, typed, ite_false, Nat.not_le.mpr free, narrow .int64 (Or.inl rfl),
    narrow .real (Or.inr rfl), fetchValue_eq_ok cv s cells cell h free value, counted, bind,
    Except.bind]

theorem appendData_create (far : Reaches I 1) (fuel : Nat) (T : DataType) (desired nMax : Int)
    (cell : SqlValue) (value : cell.isNull = false) (typed : T ≠ .unknown)
    (same : nextType source T cell = T) :
    ∃ next, appendData cv source cell (fuel + 1) (create T desired nMax : DbColumnStorage I) =
        .ok next ∧ Holds cv next.storage [cell] ∧ next.storage.dt = T := by
  have held : Holds cv (create T desired nMax : DbColumnStorage I) [] :=
    holds_create cv T desired nMax
  have free : toNat (create T desired nMax : DbColumnStorage I).i <
      (create T desired nMax : DbColumnStorage I).capacity := by
    rw [held.count]
    exact create_capacity_pos T desired nMax typed
  obtain ⟨next, run, _, hold, dt⟩ :=
    appendData_this cv source fuel _ [] cell held far free value same
  exact ⟨next, run, hold, dt⟩

theorem appendDataToNew_holds (append : DbColumnStorage I → Outcome (Appended I))
    (s : DbColumnStorage I) (cell : SqlValue) (newDt T U : DataType)
    (type : (if newDt = .unknown then source.getDataType cell else newDt) = T)
    (fresh : ∀ desired, ∃ next, append (create T desired s.nMax) = .ok next ∧
      Holds cv next.storage [cell] ∧ next.storage.dt = U) :
    ∃ next, appendDataToNew source append cell s newDt = .ok next ∧ next.pushed = true ∧
      Holds cv next.storage [cell] ∧ next.storage.dt = U := by
  obtain ⟨next, run, hold, dt⟩ := fresh (if s.nMax < 0 then s.capacity * 2
    else s.nMax - toNat s.i)
  refine ⟨{ next with pushed := true }, ?_, rfl, hold, dt⟩
  simp only [appendDataToNew, type, run, bind, Except.bind]

/-- An INT chunk does not take a wider number: a chunk of the wider type does. -/
theorem appendData_wider (far : Reaches I 1) (fuel : Nat) (s : DbColumnStorage I) (cell : SqlValue)
    (value : cell.isNull = false) (isInt : s.dt = .int) (free : toNat s.i < s.capacity)
    (wide : source.getDataType cell = .int64 ∨ source.getDataType cell = .real) :
    ∃ next, appendData cv source cell (fuel + 2) s = .ok next ∧ next.pushed = true ∧
      Holds cv next.storage [cell] ∧ next.storage.dt = source.getDataType cell := by
  have fresh : ∀ desired, ∃ next, appendData cv source cell (fuel + 1)
      (create (source.getDataType cell) desired s.nMax : DbColumnStorage I) = .ok next ∧
      Holds cv next.storage [cell] ∧ next.storage.dt = source.getDataType cell := by
    intro desired
    apply appendData_create cv source far fuel _ desired s.nMax cell value
    · exact source.getDataType_ne_unknown cell value
    · exact nextType_getDataType source cell value
  rw [appendData, if_neg (by simp [isInt]), if_neg (Nat.not_le.mpr free)]
  obtain h | h := wide
  · rw [if_pos ⟨isInt, h⟩]
    exact appendDataToNew_holds cv source _ s cell .int64 _ _ (by simp [h]) fresh
  · rw [if_neg (by simp [h]), if_pos ⟨isInt, h⟩]
    exact appendDataToNew_holds cv source _ s cell .real _ _ (by simp [h]) fresh

/-- A fresh chunk takes the cell, or passes it on to a chunk of a wider type. -/
theorem appendData_fresh (far : Reaches I 1) (fuel : Nat) (T : DataType) (desired nMax : Int)
    (cell : SqlValue) (value : cell.isNull = false) (typed : T ≠ .unknown) :
    ∃ next, appendData cv source cell (fuel + 2) (create T desired nMax : DbColumnStorage I) =
        .ok next ∧ Holds cv next.storage [cell] ∧ next.storage.dt = nextType source T cell := by
  by_cases wide : T = .int ∧
      (source.getDataType cell = .int64 ∨ source.getDataType cell = .real)
  · have free : toNat (create T desired nMax : DbColumnStorage I).i <
        (create T desired nMax : DbColumnStorage I).capacity := by
      rw [(holds_create cv T desired nMax).count]
      exact create_capacity_pos T desired nMax typed
    obtain ⟨next, run, _, hold, dt⟩ := appendData_wider cv source far fuel
      (create T desired nMax : DbColumnStorage I) cell value wide.1 free wide.2
    refine ⟨next, run, hold, ?_⟩
    rw [dt, nextType_value source T cell value, if_pos (Or.inr wide)]
  · have same : nextType source T cell = T := by
      rw [nextType_value source T cell value, if_neg (not_or.mpr ⟨typed, wide⟩)]
    rw [same]
    exact appendData_create cv source far (fuel + 1) T desired nMax cell value typed same

/-- A chunk that does not take the value leaves it to a further chunk of the
next type. Three rounds of the recursion are enough. -/
theorem appendData_pushed (far : Reaches I 1) (fuel : Nat) (s : DbColumnStorage I)
    (cell : SqlValue) (value : cell.isNull = false)
    (refused : s.dt = .unknown ∨ s.capacity ≤ toNat s.i ∨ nextType source s.dt cell ≠ s.dt) :
    ∃ next, appendData cv source cell (fuel + 3) s = .ok next ∧ next.pushed = true ∧
      Holds cv next.storage [cell] ∧ next.storage.dt = nextType source s.dt cell := by
  by_cases untyped : s.dt = .unknown
  · have next : nextType source s.dt cell = source.getDataType cell := by
      rw [nextType_value source _ cell value, if_pos (Or.inl untyped)]
    rw [appendData, if_pos untyped]
    apply appendDataToNew_holds cv source _ s cell s.dt (source.getDataType cell) _
      (if_pos untyped)
    intro desired
    rw [next]
    have fresh := appendData_fresh cv source far fuel _ desired s.nMax cell value
      (source.getDataType_ne_unknown cell value)
    rwa [nextType_getDataType source cell value] at fresh
  by_cases full : s.capacity ≤ toNat s.i
  · rw [appendData, if_neg untyped, if_pos full]
    apply appendDataToNew_holds cv source _ s cell s.dt s.dt _ (if_neg untyped)
    intro desired
    exact appendData_fresh cv source far fuel s.dt desired s.nMax cell value untyped
  · have wide : s.dt = .int ∧
        (source.getDataType cell = .int64 ∨ source.getDataType cell = .real) := by
      by_contra narrow
      apply (refused.resolve_left untyped).resolve_left full
      rw [nextType_value source _ cell value, if_neg (not_or.mpr ⟨untyped, narrow⟩)]
    rw [nextType_value source _ cell value, if_pos (Or.inr wide)]
    exact appendData_wider cv source far (fuel + 1) s cell value wide.1 (by omega) wide.2

/-- One row: the last chunk takes the cell, or a new chunk holds it alone. -/
theorem appendCol_holds (fuel : Nat) (s : DbColumnStorage I) (cells : List SqlValue)
    (cell : SqlValue) (h : Holds cv s cells) (far : Reaches I (cells.length + 1)) :
    ∃ next, s.appendCol cv source (fuel + 3) cell = .ok next ∧
      next.storage.dt = nextType source s.dt cell ∧
      Holds cv next.storage (if next.pushed then [cell] else cells ++ [cell]) ∧
      (next.pushed = false → next.storage.dt = s.dt) := by
  cases value : cell.isNull with
  | true =>
      obtain ⟨s', run, hold, dt⟩ := appendNull_holds cv s cells cell h far value
      refine ⟨⟨s', false, []⟩, ?_, ?_, ?_, fun _ => dt⟩
      · simp only [appendCol, value, ite_true, run]
      · rw [dt, nextType_null source _ cell value]
      · exact hold
  | false =>
      by_cases refused : s.dt = .unknown ∨ s.capacity ≤ toNat s.i ∨
          nextType source s.dt cell ≠ s.dt
      · obtain ⟨next, run, pushed, hold, dt⟩ := appendData_pushed cv source
          (far.le (Nat.le_add_left 1 _)) fuel s cell value refused
        refine ⟨next, ?_, dt, ?_, ?_⟩
        · simpa only [appendCol, value, Bool.false_eq_true, ite_false] using run
        · simpa only [pushed, ite_true] using hold
        · simp [pushed]
      · push Not at refused
        obtain ⟨next, run, this, hold, dt⟩ :=
          appendData_this cv source (fuel + 2) s cells cell h far refused.2.1 value refused.2.2
        refine ⟨next, ?_, ?_, ?_, fun _ => dt⟩
        · simpa only [appendCol, value, Bool.false_eq_true, ite_false] using run
        · rw [dt, refused.2.2]
        · simpa only [this, Bool.false_eq_true, ite_false] using hold

/-- The cells of a chunk, tagged with the type of the chunk. -/
def tagged (chunk : DbColumnStorage I × List SqlValue) : List (DataType × SqlValue) :=
  chunk.2.map (Prod.mk chunk.1.dt)

/-- The column started with type `T` has taken `cells`: its earlier chunks with
their cells are `earlier`, its last chunk took `current`. -/
structure Tracks (T : DataType) (c : DbColumn I)
    (earlier : List (DbColumnStorage I × List SqlValue)) (current cells : List SqlValue) :
    Prop where
  sameSource : c.source = source
  chain : c.earlier = earlier.map Prod.fst
  chunks : ∀ chunk ∈ earlier, Holds cv chunk.1 chunk.2
  last : Holds cv c.last current
  trace : earlier.flatMap tagged ++ tagged (c.last, current) = typeTrace source T cells
  dt : c.last.dt = finalType source T cells
  seen : c.dataTypesSeen = (cells.map source.getDataType).toFinset

/-- The type that the constructor gives to the first chunk. -/
def initialType (dt : DataType) : DataType := if dt = .bool then .unknown else dt

theorem tracks_create (dt : DataType) (nMax : Int) :
    Tracks cv source (initialType dt) (DbColumn.create dt nMax source : DbColumn I) [] [] [] where
  sameSource := rfl
  chain := rfl
  chunks _ h := by simp at h
  last := holds_create cv _ 0 nMax
  trace := rfl
  dt := rfl
  seen := rfl

theorem Tracks.current_le {T : DataType} {c : DbColumn I}
    {earlier : List (DbColumnStorage I × List SqlValue)} {current cells : List SqlValue}
    (h : Tracks cv source T c earlier current cells) : current.length ≤ cells.length := by
  have whole := congrArg List.length h.trace
  simp only [List.length_append, typeTrace_length, tagged, List.length_map] at whole
  omega

theorem setColValue_tracks (fuel : Nat) (T : DataType) (c : DbColumn I)
    (earlier : List (DbColumnStorage I × List SqlValue)) (current cells : List SqlValue)
    (cell : SqlValue) (h : Tracks cv source T c earlier current cells)
    (far : Reaches I (cells.length + 1)) :
    ∃ c' earlier' current', c.setColValue cv (fuel + 3) cell = .ok c' ∧
      Tracks cv source T c' earlier' current' (cells ++ [cell]) := by
  obtain ⟨next, run, dt, hold, keep⟩ :=
    appendCol_holds cv source fuel c.last current cell h.last
      (far.le (Nat.succ_le_succ (h.current_le cv source)))
  have trace := typeTrace_append source T cells cell
  have final := finalType_append source T cells cell
  rw [h.dt] at dt
  have seen : insert (source.getDataType cell) c.dataTypesSeen =
      ((cells ++ [cell]).map source.getDataType).toFinset := by
    rw [h.seen, List.map_append, List.toFinset_append, Finset.union_comm]
    rfl
  have step : c.setColValue cv (fuel + 3) cell = .ok { c with
      earlier := if next.pushed then c.earlier ++ [c.last] else c.earlier
      last := next.storage
      dataTypesSeen := insert (source.getDataType cell) c.dataTypesSeen
      warnings := c.warnings ++ next.warnings } := by
    simp only [DbColumn.setColValue, h.sameSource, run, bind, Except.bind]
  cases pushed : next.pushed with
  | true =>
      simp only [pushed, ite_true] at hold step
      refine ⟨_, earlier ++ [(c.last, current)], [cell], step, h.sameSource, ?_, ?_, hold, ?_, ?_, seen⟩
      · simp only [h.chain, List.map_append, List.map_singleton]
      · intro chunk hchunk
        obtain old | new := List.mem_append.mp hchunk
        · exact h.chunks chunk old
        · rw [List.mem_singleton.mp new]
          exact h.last
      · rw [trace, ← h.trace, List.flatMap_append, List.flatMap_singleton]
        simp only [tagged, dt, List.map_singleton]
      · rw [final, ← dt]
  | false =>
      simp only [pushed, Bool.false_eq_true, ite_false] at hold step
      have same := keep pushed
      refine ⟨_, earlier, current ++ [cell], step, h.sameSource, h.chain, h.chunks, hold, ?_, ?_, seen⟩
      · rw [trace, ← h.trace, List.append_assoc, ← dt]
        simp only [tagged, same, List.map_append, List.map_singleton]
      · rw [final, ← dt]

theorem fetchRow_ok (fuel : Nat) (column column' : DbColumn I × I) (cell : SqlValue)
    (run : DbColumn.fetchRow cv fuel column cell = .ok column') :
    toNat column'.2 = toNat column.2 + 1 := by
  simp only [DbColumn.fetchRow, bind, Except.bind] at run
  split at run
  · cases run
  · split at run
    · cases run
    · next counted =>
        cases run
        exact toNat_next counted

theorem fetchRows_counted (fuel : Nat) (rest : List SqlValue) :
    ∀ column column' : DbColumn I × I, rest.foldlM (DbColumn.fetchRow cv fuel) column = .ok column' →
      toNat column'.2 = toNat column.2 + rest.length := by
  induction rest with
  | nil =>
      intro column column' run
      cases run
      rfl
  | cons cell rest ih =>
      intro column column' run
      rw [List.foldlM_cons] at run
      cases row : DbColumn.fetchRow cv fuel column cell with
      | error f =>
          rw [row] at run
          cases run
      | ok next =>
          rw [row] at run
          rw [ih next column' run, fetchRow_ok cv fuel column next cell row, List.length_cons]
          omega

theorem fetchRows_tracks (fuel : Nat) (T : DataType) (rest : List SqlValue) :
    ∀ (c : DbColumn I) (n : I) (earlier : List (DbColumnStorage I × List SqlValue))
      (current cells : List SqlValue), Tracks cv source T c earlier current cells →
      toNat n = cells.length → Reaches I (cells.length + rest.length) →
      ∃ c' n' earlier' current',
        rest.foldlM (DbColumn.fetchRow cv (fuel + 3)) (c, n) = .ok (c', n') ∧
        Tracks cv source T c' earlier' current' (cells ++ rest) := by
  induction rest with
  | nil =>
      intro c n earlier current cells h _ _
      exact ⟨c, n, earlier, current, rfl, by rwa [List.append_nil]⟩
  | cons cell rest ih =>
      intro c n earlier current cells h counted far
      rw [List.length_cons, Nat.add_comm rest.length, ← Nat.add_assoc] at far
      have one := far.le (Nat.le_add_right _ rest.length)
      obtain ⟨c', earlier', current', step, h'⟩ :=
        setColValue_tracks cv source fuel T c earlier current cells cell h one
      obtain ⟨n', next, n_eq⟩ := next_ok (i := n) (by rwa [counted])
      obtain ⟨c'', n'', earlier'', current'', run, h''⟩ := ih c' n' earlier' current' _ h'
        (by rw [n_eq, counted, List.length_append, List.length_singleton])
        (by rwa [List.length_append, List.length_singleton])
      refine ⟨c'', n'', earlier'', current'', ?_, by simpa only [List.append_assoc, List.cons_append,
        List.nil_append] using h''⟩
      have row : DbColumn.fetchRow cv (fuel + 3) (c, n) cell = .ok (c', n') := by
        simp only [DbColumn.fetchRow, step, next, bind, Except.bind]
      rw [List.foldlM_cons, row]
      exact run

end RSQLite
