import RSQLite.Column.Refinement

/-!
Conversion of the chain of chunks to the R vector. Each chunk writes one element
per cell it took, directly behind the elements of the chunks before it, so the
vector is the trace read element by element.
-/
namespace RSQLite

open DbColumnStorage Counter

variable {I : Type} [Counter I] (cv : Conversions) (source : SqliteColumnDataSource)

/-- An integer converted to a double is never the missing double, so the check
that `copy_value` makes between two 64-bit vectors never fires. -/
theorem rIsNA_ofInt64 (v : Int64) : rIsNA (Binary64.ofInt v.toInt) = false := by
  have range : v.toInt.natAbs < 2 ^ 64 := by
    have lower := v.le_toInt
    have upper := v.toInt_lt
    omega
  rw [rIsNA, Binary64.isNaN_ofInt _ range, Bool.false_and]

theorem promoteSlot_self (dt : DataType) (v : Slot) (h : v.sexpType = sexptypeFromDatatype dt) :
    promoteSlot dt v = v := by
  cases v with
  | integer i => cases dt <;> first | rfl | cases h
  | logical i | word b | string b | raw b => cases dt <;> rfl

theorem copySlot_self (dt : DataType) (data : Sexp) (src : Nat) (v : Slot) (h : dt ≠ .unknown)
    (dataType : data.type = sexptypeFromDatatype dt) (type : v.sexpType = sexptypeFromDatatype dt)
    (read : data.slots[src]? = some v) :
    copySlot dt data src = .ok (some v) := by
  have get : data.get (sexptypeFromDatatype dt) src = .ok v := by
    rw [← type]
    exact Sexp.get_eq_ok data src v (type.trans dataType.symm) read
  cases dt with
  | unknown => exact absurd rfl h
  | int64 =>
      simp only [sexptypeFromDatatype] at get dataType
      cases v with
      | word w =>
          simp only [copySlot, dataType, get, bind, Except.bind, rIsNA_ofInt64, Bool.false_eq_true,
            ite_false]
      | logical i | integer i | string b | raw b => cases type
  | real =>
      simp only [sexptypeFromDatatype] at get dataType
      simp only [copySlot, dataType, get]
      rfl
  | bool | int | string | blob | date | datetime | datetimetz | time =>
      simp only [sexptypeFromDatatype] at get
      simp only [copySlot, get]
      rfl

theorem copySlot_wider (dt : DataType) (data : Sexp) (src : Nat) (v : Slot)
    (h : dt = .int64 ∨ dt = .real) (dataType : data.type = .intsxp) (type : v.sexpType = .intsxp)
    (read : data.slots[src]? = some v) :
    copySlot dt data src = .ok (some (promoteSlot dt v)) := by
  have get : data.get .intsxp src = .ok v := by
    rw [← type]
    exact Sexp.get_eq_ok data src v (type.trans dataType.symm) read
  cases v with
  | integer i =>
      cases h with
      | inl h => subst h; simp only [copySlot, dataType, get, bind, Except.bind, promoteSlot]
      | inr h => subst h; simp only [copySlot, dataType, get, bind, Except.bind, promoteSlot]
  | logical i | word b | string b | raw b => cases type

theorem elementOf_type (dt T : DataType) (cell : SqlValue) (h : dt ≠ .unknown)
    (promotes : Promotes T dt) :
    (elementOf cv dt T cell).sexpType = sexptypeFromDatatype dt := by
  by_cases untyped : T = .unknown
  · simp only [elementOf, untyped, ite_true]
    exact defaultSlot_type dt h
  · have type := slotOf_type cv T cell untyped
    simp only [elementOf, untyped, ite_false]
    obtain rfl | rfl | ⟨rfl, wide⟩ := promotes
    · exact absurd rfl untyped
    · rwa [promoteSlot_self T _ type]
    · cases hv : slotOf cv .int cell with
      | integer i => cases wide with
        | inl h => subst h; rfl
        | inr h => subst h; rfl
      | logical i | word b | string b | raw b => rw [hv] at type; cases type

omit [Counter I] in
theorem copyValue_eq_set (s : DbColumnStorage I) (dt : DataType) (cell : SqlValue) (src : Nat)
    (x : Sexp) (tgt : Nat) (type : s.data.type = sexptypeFromDatatype s.dt)
    (typed : s.dt ≠ .unknown) (promotes : Promotes s.dt dt)
    (read : s.data.slots[src]? = some (slotOf cv s.dt cell)) :
    copyValue x dt tgt src s.data = x.set tgt (elementOf cv dt s.dt cell) := by
  have nonnil : s.data.isNull = false := by
    rw [Sexp.isNull, type, beq_eq_false_iff_ne]
    exact fun nil => typed ((sexptypeFromDatatype_eq_nilsxp s.dt).mp nil)
  have slot := slotOf_type cv s.dt cell typed
  have copied : copySlot dt s.data src = .ok (some (elementOf cv dt s.dt cell)) := by
    simp only [elementOf, typed, ite_false]
    obtain untyped | same | ⟨isInt, wide⟩ := promotes
    · exact absurd untyped typed
    · rw [← same, promoteSlot_self _ _ slot]
      exact copySlot_self s.dt s.data src _ typed type slot read
    · rw [isInt] at type slot read ⊢
      exact copySlot_wider dt s.data src _ wide type slot read
  simp only [copyValue, nonnil, Bool.false_eq_true, ite_false, copied, bind, Except.bind]

theorem set_blank (x : Sexp) (pre blanks : List Slot) (blank v : Slot)
    (slots : x.slots = pre ++ blank :: blanks) (type : v.sexpType = x.type) :
    x.set pre.length v = .ok (x.withSlots ((pre ++ [v]) ++ blanks)) := by
  have inside : pre.length < x.length := by simp [Sexp.length, slots]
  rw [Sexp.set_eq_ok x pre.length v type inside]
  simp only [slots, List.set_append_right _ _ (Nat.le_refl _), Nat.sub_self, List.set_cons_zero,
    List.append_assoc, List.cons_append, List.nil_append]

theorem set_blank_length (x : Sexp) (pre blanks : List Slot) (blank v : Slot)
    (slots : x.slots = pre ++ blank :: blanks) :
    (x.withSlots ((pre ++ [v]) ++ blanks)).length = x.length := by
  simp only [Sexp.length, Sexp.withSlots_slots, slots, List.length_append, List.length_cons,
    List.length_nil]
  omega

/-- Neither position overflows: one stays within the chunk's counter, the other within the
length of the vector. -/
theorem copyValues_spec (s : DbColumnStorage I) (dt : DataType) (element : SqlValue → Slot)
    (front : List SqlValue) :
    ∀ (src tgt : I) (rounds : Nat) (x : Sexp) (pre blanks : List Slot),
      (∀ k cell, front[k]? = some cell → (element cell).sexpType = sexptypeFromDatatype dt ∧
        ∀ x tgt, copyValue x dt tgt (toNat src + k) s.data = x.set tgt (element cell)) →
      toNat src + front.length = min s.capacity (toNat s.i) → front.length ≤ rounds →
      x.type = sexptypeFromDatatype dt → x.slots = pre ++ blanks → Reaches I x.length →
      toNat tgt = pre.length → front.length ≤ blanks.length →
      ∃ src' tgt', copyValues s dt rounds x src tgt =
        .ok (x.withSlots (pre ++ front.map element ++ blanks.drop front.length), src', tgt') ∧
        toNat src' = toNat src + front.length ∧ toNat tgt' = pre.length + front.length := by
  induction front with
  | nil =>
      intro src tgt rounds x pre blanks _ stop _ _ slots _ at_ _
      have done : ¬ (toNat src < s.capacity ∧ toNat src < toNat s.i ∧ toNat tgt < x.length) := by
        simp only [List.length_nil, Nat.add_zero] at stop
        omega
      refine ⟨src, tgt, ?_, rfl, at_⟩
      simp only [List.map_nil, List.append_nil, List.length_nil, List.drop_zero]
      rw [x.withSlots_self _ slots]
      cases rounds with
      | zero => rfl
      | succ rounds => rw [copyValues, if_neg done]
  | cons cell front ih =>
      intro src tgt rounds x pre blanks copy stop enough type slots far at_ fits
      simp only [List.length_cons] at stop enough fits
      obtain ⟨blank, blanks, rfl⟩ : ∃ b bs, blanks = b :: bs :=
        List.exists_cons_of_length_pos (by omega)
      obtain ⟨rounds, rfl⟩ : ∃ r, rounds = r + 1 := ⟨rounds - 1, by omega⟩
      have inside : pre.length < x.length := by simp [Sexp.length, slots]
      have go : toNat src < s.capacity ∧ toNat src < toNat s.i ∧ toNat tgt < x.length := by omega
      obtain ⟨src', moved, src_eq⟩ := next_ok (i := src) ((reaches s.i).le (by omega))
      obtain ⟨tgt', filled, tgt_eq⟩ := next_ok (i := tgt) (far.le (by omega))
      obtain ⟨elementType, copied⟩ := copy 0 cell rfl
      have write : copyValue x dt (toNat tgt) (toNat src) s.data =
          .ok (x.withSlots ((pre ++ [element cell]) ++ blanks)) := by
        rw [at_]
        exact (copied x pre.length).trans
          (set_blank x pre blanks blank _ slots (elementType.trans type.symm))
      have size := set_blank_length x pre blanks blank (element cell) slots
      obtain ⟨last, stop', rest, last_eq, stop_eq⟩ := ih src' tgt' rounds
        (x.withSlots ((pre ++ [element cell]) ++ blanks)) (pre ++ [element cell]) blanks
        (fun k c hk => by
          rw [src_eq, show toNat src + 1 + k = toNat src + (k + 1) by omega]
          exact copy (k + 1) c hk)
        (by omega) (by omega) type rfl (by rwa [size]) (by simp [tgt_eq, at_])
        (by simpa using fits)
      rw [List.length_append, List.length_singleton] at stop_eq
      refine ⟨last, stop', ?_, by rw [last_eq, List.length_cons]; omega,
        by rw [stop_eq, List.length_cons]; omega⟩
      rw [copyValues, if_pos go]
      simp only [write, moved, filled, bind, Except.bind]
      rw [rest]
      simp only [Sexp.withSlots_withSlots, List.append_assoc, List.cons_append, List.nil_append,
        List.map_cons, List.length_cons, List.drop_succ_cons]

theorem fillDefaults_spec (s : DbColumnStorage I) (dt : DataType) (hdt : dt ≠ .unknown)
    (back : List SqlValue) :
    ∀ (src tgt : I) (rounds : Nat) (x : Sexp) (pre blanks : List Slot),
      toNat src + back.length = toNat s.i → back.length ≤ rounds →
      x.type = sexptypeFromDatatype dt → x.slots = pre ++ blanks → Reaches I x.length →
      toNat tgt = pre.length → back.length ≤ blanks.length →
      ∃ src', fillDefaults s dt rounds x src tgt =
        .ok (x.withSlots (pre ++ back.map (fun _ => defaultSlot dt) ++ blanks.drop back.length),
          src') ∧ toNat src' = toNat s.i := by
  induction back with
  | nil =>
      intro src tgt rounds x pre blanks stop _ _ slots _ _ _
      simp only [List.length_nil, Nat.add_zero] at stop
      refine ⟨src, ?_, stop⟩
      simp only [List.map_nil, List.append_nil, List.length_nil, List.drop_zero]
      rw [x.withSlots_self _ slots]
      cases rounds with
      | zero => rfl
      | succ rounds => rw [fillDefaults, if_neg (by omega)]
  | cons cell back ih =>
      intro src tgt rounds x pre blanks stop enough type slots far at_ fits
      simp only [List.length_cons] at stop enough fits
      obtain ⟨blank, blanks, rfl⟩ : ∃ b bs, blanks = b :: bs :=
        List.exists_cons_of_length_pos (by omega)
      obtain ⟨rounds, rfl⟩ : ∃ r, rounds = r + 1 := ⟨rounds - 1, by omega⟩
      have inside : pre.length < x.length := by simp [Sexp.length, slots]
      obtain ⟨src', moved, src_eq⟩ := next_ok (i := src) ((reaches s.i).le (by omega))
      obtain ⟨tgt', filled, tgt_eq⟩ := next_ok (i := tgt) (far.le (by omega))
      have write : fillDefaultValue x dt (toNat tgt) =
          .ok (x.withSlots ((pre ++ [defaultSlot dt]) ++ blanks)) := by
        rw [fillDefaultValue, if_neg hdt, at_]
        exact set_blank x pre blanks blank _ slots ((defaultSlot_type dt hdt).trans type.symm)
      have size := set_blank_length x pre blanks blank (defaultSlot dt) slots
      obtain ⟨last, rest, last_eq⟩ := ih src' tgt' rounds
        (x.withSlots ((pre ++ [defaultSlot dt]) ++ blanks)) (pre ++ [defaultSlot dt]) blanks
        (by omega) (by omega) type rfl (by rwa [size]) (by simp [tgt_eq, at_])
        (by simpa using fits)
      refine ⟨last, ?_, last_eq⟩
      rw [fillDefaults, if_pos (by omega)]
      simp only [write, moved, filled, bind, Except.bind]
      rw [rest]
      simp only [Sexp.withSlots_withSlots, List.append_assoc, List.cons_append, List.nil_append,
        List.map_cons, List.length_cons, List.drop_succ_cons]

/-- A chunk is copied to the blanks behind `pre`: one element per cell it took,
whether the cell was written to a slot or only counted. -/
theorem copyTo_spec (s : DbColumnStorage I) (cells : List SqlValue) (dt : DataType) (x : Sexp)
    (pos : I) (pre blanks : List Slot) (h : Holds cv s cells) (hdt : dt ≠ .unknown)
    (promotes : ∀ cell ∈ cells, Promotes s.dt dt) (type : x.type = sexptypeFromDatatype dt)
    (slots : x.slots = pre ++ blanks) (far : Reaches I x.length) (at_ : toNat pos = pre.length)
    (fits : cells.length ≤ blanks.length) :
    ∃ copied, s.copyTo x dt pos =
      .ok (x.withSlots (pre ++ cells.map (elementOf cv dt s.dt) ++ blanks.drop cells.length),
        copied) ∧ toNat copied = cells.length := by
  have count := h.count
  have front : (cells.take s.capacity).length = min s.capacity (toNat s.i) := by
    rw [List.length_take, count]
  have back : (cells.drop s.capacity).length = toNat s.i - s.capacity := by
    rw [List.length_drop, count]
  have start : toNat (zero : I) = 0 := toNat_zero
  obtain ⟨src, tgt, values, src_eq, tgt_eq⟩ := copyValues_spec s dt (elementOf cv dt s.dt)
    (cells.take s.capacity) zero pos (toNat s.i) x pre blanks
    (fun k cell hk => by
      have inside := (List.getElem?_eq_some_iff.mp hk).1
      have lt : k < s.capacity := by omega
      rw [List.getElem?_take_of_lt lt] at hk
      have promote := promotes cell (List.mem_of_getElem? hk)
      have typed : s.dt ≠ .unknown := fun untyped => by
        have := h.untyped untyped
        omega
      refine ⟨elementOf_type cv dt s.dt cell hdt promote, fun x tgt => ?_⟩
      rw [start, Nat.zero_add]
      exact copyValue_eq_set cv s dt cell k x tgt h.type typed promote (h.written k cell hk lt))
    (by omega) (by omega) type slots far at_ (by omega)
  have nulls : (cells.drop s.capacity).map (fun _ => defaultSlot dt) =
      (cells.drop s.capacity).map (elementOf cv dt s.dt) := by
    apply List.map_congr_left
    intro cell hmem
    obtain ⟨k, hk⟩ := List.getElem?_of_mem hmem
    rw [List.getElem?_drop] at hk
    exact (elementOf_null cv dt s.dt cell (h.beyond _ cell hk (by omega))
      (promotes cell (List.mem_of_getElem? hk))).symm
  have size : (x.withSlots (pre ++ (cells.take s.capacity).map (elementOf cv dt s.dt) ++
      blanks.drop (cells.take s.capacity).length)).length = x.length := by
    simp only [Sexp.length, Sexp.withSlots_slots, slots, List.length_append, List.length_map,
      List.length_drop]
    omega
  obtain ⟨copied, defaults, copied_eq⟩ := fillDefaults_spec s dt hdt (cells.drop s.capacity) src tgt
    (toNat s.i) (x.withSlots (pre ++ (cells.take s.capacity).map (elementOf cv dt s.dt) ++
      blanks.drop (cells.take s.capacity).length))
    (pre ++ (cells.take s.capacity).map (elementOf cv dt s.dt))
    (blanks.drop (cells.take s.capacity).length)
    (by omega) (by omega) type rfl (by rwa [size])
    (by rw [tgt_eq, List.length_append, List.length_map])
    (by rw [back, List.length_drop, front]; omega)
  refine ⟨copied, ?_, copied_eq.trans count⟩
  rw [copyTo, values]
  change fillDefaults s dt (toNat s.i) _ src tgt = _
  rw [defaults, nulls, Sexp.withSlots_withSlots, List.drop_drop, front, back, List.append_assoc pre,
    ← List.map_append, List.take_append_drop, count,
    show min s.capacity cells.length + (cells.length - s.capacity) = cells.length by omega]

/-- The chunks are copied behind each other. -/
theorem copyChunks_spec (dt : DataType) (hdt : dt ≠ .unknown)
    (chunks : List (DbColumnStorage I × List SqlValue)) :
    ∀ (x : Sexp) (pos : I) (pre blanks : List Slot),
      (∀ chunk ∈ chunks, Holds cv chunk.1 chunk.2) →
      (∀ read ∈ chunks.flatMap tagged, Promotes read.1 dt) →
      x.type = sexptypeFromDatatype dt → x.slots = pre ++ blanks → Reaches I x.length →
      toNat pos = pre.length → (chunks.flatMap tagged).length ≤ blanks.length →
      DbColumn.copyChunks dt (chunks.map Prod.fst) x pos =
        .ok (x.withSlots (pre ++
          (chunks.flatMap tagged).map (fun read => elementOf cv dt read.1 read.2) ++
          blanks.drop (chunks.flatMap tagged).length)) := by
  induction chunks with
  | nil =>
      intro x pos pre blanks _ _ _ slots _ _ _
      rw [show ([] : List (DbColumnStorage I × List SqlValue)).flatMap tagged = [] from rfl,
        List.map_nil, List.map_nil, List.append_nil, List.length_nil, List.drop_zero,
        x.withSlots_self _ slots]
      rfl
  | cons chunk chunks ih =>
      intro x pos pre blanks held promotes type slots far at_ fits
      simp only [List.flatMap_cons, List.mem_append] at promotes
      simp only [List.flatMap_cons, List.length_append, tagged, List.length_map] at fits
      have promote : ∀ cell ∈ chunk.2, Promotes chunk.1.dt dt := fun cell hcell =>
        promotes (chunk.1.dt, cell) (Or.inl (List.mem_map_of_mem hcell))
      obtain ⟨n, copied, n_eq⟩ := copyTo_spec cv chunk.1 chunk.2 dt x pos pre blanks
        (held chunk List.mem_cons_self) hdt promote type slots far at_ (by omega)
      have length : x.length = pre.length + blanks.length := by
        rw [Sexp.length, slots, List.length_append]
      obtain ⟨pos', moved, pos_eq⟩ := add_ok (i := pos) (j := n) (far.le (by omega))
      have size : (x.withSlots (pre ++ chunk.2.map (elementOf cv dt chunk.1.dt) ++
          blanks.drop chunk.2.length)).length = x.length := by
        rw [length]
        simp only [Sexp.length, Sexp.withSlots_slots, List.length_append, List.length_map,
          List.length_drop]
        omega
      have rest := ih
        (x.withSlots (pre ++ chunk.2.map (elementOf cv dt chunk.1.dt) ++
          blanks.drop chunk.2.length)) pos'
        (pre ++ chunk.2.map (elementOf cv dt chunk.1.dt)) (blanks.drop chunk.2.length)
        (fun c hc => held c (List.mem_cons_of_mem _ hc))
        (fun read hread => promotes read (Or.inr hread)) type rfl (by rwa [size])
        (by rw [pos_eq, at_, n_eq, List.length_append, List.length_map])
        (by rw [List.length_drop]; omega)
      simp only [List.map_cons, DbColumn.copyChunks, copied, moved, bind, Except.bind]
      rw [rest]
      simp only [Sexp.withSlots_withSlots, List.flatMap_cons, tagged, List.map_append,
        List.map_map, List.length_append, List.length_map, List.append_assoc, List.drop_drop]
      rfl

/-- The slots of the vector of a column that took `cells`. -/
def fetchedSlots (T : DataType) (cells : List SqlValue) : List Slot :=
  (typeTrace source T cells).map
    (fun read => elementOf cv (vectorType source T cells) read.1 read.2)

def fetchedVector (T : DataType) (cells : List SqlValue) : Sexp :=
  (allocate cells.length (vectorType source T cells)).withSlots (fetchedSlots cv source T cells)

@[simp] theorem fetchedVector_length (T : DataType) (cells : List SqlValue) :
    (fetchedVector cv source T cells).length = cells.length := by
  simp only [fetchedVector, Sexp.length, Sexp.withSlots_slots, fetchedSlots, List.length_map,
    typeTrace_length]

theorem getType_of_tracks (T : DataType) (c : DbColumn I)
    (earlier : List (DbColumnStorage I × List SqlValue)) (current cells : List SqlValue)
    (h : Tracks cv source T c earlier current cells) : c.getType = vectorType source T cells := by
  simp only [DbColumn.getType, getDataType, vectorType, h.dt, h.sameSource]

/-- A column that took `cells`, told that it holds that many rows, gives their
vector. -/
theorem toSexp_of_tracks (T : DataType) (c : DbColumn I)
    (earlier : List (DbColumnStorage I × List SqlValue)) (current cells : List SqlValue)
    (h : Tracks cv source T c earlier current cells) (n : I) (counted : toNat n = cells.length) :
    (c.finalize n).toSexp = .ok (fetchedVector cv source T cells) := by
  have typed := vectorType_ne_unknown source T cells
  have type := getType_of_tracks cv source T c earlier current cells h
  have trace : (earlier ++ [(c.last, current)]).flatMap tagged = typeTrace source T cells := by
    rw [List.flatMap_append, List.flatMap_singleton, h.trace]
  have chain : c.storage = (earlier ++ [(c.last, current)]).map Prod.fst := by
    rw [DbColumn.storage, h.chain, List.map_append, List.map_singleton]
  have size : (allocate cells.length (vectorType source T cells)).slots.length = cells.length :=
    allocate_length _ _ typed
  have copied := copyChunks_spec cv (vectorType source T cells) typed
    (earlier ++ [(c.last, current)]) (allocate cells.length (vectorType source T cells)) zero []
    (allocate cells.length (vectorType source T cells)).slots
    (fun chunk hchunk => by
      cases List.mem_append.mp hchunk with
      | inl old => exact h.chunks chunk old
      | inr new =>
          rw [List.mem_singleton.mp new]
          exact h.last)
    (fun read hread => by
      rw [trace] at hread
      exact promotes_vectorType source T cells read.1 read.2 hread)
    rfl rfl (by rw [Sexp.length, size, ← counted]; exact reaches n) toNat_zero
    (by rw [trace, typeTrace_length, size])
  rw [trace, typeTrace_length, List.drop_of_length_le (Nat.le_of_eq size), List.append_nil,
    List.nil_append, ← chain] at copied
  change DbColumn.copyChunks c.getType c.storage (allocate (toNat n) c.getType) zero = _
  rw [type, counted]
  exact copied

/-- From the constructor to the vector: no fault of any kind, for every initial
type, every `n_max` and every sequence of cells that can be counted. -/
theorem fetchColumn_eq (fuel : Nat) (enough : appendFuel ≤ fuel) (dt : DataType) (nMax : Int)
    (cells : List SqlValue) (far : Reaches I cells.length) :
    ∃ c, (DbColumn.create dt nMax source : DbColumn I).fetchColumn cv fuel cells =
        .ok (c, fetchedVector cv source (initialType dt) cells) ∧
      c.getType = vectorType source (initialType dt) cells ∧
      c.dataTypesSeen = (cells.map source.getDataType).toFinset := by
  obtain ⟨rounds, rfl⟩ := Nat.exists_eq_add_of_le' enough
  obtain ⟨c, n, earlier, current, run, h⟩ := fetchRows_tracks cv source rounds (initialType dt)
    cells _ zero [] [] [] (tracks_create (I := I) cv source dt nMax) toNat_zero
    (by rwa [List.length_nil, Nat.zero_add])
  have counted := fetchRows_counted cv _ cells _ _ run
  rw [toNat_zero, Nat.zero_add] at counted
  rw [List.nil_append] at h
  have vector := toSexp_of_tracks cv source _ c _ _ _ h n counted
  refine ⟨c.finalize n, ?_, getType_of_tracks cv source _ c _ _ _ h, h.seen⟩
  rw [DbColumn.fetchColumn]
  simp only [appendFuel, run, vector, bind, Except.bind]

theorem reaches_of_fetchColumn (fuel : Nat) (c c' : DbColumn I) (cells : List SqlValue) (x : Sexp)
    (run : c.fetchColumn cv fuel cells = .ok (c', x)) : Reaches I cells.length := by
  rw [DbColumn.fetchColumn] at run
  cases rows : cells.foldlM (DbColumn.fetchRow cv fuel) (c, zero) with
  | error f =>
      rw [rows] at run
      cases run
  | ok column =>
      have counted := fetchRows_counted cv fuel cells _ _ rows
      rw [toNat_zero, Nat.zero_add] at counted
      exact ⟨column.2, counted⟩

end RSQLite
