import RSQLite.Column.Exact

/-!
Integer columns. A column is 32 bits wide until a value needs more, and reads
-2^31, which fits 32 bits, as the missing value of a 32-bit vector. Promotion to
64 bits keeps missing values missing, so only an earlier wide value, or a column
type left over from an earlier fetch, saves it.
-/
namespace RSQLite

open DbColumnStorage SqliteColumnDataSource

/-- The `bigint` argument of `dbConnect()`. -/
inductive Bigint
  | integer64 | integer | numeric | character
deriving DecidableEq, Repr

/-- The conversions themselves are those of package bit64. -/
def convertBigint (asBigint : Bigint → Sexp → Sexp) (bigint : Bigint) (df : List Sexp) :
    List Sexp :=
  if bigint = .integer64 then df
  else df.map (fun x => if "integer64" ∈ x.rclass then asBigint bigint x else x)

variable (cv : Conversions) (source : SqliteColumnDataSource)

/-- INTEGER and NULL, without the integer that `integer64` cannot represent. -/
def StoredInteger : SqlValue → Prop
  | .null => True
  | .integer v => v ≠ naInteger64
  | _ => False

instance : DecidablePred StoredInteger
  | .null => .isTrue trivial
  | .integer v => inferInstanceAs (Decidable (v ≠ naInteger64))
  | .real _ | .text _ | .blob _ => .isFalse id

def isWide : SqlValue → Bool
  | .integer v => needs64Bit v
  | _ => false

def leastInteger : Int64 := Int32.minValue.toInt64

/-- The fetched column, as `dbFetch()` returns it, is missing exactly at the NULLs
and has the number of the cell everywhere else. -/
def IntegersKept (fuel : Nat) (asBigint : Bigint → Sexp → Sexp) (dt : DataType) (nMax : Int)
    (cells : List SqlValue) : Prop :=
  ∃ (c : DbColumn CInt) (x y : Sexp),
    (DbColumn.create dt nMax source).fetchColumn cv fuel cells = .ok (c, x) ∧
    convertBigint asBigint .integer64 [x] = [y] ∧ y.length = cells.length ∧
    ∀ (k : Nat) (cell : SqlValue), cells[k]? = some cell → ∃ v, y.slots[k]? = some v ∧
      (v.isNA y.rclass = true ↔ cell = .null) ∧
      ∀ i, cell = .integer i → v.number? y.rclass = some (i.toInt : ℚ)

/-- When the integers survive, by the type with which the column starts. -/
def IntegersSafe (T : DataType) (cells : List SqlValue) : Prop :=
  match T with
  | .int64 => True
  | .unknown | .int =>
      ∀ k : Nat, cells[k]? = some (.integer leastInteger) → (cells.take k).any isWide = true
  | .real => ∀ v, .integer v ∈ cells → (Binary64.ofInt v.toInt).toRat? = some (v.toInt : ℚ)
  | _ => ∀ cell ∈ cells, cell = .null

theorem nextType_settled (T : DataType) (cell : SqlValue) (typed : T ≠ .unknown)
    (notInt : T ≠ .int) : nextType source T cell = T := by
  simp only [nextType, typed, notInt, false_and, ite_false, ite_self]

theorem finalType_settled (T : DataType) (cells : List SqlValue) (typed : T ≠ .unknown)
    (notInt : T ≠ .int) : finalType source T cells = T := by
  induction cells with
  | nil => rfl
  | cons cell rest ih =>
      simpa only [finalType, List.foldl_cons, nextType_settled source T cell typed notInt] using ih

/-- Row `k` is read under the type that the column has after row `k`. -/
theorem typeTrace_getElem? (T : DataType) (cells : List SqlValue) (k : Nat) (cell : SqlValue)
    (h : cells[k]? = some cell) :
    (typeTrace source T cells)[k]? = some (finalType source T (cells.take (k + 1)), cell) := by
  induction cells generalizing T k with
  | nil => simp at h
  | cons first rest ih =>
      cases k with
      | zero =>
          obtain rfl : first = cell := by simpa using h
          simp [typeTrace, finalType]
      | succ k =>
          simp only [List.getElem?_cons_succ] at h
          simpa [typeTrace, finalType] using ih (nextType source T first) k h

theorem nextType_integer (plain : source.withAltTypes = false) (T : DataType) (v : Int64)
    (h : T = .unknown ∨ T = .int) :
    nextType source T (.integer v) = if needs64Bit v then .int64 else .int := by
  have own := getDataType_of_not_alt source (.integer v) plain
  simp only [cellDataType] at own
  rw [nextType_value source T _ rfl, own]
  obtain rfl | rfl := h <;> cases needs64Bit v <;> simp

theorem finalType_integers (plain : source.withAltTypes = false) (T : DataType)
    (cells : List SqlValue) (h : T = .unknown ∨ T = .int)
    (stored : ∀ cell ∈ cells, StoredInteger cell) :
    finalType source T cells =
      if cells.any isWide then .int64 else if cells.all SqlValue.isNull then T else .int := by
  induction cells generalizing T with
  | nil => simp [finalType]
  | cons cell rest ih =>
      have storedRest := fun c hc => stored c (List.mem_cons_of_mem _ hc)
      simp only [finalType, List.foldl_cons, List.any_cons, List.all_cons]
      cases cell with
      | null =>
          rw [nextType_null source T .null rfl]
          simpa [isWide, SqlValue.isNull, finalType] using ih T h storedRest
      | integer v =>
          rw [nextType_integer source plain T v h]
          cases wide : needs64Bit v with
          | true =>
              have settled := finalType_settled source .int64 rest (by decide) (by decide)
              simpa [isWide, wide, finalType] using settled
          | false =>
              have last := ih .int (Or.inr rfl) storedRest
              simpa [isWide, wide, SqlValue.isNull, finalType] using last
      | real r | text b | blob b => exact (stored _ List.mem_cons_self).elim

/-- The number in row `k`, under the type that row `k` was read with. -/
def NumberKept (T : DataType) (cells : List SqlValue) (k : Nat) (v : Int64) : Prop :=
  (elementOf cv (vectorType source T cells) (finalType source T (cells.take (k + 1)))
    (.integer v)).number? (classFromDatatype (vectorType source T cells)) = some (v.toInt : ℚ)

/-- NULLs are always missing, so only the numbers matter. -/
theorem integersKept_iff_numbers (fuel : Nat) (enough : appendFuel ≤ fuel)
    (asBigint : Bigint → Sexp → Sexp) (dt : DataType) (nMax : Int) (cells : List SqlValue)
    (stored : ∀ cell ∈ cells, StoredInteger cell) (short : cells.length < 2 ^ 31) :
    IntegersKept cv source fuel asBigint dt nMax cells ↔
      ∀ (k : Nat) (v : Int64), cells[k]? = some (.integer v) →
        NumberKept cv source (initialType dt) cells k v := by
  obtain ⟨c, run, type, _⟩ := fetchColumn_eq (I := CInt) cv source fuel enough dt nMax cells
    (reaches_cInt.mpr short)
  have element : ∀ (k : Nat) (cell : SqlValue), cells[k]? = some cell →
      (fetchedVector cv source (initialType dt) cells).slots[k]? =
        some (elementOf cv (vectorType source (initialType dt) cells)
          (finalType source (initialType dt) (cells.take (k + 1))) cell) := by
    intro k cell hk
    simp only [fetchedVector, Sexp.withSlots_slots, fetchedSlots, List.getElem?_map,
      typeTrace_getElem? source (initialType dt) cells k cell hk, Option.map_some]
  constructor
  · rintro ⟨c', x, y, run', same, _, kept⟩ k v hk
    obtain ⟨rfl, rfl⟩ := Prod.mk.inj (Except.ok.inj (run.symm.trans run'))
    obtain rfl := List.cons.inj same |>.1
    obtain ⟨w, hw, _, number⟩ := kept k (.integer v) hk
    obtain rfl := Option.some.inj ((element k _ hk).symm.trans hw)
    exact number v rfl
  · intro numbers
    refine ⟨c, _, _, run, rfl, fetchedVector_length cv source _ cells, ?_⟩
    intro k cell hk
    refine ⟨_, element k cell hk, ?_⟩
    cases cell with
    | null =>
        have row := typeTrace_getElem? source (initialType dt) cells k .null hk
        have missing := elementOf_null cv _ _ .null rfl
          (promotes_vectorType source _ cells _ .null (List.mem_of_getElem? row))
        rw [missing]
        refine ⟨⟨fun _ => rfl, fun _ => defaultSlot_isNA _⟩, ?_⟩
        intro i h
        cases h
    | integer v =>
        have number := numbers k v hk
        refine ⟨⟨fun na => ?_, fun h => ?_⟩, ?_⟩
        · have present := isNA_of_number _ _ _ number
          exact (Bool.false_ne_true (present.symm.trans na)).elim
        · cases h
        · intro i h
          cases h
          exact number
    | real r | text b | blob b => exact (stored _ (List.mem_of_getElem? hk)).elim

theorem vectorType_settled (T : DataType) (cells : List SqlValue) (typed : T ≠ .unknown)
    (notInt : T ≠ .int) : vectorType source T cells = T := by
  simp only [vectorType, finalType_settled source T cells typed notInt, typed, ite_false]

/-- Under a type that no cell changes, a number is kept if that type reads it. -/
theorem numberKept_settled (T : DataType) (cells : List SqlValue) (k : Nat) (v : Int64)
    (typed : T ≠ .unknown) (notInt : T ≠ .int) :
    NumberKept cv source T cells k v ↔
      (elementOf cv T T (.integer v)).number? (classFromDatatype T) = some (v.toInt : ℚ) := by
  rw [NumberKept, vectorType_settled source T cells typed notInt,
    finalType_settled source T _ typed notInt]

theorem numberKept_real (v : Int64) :
    (elementOf cv .real .real (.integer v)).number? (classFromDatatype .real) =
        some (v.toInt : ℚ) ↔
      (Binary64.ofInt v.toInt).toRat? = some (v.toInt : ℚ) := by
  have lower := v.le_toInt
  have upper := v.toInt_lt
  have notNaN := Binary64.isNaN_ofInt v.toInt (by omega)
  rw [elementOf_value cv _ _ _ (by decide) rfl]
  simp [fetchSlot, fetchReal, SqlValue.columnDouble, promoteSlot, Slot.number?, Slot.isNA,
    classFromDatatype, notNaN]

theorem elementOf_leastInteger (dt : DataType) (hdt : dt = .int ∨ dt = .int64 ∨ dt = .real) :
    (elementOf cv dt .int (.integer leastInteger)).number? (classFromDatatype dt) = none := by
  have missing := promoteSlot_missing dt hdt
  rw [elementOf_value cv _ _ _ (by decide) rfl]
  exact if_pos missing

/-- In a column that starts untyped or 32 bits wide, only -2^31 can be lost. -/
theorem numberKept_integers (plain : source.withAltTypes = false) (T : DataType)
    (cells : List SqlValue) (h : T = .unknown ∨ T = .int)
    (stored : ∀ cell ∈ cells, StoredInteger cell) (k : Nat) (v : Int64)
    (hk : cells[k]? = some (.integer v)) :
    NumberKept cv source T cells k v ↔
      (v = leastInteger → (cells.take k).any isWide = true) := by
  have row := typeTrace_getElem? source T cells k _ hk
  have read := typeTrace_read source T cells _ _ (List.mem_of_getElem? row) rfl
  have upTo : finalType source T (cells.take (k + 1)) =
      if (cells.take k).any isWide || needs64Bit v then .int64 else .int := by
    rw [finalType_integers source plain T _ h (fun c hc => stored c (List.mem_of_mem_take hc)),
      List.take_add_one, hk]
    simp [isWide, SqlValue.isNull]
  have regular : v ≠ naInteger64 := stored _ (List.mem_of_getElem? hk)
  rw [NumberKept]
  rw [upTo] at read ⊢
  cases wide : (cells.take k).any isWide || needs64Bit v with
  | true =>
      simp only [wide, ite_true, reduceCtorEq, false_and, or_false] at read ⊢
      rw [← read]
      refine iff_of_true (elementOf_integer_wide cv v regular) ?_
      rintro rfl
      simpa [show needs64Bit leastInteger = false by decide] using wide
  | false =>
      simp only [wide, Bool.false_eq_true, ite_false, true_and] at read ⊢
      have hdt : vectorType source T cells = .int ∨ vectorType source T cells = .int64 ∨
          vectorType source T cells = .real := by
        obtain same | wider := read
        · exact Or.inl same.symm
        · exact Or.inr wider
      obtain ⟨earlier, narrow⟩ := Bool.or_eq_false_iff.mp wide
      by_cases least : v = leastInteger
      · subst least
        simp [elementOf_leastInteger cv _ hdt, earlier]
      · refine iff_of_true ?_ (fun same => absurd same least)
        refine elementOf_integer_narrow cv _ _ v narrow ?_ (Or.inl ⟨rfl, hdt⟩)
        intro same
        exact least (Int64.toInt_inj.mp same)

theorem number_other (T : DataType) (v : Int64)
    (h : T ≠ .unknown ∧ T ≠ .int ∧ T ≠ .int64 ∧ T ≠ .real) :
    (elementOf cv T T (.integer v)).number? (classFromDatatype T) = none := by
  obtain ⟨typed, notInt, notWide, notReal⟩ := h
  rw [elementOf_value cv _ _ _ typed rfl]
  cases T with
  | unknown | int | int64 | real => contradiction
  | bool | string | blob | date | datetime | datetimetz | time =>
      simp [fetchSlot, promoteSlot, Slot.number?, Slot.isNA, classFromDatatype]

theorem integersKept_iff_safe (fuel : Nat) (enough : appendFuel ≤ fuel)
    (plain : source.withAltTypes = false) (asBigint : Bigint → Sexp → Sexp) (dt : DataType)
    (nMax : Int) (cells : List SqlValue) (stored : ∀ cell ∈ cells, StoredInteger cell)
    (short : cells.length < 2 ^ 31) :
    IntegersKept cv source fuel asBigint dt nMax cells ↔
      IntegersSafe (initialType dt) cells := by
  rw [integersKept_iff_numbers cv source fuel enough asBigint dt nMax cells stored short]
  generalize initialType dt = T
  cases T with
  | unknown | int =>
      constructor
      · intro kept k hk
        have number := kept k leastInteger hk
        exact (numberKept_integers cv source plain _ cells (by decide) stored k _ hk).mp number rfl
      · intro safe k v hk
        refine (numberKept_integers cv source plain _ cells (by decide) stored k v hk).mpr ?_
        rintro rfl
        exact safe k hk
  | int64 =>
      refine iff_of_true ?_ trivial
      intro k v hk
      rw [numberKept_settled cv source .int64 cells k v (by decide) (by decide)]
      exact elementOf_integer_wide cv v (stored _ (List.mem_of_getElem? hk))
  | real =>
      constructor
      · intro kept v hv
        obtain ⟨k, hk⟩ := List.getElem?_of_mem hv
        have number := kept k v hk
        rwa [numberKept_settled cv source .real cells k v (by decide) (by decide),
          numberKept_real cv v] at number
      · intro safe k v hk
        rw [numberKept_settled cv source .real cells k v (by decide) (by decide),
          numberKept_real cv v]
        exact safe v (List.mem_of_getElem? hk)
  | bool | string | blob | date | datetime | datetimetz | time =>
      constructor
      · intro kept cell hcell
        obtain ⟨k, hk⟩ := List.getElem?_of_mem hcell
        cases cell with
        | null => rfl
        | integer v =>
            have number := kept k v hk
            rw [numberKept_settled cv source _ cells k v (by decide) (by decide),
              number_other cv _ v (by decide)] at number
            cases number
        | real r | text b | blob b => exact (stored _ hcell).elim
      · intro nulls k v hk
        cases nulls _ (List.mem_of_getElem? hk)

/-- Exactly when the integers of a column survive. -/
theorem integersKept_iff (fuel : Nat) (enough : appendFuel ≤ fuel)
    (plain : source.withAltTypes = false) (asBigint : Bigint → Sexp → Sexp) (dt : DataType)
    (nMax : Int) (cells : List SqlValue) (stored : ∀ cell ∈ cells, StoredInteger cell) :
    IntegersKept cv source fuel asBigint dt nMax cells ↔
      cells.length < 2 ^ 31 ∧ IntegersSafe (initialType dt) cells := by
  have safe (short : cells.length < 2 ^ 31) :=
    integersKept_iff_safe cv source fuel enough plain asBigint dt nMax cells stored short
  constructor
  · intro kept
    obtain ⟨c, x, _, run, _⟩ := id kept
    have short := reaches_cInt.mp (reaches_of_fetchColumn cv fuel _ c cells x run)
    exact ⟨short, (safe short).mp kept⟩
  · rintro ⟨short, kept⟩
    exact (safe short).mpr kept

theorem integersKept_iff_wideFirst :
    IntegersKept noConversions ⟨none, false⟩ 3 (fun _ x => x) .unknown (-1)
      [.integer 4294967296, .null, .integer leastInteger] := by
  refine (integersKept_iff noConversions ⟨none, false⟩ 3 (by decide) rfl _ _ _ _
    (by decide)).mpr ⟨by decide, ?_⟩
  intro k hk
  match k with
  | 0 => exact absurd hk (by decide)
  | 1 => exact absurd hk (by decide)
  | k + 2 => rfl

/-- -2^31 alone comes back as a missing value. -/
theorem leastInteger_lost :
    ¬ IntegersKept noConversions ⟨none, false⟩ 3 (fun _ x => x) .unknown (-1)
      [.integer leastInteger] := by
  have stored : ∀ cell ∈ [SqlValue.integer leastInteger], StoredInteger cell := by decide
  rw [integersKept_iff_numbers noConversions _ 3 (by decide) _ _ _ _ stored (by decide)]
  intro kept
  have earlier := (numberKept_integers noConversions ⟨none, false⟩ rfl .unknown
    [.integer leastInteger] (Or.inl rfl) stored 0 leastInteger rfl).mp
    (kept 0 leastInteger rfl) rfl
  cases earlier

end RSQLite
