import RSQLite.Connection.Engine
import RSQLite.Library.Traverse
import RSQLite.R.Table

/-!
Which columns of a data frame meet which columns of a table. Names are matched exactly, or,
if as many names agree in lower case position by position, by their positions; the types of
a new table are looked up by exact names only.
-/
namespace RSQLite

variable {χ : Type} (tolower : String → String)

/-- The names agree by position, but for letter case, and not all of them are equal. -/
def RenamedIgnoringCase (names colNames : List String) : Prop :=
  colNames.length = names.length ∧ names ≠ colNames ∧ names.map tolower = colNames.map tolower

instance (names colNames : List String) : Decidable (RenamedIgnoringCase tolower names colNames) :=
  inferInstanceAs (Decidable (_ ∧ _ ∧ _))

theorem matchCol_cases (names colNames warnings names' : List String)
    (matched : matchCol tolower names colNames = .ok (warnings, names')) :
    RenamedIgnoringCase tolower names colNames ∧ names' = colNames ∨
      ¬ RenamedIgnoringCase tolower names colNames ∧ names' = names ∧ names ⊆ colNames := by
  rw [matchCol] at matched
  split at matched
  · next renamed =>
      cases matched
      exact Or.inl ⟨renamed, rfl⟩
  · next kept =>
      split at matched
      · next all =>
          cases matched
          refine Or.inr ⟨kept, rfl, fun name member => ?_⟩
          exact of_decide_eq_true (List.all_eq_true.mp all name member)
      · cases matched

/-- A column but for its name. -/
def FrameColumn.content (column : FrameColumn χ) : Parameter χ × List String :=
  (column.value, column.classes)

theorem zipWith_left {α β : Type} (xs : List α) (ys : List β) (length : ys.length = xs.length) :
    List.zipWith (fun x _ => x) xs ys = xs := by
  rw [← List.map_uncurry_zip_eq_zipWith]
  exact List.map_fst_zip (Nat.le_of_eq length.symm)

theorem zipWith_right {α β : Type} (xs : List α) (ys : List β) (length : ys.length = xs.length) :
    List.zipWith (fun _ y => y) xs ys = ys := by
  rw [← List.map_uncurry_zip_eq_zipWith]
  exact List.map_snd_zip (Nat.le_of_eq length)

theorem names_withNames (value : Frame χ) (names : List String)
    (length : names.length = value.names.length) : (value.withNames names).names = names := by
  rw [Frame.names, List.length_map] at length
  rw [Frame.names, Frame.withNames, List.map_zipWith]
  exact zipWith_right value.columns names length

theorem content_withNames (value : Frame χ) (names : List String)
    (length : names.length = value.names.length) :
    (value.withNames names).columns.map FrameColumn.content =
      value.columns.map FrameColumn.content := by
  rw [Frame.names, List.length_map] at length
  conv_rhs => rw [← zipWith_left value.columns names length, List.map_zipWith]
  rw [Frame.withNames, List.map_zipWith]
  rfl

/-- What appending `value` under the names of `value'` keeps: only columns of the table are
named, all columns are there in their order, a name of the table stays, and any other name
becomes one that differs in letter case only. -/
structure AppendsByName (colNames : List String) (value value' : Frame χ) : Prop where
  known : value'.names ⊆ colNames
  columns : value'.columns.map FrameColumn.content = value.columns.map FrameColumn.content
  exact : ∀ (j : Nat) (name name' : String), value.names[j]? = some name →
    value'.names[j]? = some name' → name ∈ colNames → name' = name
  folded : ∀ (j : Nat) (name name' : String), value.names[j]? = some name →
    value'.names[j]? = some name' → name ∉ colNames → tolower name' = tolower name

theorem tolower_eq_of_position {names colNames : List String}
    (same : names.map tolower = colNames.map tolower) {j : Nat} {name name' : String}
    (at_j : names[j]? = some name) (at_j' : colNames[j]? = some name') :
    tolower name' = tolower name := by
  have element := congrArg (·[j]?) same
  simpa only [List.getElem?_map, at_j, at_j', Option.map_some, Option.some.injEq, eq_comm]
    using element

/-- An append goes by the names, unless names are matched ignoring case while one of them is
exactly that of a table column at another position. -/
theorem appendsByName_iff (colNames : List String) (value : Frame χ)
    (warnings names' : List String)
    (matched : matchCol tolower value.names colNames = .ok (warnings, names')) :
    AppendsByName tolower colNames value (value.withNames names') ↔
      ¬ (RenamedIgnoringCase tolower value.names colNames ∧
        ∃ (j : Nat) (name : String), value.names[j]? = some name ∧ name ∈ colNames ∧
          colNames[j]? ≠ some name) := by
  obtain ⟨renamed, rfl⟩ | ⟨kept, rfl, subset⟩ :=
    matchCol_cases tolower value.names colNames warnings names' matched
  · have length := renamed.1
    have after := names_withNames value names' length
    constructor
    · rintro appends ⟨_, j, name, at_j, member, elsewhere⟩
      obtain ⟨inside, _⟩ := List.getElem?_eq_some_iff.mp at_j
      have inside' : j < names'.length := by
        rw [length]
        exact inside
      have at_j' := List.getElem?_eq_getElem inside'
      have there : (value.withNames names').names[j]? = some names'[j] := by
        rw [after]
        exact at_j'
      have same := appends.exact j name names'[j] at_j there member
      exact elsewhere (at_j'.trans (congrArg some same))
    · intro distinct
      refine ⟨?_, content_withNames value names' length, ?_, ?_⟩
      · rw [after]
        exact List.Subset.refl _
      · intro j name name' at_j at_j' member
        rw [after] at at_j'
        by_contra differ
        refine distinct ⟨renamed, j, name, at_j, member, fun same => differ ?_⟩
        exact Option.some.inj (at_j'.symm.trans same)
      · intro j name name' at_j at_j' _
        rw [after] at at_j'
        exact tolower_eq_of_position tolower renamed.2.2 at_j at_j'
  · have after := names_withNames value value.names rfl
    refine ⟨fun _ clash => kept clash.1, fun _ => ⟨?_, ?_, ?_, ?_⟩⟩
    · rw [after]
      exact subset
    · exact content_withNames value value.names rfl
    · intro j name name' at_j at_j' _
      rw [after, at_j] at at_j'
      exact (Option.some.inj at_j').symm
    · intro j name name' at_j _ unknown
      exact absurd (subset (List.mem_of_getElem? at_j)) unknown

/-- Lower case, as far as ASCII letters and one more letter go. -/
def umlautLower (name : String) : String :=
  String.ofList (name.toList.map (fun c => if c = 'Ä' then 'ä' else c.toLower))

def twoColumns (first second : String) : Frame Unit where
  columns := [⟨first, .vector (.int [1]), []⟩, ⟨second, .vector (.int [2]), []⟩]
  nrow := 1
  lengths column member := by
    rw [List.mem_cons, List.mem_singleton] at member
    obtain rfl | rfl := member <;> rfl

/-- Permuted columns are matched by their names. -/
theorem appendsByName_iff_permuted :
    ∃ warnings names', matchCol umlautLower (twoColumns "b" "a").names ["a", "b"] =
        .ok (warnings, names') ∧
      AppendsByName umlautLower ["a", "b"] (twoColumns "b" "a")
        ((twoColumns "b" "a").withNames names') := by
  have matched : matchCol umlautLower (twoColumns "b" "a").names ["a", "b"] =
      .ok ([], ["b", "a"]) := by decide
  refine ⟨_, _, matched, (appendsByName_iff umlautLower _ _ _ _ matched).mpr ?_⟩
  exact fun clash => absurd clash.1 (by decide)

/-- Two table columns that only R takes for letter cases of one name: they are exchanged. -/
theorem append_exchanges :
    (["Ä", "ä"].map foldCase).Nodup ∧ (twoColumns "ä" "Ä").names.Nodup ∧
    ∃ warnings names', matchCol umlautLower (twoColumns "ä" "Ä").names ["Ä", "ä"] =
        .ok (warnings, names') ∧
      ((twoColumns "ä" "Ä").withNames names').names = ["Ä", "ä"] ∧
      ¬ AppendsByName umlautLower ["Ä", "ä"] (twoColumns "ä" "Ä")
        ((twoColumns "ä" "Ä").withNames names') := by
  have matched : matchCol umlautLower (twoColumns "ä" "Ä").names ["Ä", "ä"] =
      .ok ([matchedIgnoringCase], ["Ä", "ä"]) := by decide
  refine ⟨by decide, by decide, _, _, matched, rfl, fun appends => ?_⟩
  have same := appends.exact 0 "ä" "Ä" rfl rfl (by decide)
  exact absurd same (by decide)

variable (extendedTypes : Bool)

/-- What the types of a new table have to be: one for each column, under its name and in the
order of the data frame, and that of the user where the name is one of `fieldTypes` or was
matched to one. -/
structure HonoursTypes (data : Frame χ) (fieldTypes : List (String × String))
    (result : List (Option (String × String))) : Prop where
  names : result.map (Option.map Prod.fst) = data.names.map some
  exact : ∀ (j : Nat) (column : FrameColumn χ) (type : String), data.columns[j]? = some column →
    (column.name, type) ∈ fieldTypes → result[j]? = some (some (column.name, type))
  matched : RenamedIgnoringCase tolower (fieldTypes.map Prod.fst) data.names →
    ∀ (j : Nat) (column : FrameColumn χ) (field : String × String),
      data.columns[j]? = some column → fieldTypes[j]? = some field →
      column.name ∉ fieldTypes.map Prod.fst → result[j]? = some (some (column.name, field.2))
  automatic : ¬ RenamedIgnoringCase tolower (fieldTypes.map Prod.fst) data.names →
    ∀ (j : Nat) (column : FrameColumn χ), data.columns[j]? = some column →
      column.name ∉ fieldTypes.map Prod.fst → ∃ type, column.dataType extendedTypes = .ok type ∧
        result[j]? = some (some (column.name, type))

theorem column?_found (data : Frame χ) (name : String) (column : FrameColumn χ)
    (found : (data.column? name).elim (.error undefinedColumns) Except.ok = .ok column) :
    name ≠ "" ∧ column ∈ data.columns ∧ column.name = name := by
  cases searched : data.column? name with
  | none =>
      rw [searched] at found
      cases found
  | some column' =>
      rw [searched] at found
      cases found
      rw [Frame.column?] at searched
      split at searched
      · cases searched
      · next nonempty =>
          have same := List.find?_some searched
          exact ⟨nonempty, List.mem_of_find?_eq_some searched, of_decide_eq_true same⟩

theorem dataType_named (column : FrameColumn χ) (entry : String × String)
    (typed : (column.dataType extendedTypes).map (Prod.mk column.name) = .ok entry) :
    entry.1 = column.name ∧ column.dataType extendedTypes = .ok entry.2 := by
  cases type : column.dataType extendedTypes with
  | error message =>
      rw [type] at typed
      cases typed
  | ok type' =>
      rw [type] at typed
      cases typed
      exact ⟨rfl, rfl⟩

/-- The entry of an automatic type. -/
def AutoType (data : Frame χ) (name : String) (entry : String × String) : Prop :=
  name ≠ "" ∧ entry.1 = name ∧ ∃ column ∈ data.columns, column.name = name ∧
    column.dataType extendedTypes = .ok entry.2

theorem dbDataTypes_select (data : Frame χ) (names : List String)
    (selected : List (FrameColumn χ)) (types : List (String × String))
    (select : data.select names = .ok selected)
    (typed : dbDataTypes extendedTypes selected = .ok types) :
    List.Forall₂ (AutoType extendedTypes data) names types := by
  have columns := (Traverse.mapM_ok_iff _ names selected).mp select
  have entries := (Traverse.mapM_ok_iff _ selected types).mp typed
  clear select typed
  induction columns generalizing types with
  | nil =>
      cases entries
      exact .nil
  | cons found _ ih =>
      cases entries with
      | cons typed others =>
          obtain ⟨nonempty, member, same⟩ := column?_found data _ _ found
          obtain ⟨named, type⟩ := dataType_named extendedTypes _ _ typed
          exact .cons ⟨nonempty, named.trans same, _, member, same, type⟩ (ih _ others)

theorem automatic_type (data : Frame χ) (distinct : data.names.Nodup) (names : List String)
    (types : List (String × String)) (auto : List.Forall₂ (AutoType extendedTypes data) names types)
    (column : FrameColumn χ) (member : column ∈ data.columns) (listed : column.name ∈ names) :
    column.name ≠ "" ∧ ∃ type, column.dataType extendedTypes = .ok type ∧
      Keyed.lookup types column.name = some type := by
  obtain ⟨length, related⟩ := List.forall₂_iff_get.mp auto
  have unique : ∀ other ∈ data.columns, other.name = column.name → other = column :=
    fun other there same => List.inj_on_of_nodup_map distinct there member same
  obtain ⟨i, inside, at_i⟩ := List.mem_iff_getElem.mp listed
  obtain ⟨nonempty, named, _⟩ := related i inside (length ▸ inside)
  simp only [List.get_eq_getElem, at_i] at nonempty named
  refine ⟨nonempty, ?_⟩
  cases found : Keyed.lookup types column.name with
  | none =>
      exact absurd named ((Keyed.lookup_eq_none types column.name).mp found _ (List.get_mem _ _))
  | some type =>
      obtain ⟨k, inside, at_k⟩ := List.mem_iff_getElem.mp (Keyed.mem_of_lookup _ _ _ found)
      obtain ⟨_, named', other, there, same, typed⟩ := related k (length ▸ inside) inside
      simp only [List.get_eq_getElem, at_k] at named' same typed
      obtain rfl := unique other there (same.trans named'.symm)
      exact ⟨type, typed, rfl⟩

theorem fieldDef_returns (data : Frame χ) (fieldTypes : List (String × String))
    (warnings : List String) (result : List (Option (String × String)))
    (accepted : fieldDef tolower extendedTypes data fieldTypes = .ok (warnings, result)) :
    ∃ types, List.Forall₂ (AutoType extendedTypes data)
        (data.names.filter (fun name => name ∉ fieldTypes.map Prod.fst)).eraseDups types ∧
      result = subsetNamed (fieldTypes ++ types) data.names := by
  simp only [fieldDef, bind, Except.bind] at accepted
  split at accepted
  · cases accepted
  · split at accepted
    · cases accepted
    · next selected select =>
        split at accepted
        · cases accepted
        · next types typed =>
            cases accepted
            exact ⟨types, dbDataTypes_select extendedTypes data _ selected types select typed, rfl⟩

/-- The type that each column gets. -/
theorem fieldDef_column (data : Frame χ) (distinct : data.names.Nodup)
    (fieldTypes types : List (String × String)) (distinct' : (fieldTypes.map Prod.fst).Nodup)
    (auto : List.Forall₂ (AutoType extendedTypes data)
      (data.names.filter (fun name => name ∉ fieldTypes.map Prod.fst)).eraseDups types)
    (j : Nat) (column : FrameColumn χ) (at_j : data.columns[j]? = some column)
    (nonempty : column.name ≠ "") :
    (∀ type, (column.name, type) ∈ fieldTypes →
      (subsetNamed (fieldTypes ++ types) data.names)[j]? = some (some (column.name, type))) ∧
    (column.name ∉ fieldTypes.map Prod.fst → ∃ type, column.dataType extendedTypes = .ok type ∧
      (subsetNamed (fieldTypes ++ types) data.names)[j]? = some (some (column.name, type))) := by
  have element : (subsetNamed (fieldTypes ++ types) data.names)[j]? =
      some (((Keyed.lookup fieldTypes column.name).or (Keyed.lookup types column.name)).map
        (Prod.mk column.name)) := by
    rw [subsetNamed, List.getElem?_map, Frame.names, List.getElem?_map, at_j, Option.map_some,
      Option.map_some, if_neg nonempty, Keyed.lookup_append]
  rw [element]
  constructor
  · intro type typed
    rw [(Keyed.lookup_eq_some fieldTypes distinct' _ _).mpr typed]
    rfl
  · intro untyped
    have member := List.mem_of_getElem? at_j
    have listed : column.name ∈
        (data.names.filter (fun name => name ∉ fieldTypes.map Prod.fst)).eraseDups := by
      rw [List.mem_eraseDups, List.mem_filter]
      exact ⟨List.mem_map_of_mem member, decide_eq_true untyped⟩
    obtain ⟨_, type, typed, found⟩ :=
      automatic_type extendedTypes data distinct _ types auto column member listed
    have none : Keyed.lookup fieldTypes column.name = none :=
      (Keyed.lookup_eq_none _ _).mpr (fun entry there same =>
        untyped (same ▸ List.mem_map_of_mem there))
    refine ⟨type, typed, ?_⟩
    rw [none, found]
    rfl

/-- The types of the user are honoured unless a column has no name, or a name that was
matched ignoring case would have got another type than its column has by itself. -/
theorem fieldDef_honours_iff (data : Frame χ) (distinct : data.names.Nodup)
    (fieldTypes : List (String × String)) (distinct' : (fieldTypes.map Prod.fst).Nodup)
    (warnings : List String) (result : List (Option (String × String)))
    (accepted : fieldDef tolower extendedTypes data fieldTypes = .ok (warnings, result)) :
    HonoursTypes tolower extendedTypes data fieldTypes result ↔
      "" ∉ data.names ∧ (RenamedIgnoringCase tolower (fieldTypes.map Prod.fst) data.names →
        ∀ (j : Nat) (column : FrameColumn χ) (field : String × String),
          data.columns[j]? = some column → fieldTypes[j]? = some field →
          column.name ∉ fieldTypes.map Prod.fst → column.dataType extendedTypes = .ok field.2) := by
  obtain ⟨types, auto, rfl⟩ :=
    fieldDef_returns tolower extendedTypes data fieldTypes warnings result accepted
  have typed := fieldDef_column extendedTypes data distinct fieldTypes types distinct' auto
  constructor
  · intro honours
    have named : "" ∉ data.names := by
      intro empty
      obtain ⟨j, at_j⟩ := List.getElem?_of_mem empty
      have names := congrArg (·[j]?) honours.names
      simp only [subsetNamed, List.getElem?_map, at_j, Option.map_some, ite_true, Option.map_none,
        Option.some.injEq, reduceCtorEq] at names
    refine ⟨named, fun renamed j column field at_j at_j' untyped => ?_⟩
    have nonempty : column.name ≠ "" := by
      intro empty
      exact named (empty ▸ List.mem_map_of_mem (List.mem_of_getElem? at_j))
    obtain ⟨type, own, element⟩ := (typed j column at_j nonempty).2 untyped
    have wanted := honours.matched renamed j column field at_j at_j' untyped
    rw [element] at wanted
    rw [own, (Prod.mk.inj (Option.some.inj (Option.some.inj wanted))).2]
  · rintro ⟨named, matched⟩
    have nonempty : ∀ (j : Nat) (column : FrameColumn χ), data.columns[j]? = some column →
        column.name ≠ "" := by
      intro j column at_j empty
      exact named (empty ▸ List.mem_map_of_mem (List.mem_of_getElem? at_j))
    refine ⟨?_, ?_, ?_, ?_⟩
    · apply List.ext_getElem?
      intro j
      cases at_j : data.columns[j]? with
      | none =>
          simp only [subsetNamed, Frame.names, List.getElem?_map, at_j, Option.map_none]
      | some column =>
          obtain ⟨type, element⟩ : ∃ type, (subsetNamed (fieldTypes ++ types) data.names)[j]? =
              some (some (column.name, type)) := by
            obtain ⟨exact, automatic⟩ := typed j column at_j (nonempty j column at_j)
            by_cases given : column.name ∈ fieldTypes.map Prod.fst
            · obtain ⟨⟨_, type⟩, member, rfl⟩ := List.mem_map.mp given
              exact ⟨type, exact type member⟩
            · obtain ⟨type, _, element⟩ := automatic given
              exact ⟨type, element⟩
          rw [List.getElem?_map, element, List.getElem?_map, Frame.names, List.getElem?_map, at_j]
          rfl
    · intro j column type at_j member
      exact (typed j column at_j (nonempty j column at_j)).1 type member
    · intro renamed j column field at_j at_j' untyped
      obtain ⟨type, own, element⟩ := (typed j column at_j (nonempty j column at_j)).2 untyped
      have same := matched renamed j column field at_j at_j' untyped
      obtain rfl := Except.ok.inj (own.symm.trans same)
      exact element
    · intro _ j column at_j untyped
      exact (typed j column at_j (nonempty j column at_j)).2 untyped

/-- A type for the second of two columns. -/
theorem fieldDef_honours_iff_second :
    ∃ warnings result, fieldDef umlautLower false (twoColumns "b" "a") [("a", "TEXT")] =
        .ok (warnings, result) ∧
      HonoursTypes umlautLower false (twoColumns "b" "a") [("a", "TEXT")] result := by
  have accepted : fieldDef umlautLower false (twoColumns "b" "a") [("a", "TEXT")] =
      .ok ([], [some ("b", "INTEGER"), some ("a", "TEXT")]) := by decide
  refine ⟨_, _, accepted, (fieldDef_honours_iff umlautLower false _ (by decide) _ (by decide) _ _
    accepted).mpr ⟨by decide, fun renamed => ?_⟩⟩
  exact absurd renamed (by decide)

/-- The type given for `A` is accepted for the column `a`, with the warning, and not used. -/
theorem fieldDef_drops :
    ∃ result, fieldDef umlautLower false (twoColumns "a" "b") [("A", "TEXT"), ("b", "REAL")] =
        .ok ([matchedIgnoringCase], result) ∧
      result = [some ("a", "INTEGER"), some ("b", "REAL")] ∧
      ¬ HonoursTypes umlautLower false (twoColumns "a" "b") [("A", "TEXT"), ("b", "REAL")]
        result := by
  have accepted : fieldDef umlautLower false (twoColumns "a" "b") [("A", "TEXT"), ("b", "REAL")] =
      .ok ([matchedIgnoringCase], [some ("a", "INTEGER"), some ("b", "REAL")]) := by decide
  refine ⟨_, accepted, rfl, fun honours => ?_⟩
  have wanted := honours.matched (by decide) 0 ⟨"a", .vector (.int [1]), []⟩ ("A", "TEXT") rfl rfl
    (by decide)
  exact absurd wanted (by decide)

end RSQLite
