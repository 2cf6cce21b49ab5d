import RSQLite.Column.DataSource
import RSQLite.Connection.Unquote

/-!
The tables that are listed and those that exist. A name that is asked for goes through
quoting and unquoting and is folded by R; the names of the tables are folded by SQLite, which
knows the ASCII letters only.
-/
namespace RSQLite

/-- `lower()` of SQLite. -/
def lower (x : Bytes) : Bytes := x.map upperToLower

/-- A row of `sqlite_master`. -/
structure MasterRow where
  type : Bytes
  name : Bytes
deriving DecidableEq, Repr

/-- The databases of a connection. The temporary one is there once something has been put
into it; no two names are the same for SQLite. -/
structure Catalog where
  main : List MasterRow
  temp : Option (List MasterRow)
  attached : List (Bytes × List MasterRow)
  distinct : ((ascii "main" :: ascii "temp" :: attached.map Prod.fst).map lower).Nodup

def Catalog.databases (c : Catalog) : List (Bytes × List MasterRow) :=
  (ascii "main", c.main) :: (c.temp.toList.map (fun rows => (ascii "temp", rows)) ++ c.attached)

/-- `SELECT name FROM pragma_database_list` -/
def Catalog.schemas (c : Catalog) : List Bytes := c.databases.map Prod.fst

/-- The `sqlite_master` of a schema, which is found without regard to case. -/
def Catalog.master (c : Catalog) (schema : Bytes) : List MasterRow :=
  ((c.databases.find? (fun d => lower d.1 == lower schema)).map Prod.snd).getD []

/-- The names of the tables and the views. -/
def tableNames (rows : List MasterRow) : List Bytes :=
  (rows.filter (fun row => row.type == ascii "table" || row.type == ascii "view")).map
    MasterRow.name

/-- `ORDER BY` -/
def bytesLe : Bytes → Bytes → Bool
  | [], _ => true
  | _ :: _, [] => false
  | x :: xs, y :: ys => x < y || (x == y && bytesLe xs ys)

/-- The rows of `sqliteListTablesQuery()`, with a value for `$name` or without the condition. -/
def Catalog.listTables (c : Catalog) (schema bound : Option Bytes) : List Bytes :=
  let info :=
    match schema with
    | none => c.main ++ c.temp.getD []
    | some schema => if schema ∈ c.schemas then c.master schema else []
  ((tableNames info).filter (fun n => bound.all (fun b => lower n == b))).mergeSort bytesLe

section Methods

variable (quoteId : List Bytes → Bytes) (tolower : Bytes → Bytes) (c : Catalog)

inductive TableName
  | text (x : Bytes)
  | sql (x : Bytes)
deriving DecidableEq, Repr

def TableName.quoted : TableName → Bytes
  | text x => quoteIdentifier x
  | sql x => x

def TableId.components (id : TableId) : List Bytes := id.schema.toList ++ id.table.toList

def dbListTables : List Bytes := c.listTables none none

/-- The query with `$name` bound. Without a table an empty vector is bound, and nothing found. -/
def listNamed (id : TableId) : List Bytes :=
  match id.table with
  | none => []
  | some table => c.listTables id.schema (some (tolower table))

/-- `sqliteListTablesWithName()`. The query for a schema that is not there has no parameter. -/
def sqliteListTablesWithName (name : TableName) : Except Bytes (List Bytes) := do
  let id ← dbUnquoteIdentifier name.quoted
  if id.schema.all (fun schema => decide (schema ∈ c.schemas)) then .ok (listNamed tolower c id)
  else .error (ascii "Named parameters not used in query: name")

/-- `nrow(dbFetch(rs, 1L)) > 0` -/
def anyRow (rows : List Bytes) : Bool := decide (0 < (rows.take 1).length)

/-- `dbExistsTable()` of a string. -/
def dbExistsTableNamed (name : TableName) : Except Bytes Bool :=
  (sqliteListTablesWithName tolower c name).map anyRow

/-- `dbExistsTable()` of an `Id`. -/
def dbExistsTableId (name : TableId) : Except Bytes Bool := do
  let id ← dbUnquoteIdentifier (quoteId name.components)
  if id.schema.all (fun schema => decide (schema ∈ c.schemas)) then
    .ok (anyRow (listNamed tolower c id))
  else .ok false

/-- `dbListObjects()`: the objects, and whether each of them is a prefix. -/
def dbListObjects : Option TableId → Except Bytes (List (TableId × Bool))
  | none =>
      .ok ((dbListTables c).map (fun t => (⟨none, some t⟩, false)) ++
        c.schemas.map (fun s => (⟨some s, none⟩, true)))
  | some pre => do
      let id ← dbUnquoteIdentifier (quoteId pre.components)
      -- a single component comes back as the table
      let schema := id.schema <|> id.table
      .ok ((c.listTables schema none).map (fun t => (⟨schema, some t⟩, false)))

end Methods

section Listed

variable {c : Catalog}

theorem mem_listTables (schema bound : Option Bytes) (n : Bytes) :
    n ∈ c.listTables schema bound ↔
      n ∈ c.listTables schema none ∧ ∀ b ∈ bound, lower n = b := by
  rw [Catalog.listTables.eq_def, Catalog.listTables.eq_def, List.mem_mergeSort, List.mem_mergeSort,
    List.mem_filter, List.mem_filter]
  cases bound with
  | none => simp
  | some b => simp

theorem mem_dbListTables (n : Bytes) :
    n ∈ dbListTables c ↔ n ∈ tableNames (c.main ++ c.temp.getD []) := by
  rw [dbListTables, Catalog.listTables, List.mem_mergeSort, List.mem_filter]
  exact and_iff_left rfl

theorem databases_distinct (c : Catalog) : (c.databases.map (fun d => lower d.1)).Nodup := by
  have distinct := c.distinct
  rw [Catalog.databases]
  cases temp : c.temp with
  | none =>
      simp only [List.map_cons, List.map_map, List.nodup_cons, List.mem_cons, not_or] at distinct ⊢
      exact ⟨distinct.1.2, distinct.2.2⟩
  | some rows =>
      simp only [List.map_cons, List.map_map] at distinct
      simp only [Option.toList_some, List.map_cons, List.map_nil, List.cons_append, List.nil_append]
      exact distinct

theorem master_of_mem (schema : Bytes) (rows : List MasterRow)
    (member : (schema, rows) ∈ c.databases) : c.master schema = rows := by
  rw [Catalog.master]
  cases found : c.databases.find? (fun d => lower d.1 == lower schema) with
  | none =>
      have absent := List.find?_eq_none.mp found _ member
      exact absurd (beq_self_eq_true (lower schema)) absent
  | some d =>
      have same := List.inj_on_of_nodup_map (databases_distinct c) (List.mem_of_find?_eq_some found)
        member (beq_iff_eq.mp (List.find?_some found :))
      rw [same]
      rfl

theorem mem_schemas (schema : Bytes) :
    schema ∈ c.schemas ↔ ∃ rows, (schema, rows) ∈ c.databases := by
  rw [Catalog.schemas, List.mem_map]
  constructor
  · rintro ⟨⟨_, rows⟩, member, rfl⟩
    exact ⟨rows, member⟩
  · rintro ⟨rows, member⟩
    exact ⟨_, member, rfl⟩

theorem mem_listTables_schema (schema : Bytes) (rows : List MasterRow)
    (member : (schema, rows) ∈ c.databases) (n : Bytes) :
    n ∈ c.listTables (some schema) none ↔ n ∈ tableNames rows := by
  rw [Catalog.listTables, List.mem_mergeSort, List.mem_filter]
  simp only [if_pos ((mem_schemas schema).mpr ⟨rows, member⟩), master_of_mem schema rows member]
  exact and_iff_left rfl

theorem listTables_unknown (schema : Bytes) (missing : schema ∉ c.schemas) :
    c.listTables (some schema) none = [] := by
  rw [Catalog.listTables]
  simp only [if_neg missing]
  exact List.mergeSort_nil

end Listed

section Exists

variable {quoteId : List Bytes → Bytes} {tolower : Bytes → Bytes} {c : Catalog}

/-- An `Id` is quoted component by component, with dots between them. -/
structure QuotesIds (quoteId : List Bytes → Bytes) : Prop where
  joined : ∀ components, quoteId components = [46].intercalate (components.map quoteIdentifier)

theorem QuotesIds.one (quotes : QuotesIds quoteId) (x : Bytes) :
    quoteId [x] = quoteIdentifier x := by
  rw [quotes.joined, List.map_singleton, List.intercalate_singleton]

theorem QuotesIds.two (quotes : QuotesIds quoteId) (s t : Bytes) :
    quoteId [s, t] = quoteIdentifier s ++ 46 :: quoteIdentifier t := by
  rw [quotes.joined, List.map_cons, List.map_singleton, List.intercalate_cons_cons,
    List.intercalate_singleton, List.append_assoc]
  rfl

theorem anyRow_iff (rows : List Bytes) : anyRow rows = true ↔ ∃ n, n ∈ rows := by
  cases rows with
  | nil => exact iff_of_false Bool.false_ne_true (fun some => by cases some.choose_spec)
  | cons n rows => exact iff_of_true rfl ⟨n, List.mem_cons_self⟩

/-- Some of these names is for SQLite what R makes of the name that is asked for. -/
def Found (tolower : Bytes → Bytes) (names : List Bytes) (x : Bytes) : Prop :=
  ∃ n ∈ names, lower n = tolower x

theorem listNamed_found (schema : Option Bytes) (table : Bytes) :
    anyRow (listNamed tolower c ⟨schema, some table⟩) = true ↔
      Found tolower (c.listTables schema none) table := by
  rw [anyRow_iff]
  refine exists_congr (fun n => ?_)
  rw [listNamed, mem_listTables]
  simp

theorem dbExistsTableNamed_text (x : Bytes) : dbExistsTableNamed tolower c (.text x) = .ok true ↔
    x ≠ [] ∧ Found tolower (dbListTables c) x := by
  rw [dbExistsTableNamed, sqliteListTablesWithName, TableName.quoted, dbUnquoteIdentifier_one]
  by_cases empty : x = []
  · rw [if_pos empty]
    exact iff_of_false (fun found => by cases found) (fun both => both.1 empty)
  · rw [if_neg empty, and_iff_right empty, dbListTables, ← listNamed_found]
    exact ⟨fun found => Except.ok.inj found, fun found => congrArg Except.ok found⟩

theorem dbExistsTableId_table (quotes : QuotesIds quoteId) (t : Bytes) :
    dbExistsTableId quoteId tolower c ⟨none, some t⟩ = .ok true ↔
      t ≠ [] ∧ Found tolower (dbListTables c) t := by
  have components : TableId.components ⟨none, some t⟩ = [t] := rfl
  rw [dbExistsTableId, components, quotes.one, dbUnquoteIdentifier_one]
  by_cases empty : t = []
  · rw [if_pos empty]
    exact iff_of_false (fun found => by cases found) (fun both => both.1 empty)
  · rw [if_neg empty, and_iff_right empty, dbListTables, ← listNamed_found]
    exact ⟨fun found => Except.ok.inj found, fun found => congrArg Except.ok found⟩

theorem dbExistsTableId_schema (quotes : QuotesIds quoteId) (s t : Bytes) :
    dbExistsTableId quoteId tolower c ⟨some s, some t⟩ = .ok true ↔
      (s ≠ [] ∧ t ≠ []) ∧ s ∈ c.schemas ∧ Found tolower (c.listTables (some s) none) t := by
  have components : TableId.components ⟨some s, some t⟩ = [s, t] := rfl
  rw [dbExistsTableId, components, quotes.two, dbUnquoteIdentifier_two]
  by_cases empty : s = [] ∨ t = []
  · rw [if_pos empty]
    exact iff_of_false (fun found => by cases found) (fun all => empty.elim all.1.1 all.1.2)
  · rw [if_neg empty, and_iff_right (not_or.mp empty), ← listNamed_found]
    by_cases known : s ∈ c.schemas
    · simp only [bind, Except.bind, Option.all_some, known, decide_true, if_true, true_and,
        Except.ok.injEq]
    · simp only [bind, Except.bind, Option.all_some, known, decide_false, Bool.false_eq_true,
        if_false, false_and, Except.ok.injEq]

theorem dbListObjects_schema (quotes : QuotesIds quoteId) (s : Bytes)
    (objects : List (TableId × Bool)) :
    dbListObjects quoteId c (some ⟨some s, none⟩) = .ok objects ↔
      s ≠ [] ∧ objects =
        (c.listTables (some s) none).map (fun t => (⟨some s, some t⟩, false)) := by
  have components : TableId.components ⟨some s, none⟩ = [s] := rfl
  rw [dbListObjects, components, quotes.one, dbUnquoteIdentifier_one]
  by_cases empty : s = []
  · rw [if_pos empty]
    exact iff_of_false (fun found => by cases found) (fun both => both.1 empty)
  · rw [if_neg empty, and_iff_right empty]
    exact ⟨fun found => (Except.ok.inj found).symm, fun same => congrArg Except.ok same.symm⟩

end Exists

variable (quoteId : List Bytes → Bytes) (tolower : Bytes → Bytes) (c : Catalog)

/-- What is listed exists, and what exists is listed up to the case of ASCII letters. -/
structure ListingAgrees : Prop where
  tables : ∀ t ∈ dbListTables c, dbExistsTableNamed tolower c (.text t) = .ok true
  objects : ∀ s objects, dbListObjects quoteId c (some ⟨some s, none⟩) = .ok objects →
    ∀ object ∈ objects, dbExistsTableId quoteId tolower c object.1 = .ok true
  existing : ∀ name, dbExistsTableNamed tolower c (.text name) = .ok true →
    ∃ t ∈ dbListTables c, lower t = lower name
  existingId : ∀ name, dbExistsTableId quoteId tolower c ⟨none, some name⟩ = .ok true →
    ∃ t ∈ dbListTables c, lower t = lower name
  existingIn : ∀ s name, dbExistsTableId quoteId tolower c ⟨some s, some name⟩ = .ok true →
    ∃ objects, dbListObjects quoteId c (some ⟨some s, none⟩) = .ok objects ∧
      ∃ t, (⟨some s, some t⟩, false) ∈ objects ∧ lower t = lower name

/-- R and SQLite find the same among these names. None of them is empty. -/
structure FoldsAlike (names : List Bytes) : Prop where
  nonempty : ∀ t ∈ names, t ≠ []
  found : ∀ t ∈ names, Found tolower names t
  same : ∀ name, name ≠ [] → Found tolower names name → Found lower names name

variable {quoteId tolower c}

theorem FoldsAlike.congr {names names' : List Bytes} (alike : FoldsAlike tolower names)
    (same : ∀ n, n ∈ names ↔ n ∈ names') : FoldsAlike tolower names' where
  nonempty t member := alike.nonempty t ((same t).mpr member)
  found t member := by
    obtain ⟨n, listed, folded⟩ := alike.found t ((same t).mpr member)
    exact ⟨n, (same n).mp listed, folded⟩
  same name nonempty found := by
    obtain ⟨n, listed, folded⟩ := found
    obtain ⟨n', listed', folded'⟩ := alike.same name nonempty ⟨n, (same n).mpr listed, folded⟩
    exact ⟨n', (same n').mp listed', folded'⟩

/-- The listing and the search agree exactly if R and SQLite find the same in each list. -/
theorem listingAgrees_iff (quotes : QuotesIds quoteId) :
    ListingAgrees quoteId tolower c ↔
      FoldsAlike tolower (tableNames (c.main ++ c.temp.getD [])) ∧
        ∀ s rows, (s, rows) ∈ c.databases → s ≠ [] → FoldsAlike tolower (tableNames rows) := by
  constructor
  · intro agrees
    refine ⟨?_, fun s rows member nonempty => ?_⟩
    · have exists_ := fun t listed => (dbExistsTableNamed_text t).mp (agrees.tables t listed)
      have alike : FoldsAlike tolower (dbListTables c) :=
        ⟨fun t listed => (exists_ t listed).1, fun t listed => (exists_ t listed).2,
          fun name nonempty found =>
            agrees.existing name ((dbExistsTableNamed_text name).mpr ⟨nonempty, found⟩)⟩
      exact alike.congr mem_dbListTables
    · have known := (mem_schemas s).mpr ⟨rows, member⟩
      have listed := (dbListObjects_schema (c := c) quotes s _).mpr ⟨nonempty, rfl⟩
      have exists_ : ∀ t ∈ c.listTables (some s) none,
          dbExistsTableId quoteId tolower c ⟨some s, some t⟩ = .ok true := by
        intro t inside
        have found := agrees.objects s _ listed (⟨some s, some t⟩, false)
          (List.mem_map_of_mem inside)
        exact found
      have alike : FoldsAlike tolower (c.listTables (some s) none) := by
        refine ⟨?_, ?_, ?_⟩
        · exact fun t inside => ((dbExistsTableId_schema quotes s t).mp (exists_ t inside)).1.2
        · exact fun t inside => ((dbExistsTableId_schema quotes s t).mp (exists_ t inside)).2.2
        · intro name some_ found
          obtain ⟨objects, listed', t, inside, folded⟩ := agrees.existingIn s name
            ((dbExistsTableId_schema quotes s name).mpr ⟨⟨nonempty, some_⟩, known, found⟩)
          obtain rfl := ((dbListObjects_schema quotes s objects).mp listed').2
          obtain ⟨t', inside', same⟩ := List.mem_map.mp inside
          cases same
          exact ⟨t, inside', folded⟩
      exact alike.congr (mem_listTables_schema s rows member)
  · rintro ⟨main, each⟩
    have alike := main.congr (fun n => (mem_dbListTables n).symm)
    -- the list of a schema that is there
    have alikeIn : ∀ s, s ∈ c.schemas → s ≠ [] →
        FoldsAlike tolower (c.listTables (some s) none) := by
      intro s known nonempty
      obtain ⟨rows, member⟩ := (mem_schemas s).mp known
      exact (each s rows member nonempty).congr
        (fun n => (mem_listTables_schema s rows member n).symm)
    refine ⟨fun t listed => ?_, fun s objects listed object among => ?_, fun name found => ?_,
      fun name found => ?_, fun s name found => ?_⟩
    · exact (dbExistsTableNamed_text t).mpr ⟨alike.nonempty t listed, alike.found t listed⟩
    · obtain ⟨nonempty, rfl⟩ := (dbListObjects_schema quotes s objects).mp listed
      obtain ⟨t, inside, rfl⟩ := List.mem_map.mp among
      have known : s ∈ c.schemas := by
        by_contra missing
        rw [listTables_unknown s missing] at inside
        cases inside
      have alike := alikeIn s known nonempty
      exact (dbExistsTableId_schema quotes s t).mpr
        ⟨⟨nonempty, alike.nonempty t inside⟩, known, alike.found t inside⟩
    · obtain ⟨nonempty, found⟩ := (dbExistsTableNamed_text name).mp found
      exact alike.same name nonempty found
    · obtain ⟨nonempty, found⟩ := (dbExistsTableId_table quotes name).mp found
      exact alike.same name nonempty found
    · obtain ⟨⟨nonempty, some_⟩, known, found⟩ := (dbExistsTableId_schema quotes s name).mp found
      obtain ⟨t, inside, folded⟩ := (alikeIn s known nonempty).same name some_ found
      exact ⟨_, (dbListObjects_schema quotes s _).mpr ⟨nonempty, rfl⟩, t,
        List.mem_map_of_mem inside, folded⟩

/-- `tolower()` on ASCII and on the capitals of Latin-1. -/
def tolowerLatin : Bytes → Bytes
  | [] => []
  | [c] => [upperToLower c]
  | c :: c' :: z =>
      if c = 0xc3 ∧ 0x80 ≤ c' ∧ c' ≤ 0x9e ∧ c' ≠ 0x97 then c :: (c' + 0x20) :: tolowerLatin z
      else upperToLower c :: tolowerLatin (c' :: z)

def umlautCatalog : Catalog where
  main := [⟨ascii "table", [0xc3, 0x84]⟩]
  temp := none
  attached := []
  distinct := by decide

def joinIds (components : List Bytes) : Bytes :=
  [46].intercalate (components.map quoteIdentifier)

theorem listingAgrees_iff_umlaut :
    ListingAgrees joinIds tolowerLatin umlautCatalog ↔
      FoldsAlike tolowerLatin (tableNames (umlautCatalog.main ++ umlautCatalog.temp.getD [])) ∧
        ∀ s rows, (s, rows) ∈ umlautCatalog.databases → s ≠ [] →
          FoldsAlike tolowerLatin (tableNames rows) :=
  listingAgrees_iff ⟨fun _ => rfl⟩

/-- The table is listed, and does not exist. -/
theorem listingAgrees_umlaut : ¬ ListingAgrees joinIds tolowerLatin umlautCatalog := by
  intro agrees
  have listed : ([0xc3, 0x84] : Bytes) ∈ dbListTables umlautCatalog := by
    rw [mem_dbListTables]
    decide
  have found := ((dbExistsTableNamed_text _).mp (agrees.tables _ listed)).2
  obtain ⟨n, inside, folded⟩ := found
  rw [mem_dbListTables] at inside
  have only : tableNames (umlautCatalog.main ++ umlautCatalog.temp.getD []) = [[0xc3, 0x84]] := by
    decide
  rw [only, List.mem_singleton] at inside
  rw [inside] at folded
  exact absurd folded (by decide)

end RSQLite
