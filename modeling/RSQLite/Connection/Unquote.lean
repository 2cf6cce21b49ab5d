import RSQLite.Connection.Quote

/-!
`dbUnquoteIdentifier()`: a quoted identifier is taken apart with a regular expression, which
can match what `dbQuoteIdentifier()` made of one or two nonempty names in one way only.
-/
namespace RSQLite

open Quoted

/-- `(?:[^`]|``)*` -/
def pairedRx : Bytes → Bool
  | [] => true
  | [c] => c != 96
  | c :: c' :: z => if c = 96 then c' == 96 && pairedRx z else pairedRx (c' :: z)

/-- `[^`. ]+` -/
def plainRx (z : Bytes) : Bool := z != [] && z.all (fun c => c != 96 && c != 46 && c != 32)

/-- `id_rx`, with its group that has matched. -/
def idRx (z : Bytes) : Option Bytes :=
  match z with
  | [] => none
  | c :: z' =>
      if c = 96 ∧ z'.getLast? = some 96 ∧ z'.dropLast ≠ [] ∧ pairedRx z'.dropLast then
        some z'.dropLast
      else if plainRx (c :: z') then some (c :: z') else none

/-- The second half of the expression, which may be empty. -/
def tableRx (z : Bytes) : Option Bytes := if z = [] then some [] else idRx z

/-- A schema up to this dot, and a table behind it. -/
def splitRx (z : Bytes) (i : Nat) : Option (Bytes × Bytes) :=
  if z[i]? = some 46 then
    match idRx (z.take i), tableRx (z.drop (i + 1)) with
    | some schema, some table => some (schema, table)
    | _, _ => none
  else none

/-- All ways in which the expression matches. -/
def matchesRx (z : Bytes) : List (Bytes × Bytes) :=
  ((tableRx z).map (fun table => ([], table))).toList ++
    (List.range z.length).filterMap (splitRx z)

/-- `gsub("``", "`", x)` -/
def undoubled : Bytes → Bytes
  | [] => []
  | [c] => [c]
  | c :: c' :: z =>
      if c = 96 ∧ c' = 96 then 96 :: undoubled z else c :: undoubled (c' :: z)

/-- An `Id` with a schema and a table, each of which can be absent. -/
structure TableId where
  schema : Option Bytes
  table : Option Bytes
deriving DecidableEq, Repr

def asTable (schema table : Bytes) : TableId where
  schema := if schema = [] then none else some schema
  table := if table = [] then none else some table

/-- `dbUnquoteIdentifier()` of one string. -/
def dbUnquoteIdentifier (x : Bytes) : Except Bytes TableId :=
  match (matchesRx x).head? with
  | none => .error (ascii "Can't unquote " ++ x)
  | some (schema, table) => .ok (asTable (undoubled schema) (undoubled table))

theorem pairedRx_doubled (x : Bytes) : pairedRx (doubled 96 x) = true := by
  induction x with
  | nil => rfl
  | cons c x ih =>
      by_cases delimiter : c = 96
      · rw [delimiter, doubled_delimiter, pairedRx, if_pos rfl, ih]
        rfl
      · rw [doubled_other c x delimiter]
        cases next : doubled 96 x with
        | nil => simpa only [pairedRx, bne_iff_ne] using delimiter
        | cons c' z =>
            rw [pairedRx, if_neg delimiter, ← next]
            exact ih

theorem doubled_of_pairedRx (z : Bytes) : pairedRx z = true → ∃ x, z = doubled 96 x := by
  induction z using pairedRx.induct with
  | case1 => exact fun _ => ⟨[], rfl⟩
  | case2 c =>
      intro other
      refine ⟨[c], ?_⟩
      rw [doubled_other c [] (bne_iff_ne.mp other)]
      rfl
  | case3 c' z ih =>
      intro paired
      rw [pairedRx, if_pos rfl, Bool.and_eq_true, beq_iff_eq] at paired
      obtain ⟨rfl, paired⟩ := paired
      obtain ⟨x, rfl⟩ := ih paired
      exact ⟨96 :: x, (doubled_delimiter x).symm⟩
  | case4 c c' z other ih =>
      intro paired
      rw [pairedRx, if_neg other] at paired
      obtain ⟨x, split⟩ := ih paired
      exact ⟨c :: x, by rw [split, doubled_other c x other]⟩

theorem undoubled_doubled (x : Bytes) : undoubled (doubled 96 x) = x := by
  induction x with
  | nil => rfl
  | cons c x ih =>
      by_cases delimiter : c = 96
      · rw [delimiter, doubled_delimiter, undoubled, if_pos ⟨rfl, rfl⟩, ih]
      · rw [doubled_other c x delimiter]
        cases next : doubled 96 x with
        | nil =>
            rw [next] at ih
            rw [undoubled, ← ih]
            rfl
        | cons c' z =>
            rw [undoubled, if_neg (fun both => delimiter both.1), ← next, ih]

theorem idRx_backtick (z : Bytes) (body : Bytes) :
    idRx (96 :: z) = some body ↔ ∃ x, x ≠ [] ∧ z = doubled 96 x ++ [96] ∧ body = doubled 96 x := by
  have plain : plainRx (96 :: z) = false := rfl
  rw [idRx]
  simp only [plain, Bool.false_eq_true, if_false, true_and]
  constructor
  · intro found
    split at found
    · next quoted_ =>
        obtain ⟨last, nonempty, paired⟩ := quoted_
        obtain ⟨x, split⟩ := doubled_of_pairedRx _ paired
        rw [Option.some.injEq] at found
        refine ⟨x, ?_, ?_, found.symm.trans split⟩
        · rintro rfl
          exact nonempty split
        · rw [← split]
          exact (List.dropLast_append_getLast? 96 last).symm
    · cases found
  · rintro ⟨x, nonempty, rfl, rfl⟩
    have nonempty' : doubled 96 x ≠ [] := fun empty => nonempty ((doubled_eq_nil x).mp empty)
    rw [List.dropLast_concat, if_pos ⟨List.getLast?_concat, nonempty', pairedRx_doubled x⟩]

theorem splitRx_some (z : Bytes) (i : Nat) (schema table : Bytes) :
    splitRx z i = some (schema, table) ↔ z[i]? = some 46 ∧ idRx (z.take i) = some schema ∧
      tableRx (z.drop (i + 1)) = some table := by
  rw [splitRx]
  by_cases dot : z[i]? = some 46
  · rw [if_pos dot]
    cases first : idRx (z.take i) with
    | none => exact iff_of_false (fun none => by cases none) (fun both => by cases both.2.1)
    | some s =>
        cases second : tableRx (z.drop (i + 1)) with
        | none => exact iff_of_false (fun none => by cases none) (fun both => by cases both.2.2)
        | some t =>
            simp only [Option.some.injEq, Prod.mk.injEq, dot, true_and]
  · rw [if_neg dot]
    exact iff_of_false (fun none => by cases none) (fun both => dot both.1)

/-- A match is a table alone, or a schema, a dot and a table. -/
theorem mem_matchesRx (z schema table : Bytes) : (schema, table) ∈ matchesRx z ↔
    (schema = [] ∧ tableRx z = some table) ∨
      ∃ w v, z = w ++ 46 :: v ∧ idRx w = some schema ∧ tableRx v = some table := by
  have alone : (schema, table) ∈ ((tableRx z).map (fun table => (([] : Bytes), table))).toList ↔
      schema = [] ∧ tableRx z = some table := by
    rw [Option.mem_toList, Option.map_eq_some_iff]
    constructor
    · rintro ⟨t, found, same⟩
      cases same
      exact ⟨rfl, found⟩
    · rintro ⟨rfl, found⟩
      exact ⟨table, found, rfl⟩
  rw [matchesRx, List.mem_append, alone, List.mem_filterMap]
  refine or_congr Iff.rfl ?_
  constructor
  · rintro ⟨i, _, found⟩
    obtain ⟨dot, first, second⟩ := (splitRx_some z i schema table).mp found
    obtain ⟨inside, dot'⟩ := List.getElem?_eq_some_iff.mp dot
    refine ⟨z.take i, z.drop (i + 1), ?_, first, second⟩
    rw [← dot', ← List.drop_eq_getElem_cons inside, List.take_append_drop]
  · rintro ⟨w, v, rfl, first, second⟩
    refine ⟨w.length, ?_, (splitRx_some _ _ schema table).mpr ⟨?_, ?_, ?_⟩⟩
    · rw [List.mem_range, List.length_append, List.length_cons]
      omega
    · rw [List.getElem?_append_right (Nat.le_refl _), Nat.sub_self]
      rfl
    · rw [List.take_left]
      exact first
    · rw [← List.drop_drop, List.drop_left]
      exact second

/-- A schema that begins with a backtick is a quoted name, which can be split off in one way. -/
theorem schema_quoted (z w v schema : Bytes) (split : 96 :: z = w ++ 46 :: v)
    (found : idRx w = some schema) :
    ∃ x, x ≠ [] ∧ schema = doubled 96 x ∧ z = doubled 96 x ++ 96 :: 46 :: v := by
  cases w with
  | nil => cases found
  | cons c w =>
      obtain ⟨rfl, rest⟩ := List.cons.inj split
      obtain ⟨x, nonempty, rfl, rfl⟩ := (idRx_backtick w schema).mp found
      refine ⟨x, nonempty, rfl, ?_⟩
      change z = doubled 96 x ++ [96] ++ 46 :: v at rest
      rw [rest, List.append_assoc]
      rfl

theorem matchesRx_one (x schema table : Bytes) : (schema, table) ∈ matchesRx (quoteIdentifier x) ↔
    x ≠ [] ∧ schema = [] ∧ table = doubled 96 x := by
  have notEmpty : quoteIdentifier x ≠ [] := List.cons_ne_nil _ _
  rw [mem_matchesRx, tableRx, if_neg notEmpty, quoteIdentifier, quoted, idRx_backtick]
  constructor
  · rintro (⟨empty, y, nonempty, same, read⟩ | ⟨w, v, split, found, _⟩)
    · obtain ⟨rfl, _⟩ := doubled_unique x y [] [] (by decide) (by decide) same
      exact ⟨nonempty, empty, read⟩
    · obtain ⟨y, _, _, same⟩ := schema_quoted _ w v schema split found
      have unique := doubled_unique x y [] (46 :: v) (by decide) (by simp) same
      cases unique.2
  · rintro ⟨nonempty, empty, rfl⟩
    exact .inl ⟨empty, x, nonempty, rfl, rfl⟩

/-- Two quoted names with a dot between them are matched as schema and table, unless one of
them is empty. -/
theorem matchesRx_two (s t schema table : Bytes) :
    (schema, table) ∈ matchesRx (quoteIdentifier s ++ 46 :: quoteIdentifier t) ↔
      s ≠ [] ∧ t ≠ [] ∧ schema = doubled 96 s ∧ table = doubled 96 t := by
  have text : quoteIdentifier s ++ 46 :: quoteIdentifier t =
      96 :: (doubled 96 s ++ 96 :: 46 :: quoteIdentifier t) := by
    rw [quoteIdentifier, quoted, List.cons_append, List.append_assoc]
    rfl
  have notEmpty : quoteIdentifier t ≠ [] := List.cons_ne_nil _ _
  have second : ∀ table, tableRx (quoteIdentifier t) = some table ↔
      t ≠ [] ∧ table = doubled 96 t := by
    intro table
    rw [tableRx, if_neg notEmpty, quoteIdentifier, quoted, idRx_backtick]
    constructor
    · rintro ⟨y, nonempty, same, read⟩
      obtain ⟨rfl, _⟩ := doubled_unique t y [] [] (by decide) (by decide) same
      exact ⟨nonempty, read⟩
    · rintro ⟨nonempty, rfl⟩
      exact ⟨t, nonempty, rfl, rfl⟩
  rw [mem_matchesRx, text, tableRx, if_neg (List.cons_ne_nil _ _), idRx_backtick]
  constructor
  · rintro (⟨_, y, _, same, _⟩ | ⟨w, v, split, found, found'⟩)
    · have unique := doubled_unique s y (46 :: quoteIdentifier t) [] (by simp) (by decide) same
      cases unique.2
    · obtain ⟨y, nonempty, read, same⟩ := schema_quoted _ w v schema split found
      obtain ⟨rfl, rest⟩ := doubled_unique s y (46 :: quoteIdentifier t) (46 :: v) (by simp)
        (by simp) same
      rw [← (List.cons.inj rest).2, second] at found'
      exact ⟨nonempty, found'.1, read, found'.2⟩
  · rintro ⟨nonempty, nonempty', rfl, rfl⟩
    refine .inr ⟨quoteIdentifier s, quoteIdentifier t, text.symm, ?_,
      (second _).mpr ⟨nonempty', rfl⟩⟩
    exact (idRx_backtick _ _).mpr ⟨s, nonempty, rfl, rfl⟩

theorem dbUnquoteIdentifier_unique (z schema table : Bytes)
    (unique : ∀ m, m ∈ matchesRx z ↔ m = (schema, table)) :
    dbUnquoteIdentifier z = .ok (asTable (undoubled schema) (undoubled table)) := by
  rw [dbUnquoteIdentifier]
  cases found : matchesRx z with
  | nil =>
      have member := (unique _).mpr rfl
      rw [found] at member
      cases member
  | cons m ms =>
      have first : m ∈ matchesRx z := by
        rw [found]
        exact List.mem_cons_self
      rw [(unique m).mp first]
      rfl

theorem dbUnquoteIdentifier_refused (z : Bytes) (none_ : ∀ m, m ∉ matchesRx z) :
    dbUnquoteIdentifier z = .error (ascii "Can't unquote " ++ z) := by
  rw [dbUnquoteIdentifier, List.eq_nil_iff_forall_not_mem.mpr none_]
  rfl

theorem dbUnquoteIdentifier_one (x : Bytes) : dbUnquoteIdentifier (quoteIdentifier x) =
    if x = [] then .error (ascii "Can't unquote " ++ quoteIdentifier x)
    else .ok ⟨none, some x⟩ := by
  split
  · next empty =>
      refine dbUnquoteIdentifier_refused _ (fun m member => ?_)
      exact ((matchesRx_one x m.1 m.2).mp member).1 empty
  · next nonempty =>
      rw [dbUnquoteIdentifier_unique _ [] (doubled 96 x), undoubled_doubled, asTable,
        if_neg nonempty]
      · rfl
      intro m
      rw [Prod.ext_iff]
      exact (matchesRx_one x m.1 m.2).trans (and_iff_right nonempty)

theorem dbUnquoteIdentifier_two (s t : Bytes) :
    dbUnquoteIdentifier (quoteIdentifier s ++ 46 :: quoteIdentifier t) =
      if s = [] ∨ t = [] then
        .error (ascii "Can't unquote " ++ (quoteIdentifier s ++ 46 :: quoteIdentifier t))
      else .ok ⟨some s, some t⟩ := by
  split
  · next empty =>
      refine dbUnquoteIdentifier_refused _ (fun m member => ?_)
      obtain ⟨nonempty, nonempty', _⟩ := (matchesRx_two s t m.1 m.2).mp member
      exact empty.elim nonempty nonempty'
  · next nonempty =>
      obtain ⟨nonempty, nonempty'⟩ := not_or.mp nonempty
      rw [dbUnquoteIdentifier_unique _ (doubled 96 s) (doubled 96 t), undoubled_doubled,
        undoubled_doubled, asTable, if_neg nonempty, if_neg nonempty']
      intro m
      rw [Prod.ext_iff]
      exact (matchesRx_two s t m.1 m.2).trans
        ((and_iff_right nonempty).trans (and_iff_right nonempty'))

end RSQLite
