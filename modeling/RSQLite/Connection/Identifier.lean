import RSQLite.Connection.Listing
import RSQLite.Library.Regex

/-!
Unquoting inverts quoting. An identifier that the expression accepts can be taken apart in one
way only, for a part that ends before a dot is never the beginning of a longer part. This holds
of all derivations of the expression, so it does not matter which of them is found first.
-/
namespace RSQLite

open Quoted Regex

theorem plainRx_dot (w v : Bytes) : plainRx (w ++ 46 :: v) = false := by
  rw [plainRx, List.all_append, List.all_cons]
  simp

theorem idRx_plain {c : UInt8} {w s : Bytes} (other : c ≠ 96) (found : idRx (c :: w) = some s) :
    plainRx (c :: w) = true := by
  rw [idRx, if_neg (fun both => other both.1)] at found
  split at found
  · next plain => exact plain
  · cases found

theorem idRx_dot {w s : Bytes} (found : idRx w = some s) (v : Bytes) :
    idRx (w ++ 46 :: v) = none := by
  cases w with
  | nil => cases found
  | cons c w =>
      cases longer : idRx (c :: w ++ 46 :: v) with
      | none => rfl
      | some s' =>
          by_cases quoted_ : c = 96
          · -- the backtick that closes the part is followed by a dot, so it closes the longer one
            subst quoted_
            obtain ⟨x, _, rfl, _⟩ := (idRx_backtick w s).mp found
            obtain ⟨y, _, same, _⟩ := (idRx_backtick _ s').mp longer
            change doubled 96 x ++ [96] ++ 46 :: v = doubled 96 y ++ [96] at same
            rw [List.append_assoc] at same
            have unique := doubled_unique x y (46 :: v) [] (by simp) (by simp) same
            cases unique.2
          · have plain := (plainRx_dot (c :: w) v).symm.trans (idRx_plain quoted_ longer)
            cases plain

/-- A string has one place at most at which a schema ends before a dot. -/
theorem split_unique {w w' v v' s s' : Bytes} (same : w ++ 46 :: v = w' ++ 46 :: v')
    (found : idRx w = some s) (found' : idRx w' = some s') : w = w' ∧ v = v' := by
  obtain ⟨a, longer, rest⟩ | ⟨a, longer, rest⟩ := List.append_eq_append_iff.mp same
  · cases a with
    | nil =>
        rw [List.append_nil] at longer
        exact ⟨longer.symm, (List.cons.inj rest).2⟩
    | cons c a =>
        obtain ⟨rfl, _⟩ := List.cons.inj rest
        rw [longer, idRx_dot found] at found'
        cases found'
  · cases a with
    | nil =>
        rw [List.append_nil] at longer
        exact ⟨longer, (List.cons.inj rest).2.symm⟩
    | cons c a =>
        obtain ⟨rfl, _⟩ := List.cons.inj rest
        rw [longer, idRx_dot found'] at found
        cases found

theorem tableRx_dot {w v s : Bytes} (found : idRx w = some s) : tableRx (w ++ 46 :: v) = none := by
  rw [tableRx, if_neg (List.append_ne_nil_of_right_ne_nil w (List.cons_ne_nil 46 v)),
    idRx_dot found]

theorem splitRx_isSome {z : Bytes} {i : Nat} (found : (splitRx z i).isSome = true) :
    i < z.length ∧ z = z.take i ++ 46 :: z.drop (i + 1) ∧ ∃ s, idRx (z.take i) = some s := by
  obtain ⟨m, found⟩ := Option.isSome_iff_exists.mp found
  obtain ⟨dot, schema, _⟩ := (splitRx_some z i m.1 m.2).mp found
  obtain ⟨inside, dot⟩ := List.getElem?_eq_some_iff.mp dot
  refine ⟨inside, ?_, m.1, schema⟩
  rw [← dot, ← List.drop_eq_getElem_cons inside, List.take_append_drop]

theorem splitRx_one {z : Bytes} {i j : Nat} (found : (splitRx z i).isSome = true)
    (found' : (splitRx z j).isSome = true) : i = j := by
  obtain ⟨inside, split, s, schema⟩ := splitRx_isSome found
  obtain ⟨inside', split', s', schema'⟩ := splitRx_isSome found'
  have same := (split_unique (split.symm.trans split') schema schema').1
  have lengths := congrArg List.length same
  rwa [List.length_take_of_le (Nat.le_of_lt inside), List.length_take_of_le (Nat.le_of_lt inside')]
    at lengths

/-- Where the expression splits at a dot, it does not match as a table alone. -/
theorem tableRx_split {z : Bytes} {i : Nat} (found : (splitRx z i).isSome = true) :
    tableRx z = none := by
  obtain ⟨_, split, s, schema⟩ := splitRx_isSome found
  rw [split, tableRx_dot schema]

theorem filterMap_one {α β : Type} {f : α → Option β} {l : List α} (nodup : l.Nodup)
    (one : ∀ i j, (f i).isSome = true → (f j).isSome = true → i = j) :
    (l.filterMap f).length ≤ 1 := by
  induction l with
  | nil => exact Nat.zero_le 1
  | cons i l ih =>
      obtain ⟨fresh, nodup⟩ := List.nodup_cons.mp nodup
      rw [List.filterMap_cons]
      cases at_ : f i with
      | none => exact ih nodup
      | some m =>
          have rest : l.filterMap f = [] := by
            apply List.filterMap_eq_nil_iff.mpr
            intro j member
            apply Option.not_isSome_iff_eq_none.mp
            intro found
            have same := one i j (by rw [at_]; rfl) found
            exact fresh (same ▸ member)
          rw [rest]
          exact Nat.le_refl 1

theorem matchesRx_length (z : Bytes) : (matchesRx z).length ≤ 1 := by
  rw [matchesRx, List.length_append]
  have splits : ((List.range z.length).filterMap (splitRx z)).length ≤ 1 :=
    filterMap_one List.nodup_range (fun _ _ => splitRx_one)
  by_cases any : ∃ i, (splitRx z i).isSome = true
  · obtain ⟨i, found⟩ := any
    rw [tableRx_split found]
    simpa using splits
  · have none_ : (List.range z.length).filterMap (splitRx z) = [] :=
      List.filterMap_eq_nil_iff.mpr
        (fun i _ => Option.not_isSome_iff_eq_none.mp (fun found => any ⟨i, found⟩))
    rw [none_, List.length_nil, Nat.add_zero]
    cases tableRx z with
    | none => exact Nat.zero_le 1
    | some table => exact Nat.le_refl 1

/-- One character of a name between backticks, `[^`]`, or two backticks. -/
def inQuotes : Regex UInt8 :=
  .alt (.one (fun c => c != 96)) (.seq (.one (fun c => c == 96)) (.one (fun c => c == 96)))

/-- `id_rx`, whose groups are this one and the next. -/
def idPattern (n : Nat) : Regex UInt8 :=
  .alt (.seq (.one (fun c => c == 96)) (.seq (.group n (.plus inQuotes)) (.one (fun c => c == 96))))
    (.group (n + 1) (.plus (.one (fun c => c != 96 && c != 46 && c != 32))))

def tablePattern : Regex UInt8 := .alt .empty (idPattern 3)

/-- `rx`, from the beginning of a string to its end. -/
def rxPattern : Regex UInt8 :=
  .seq (.alt .empty (.seq (idPattern 1) (.one (fun c => c == 46)))) tablePattern

theorem matches_byte {b : UInt8} {z : Bytes} {g : Captures UInt8} :
    Matches (.one (fun c => c == b)) z g ↔ z = [b] ∧ g = [] := by
  rw [matches_one]
  constructor
  · rintro ⟨c, same, rfl, rfl⟩
    exact ⟨congrArg (fun c => [c]) (beq_iff_eq.mp same), rfl⟩
  · rintro ⟨rfl, rfl⟩
    exact ⟨b, beq_self_eq_true b, rfl, rfl⟩

theorem matches_inQuotes {z : Bytes} {g : Captures UInt8} :
    Matches inQuotes z g ↔ g = [] ∧ ∃ c, z = doubled 96 [c] := by
  rw [inQuotes, matches_alt, matches_one]
  constructor
  · rintro (⟨c, other, rfl, rfl⟩ | both)
    · exact ⟨rfl, c, (doubled_other c [] (bne_iff_ne.mp other)).symm⟩
    · obtain ⟨_, _, _, _, first, second, rfl, rfl⟩ := matches_seq.mp both
      obtain ⟨rfl, rfl⟩ := matches_byte.mp first
      obtain ⟨rfl, rfl⟩ := matches_byte.mp second
      exact ⟨rfl, 96, rfl⟩
  · rintro ⟨rfl, c, rfl⟩
    by_cases delimiter : c = 96
    · subst delimiter
      exact .inr (.seq (matches_byte.mpr ⟨rfl, rfl⟩) (matches_byte.mpr ⟨rfl, rfl⟩))
    · exact .inl ⟨c, bne_iff_ne.mpr delimiter, doubled_other c [] delimiter, rfl⟩

theorem doubled_cons (c : UInt8) (x : Bytes) :
    doubled 96 (c :: x) = doubled 96 [c] ++ doubled 96 x := by
  change doubled 96 ([c] ++ x) = _
  exact List.flatMap_append

theorem matches_name {z : Bytes} {g : Captures UInt8} :
    Matches (.plus inQuotes) z g ↔ g = [] ∧ ∃ x, x ≠ [] ∧ z = doubled 96 x := by
  constructor
  · refine plus_rounds (P := fun z g => g = [] ∧ ∃ x, x ≠ [] ∧ z = doubled 96 x) ?_ ?_
    · intro z g here
      obtain ⟨rfl, c, rfl⟩ := matches_inQuotes.mp here
      exact ⟨rfl, [c], List.cons_ne_nil _ _, rfl⟩
    · rintro z y g h here ⟨rfl, x, _, rfl⟩
      obtain ⟨rfl, c, rfl⟩ := matches_inQuotes.mp here
      exact ⟨rfl, c :: x, List.cons_ne_nil _ _, (doubled_cons c x).symm⟩
  · rintro ⟨rfl, x, nonempty, rfl⟩
    induction x with
    | nil => exact absurd rfl nonempty
    | cons c x ih =>
        have first : Matches inQuotes (doubled 96 [c]) [] := matches_inQuotes.mpr ⟨rfl, c, rfl⟩
        cases x with
        | nil => exact .once first
        | cons c' x =>
            rw [doubled_cons]
            exact .more first (ih (List.cons_ne_nil _ _))

/-- What a part captures, by the way in which it is written. -/
def idCaptures (n : Nat) (z s : Bytes) : Captures UInt8 :=
  [(if z.head? = some 96 then n else n + 1, s)]

def tableCaptures (z t : Bytes) : Captures UInt8 := if z = [] then [] else idCaptures 3 z t

theorem idRx_other {c : UInt8} (w : Bytes) (other : c ≠ 96) (s : Bytes) :
    idRx (c :: w) = some s ↔ plainRx (c :: w) = true ∧ s = c :: w := by
  rw [idRx, if_neg (fun both => other both.1)]
  by_cases plain : plainRx (c :: w) = true
  · rw [if_pos plain, Option.some.injEq, eq_comm, and_iff_right plain]
  · rw [if_neg plain]
    exact iff_of_false (Option.some_ne_none s ∘ Eq.symm) (fun both => plain both.1)

theorem idCaptures_other (n : Nat) {c : UInt8} (w s : Bytes) (other : c ≠ 96) :
    idCaptures n (c :: w) s = [(n + 1, s)] := by
  rw [idCaptures, List.head?_cons, if_neg (fun same => other (Option.some.inj same))]

theorem matches_idPattern {n : Nat} {z : Bytes} {g : Captures UInt8} :
    Matches (idPattern n) z g ↔ ∃ s, idRx z = some s ∧ g = idCaptures n z s := by
  rw [idPattern, matches_alt]
  constructor
  · rintro (quoted_ | plain)
    · obtain ⟨_, _, _, _, opening, rest, rfl, rfl⟩ := matches_seq.mp quoted_
      obtain ⟨_, _, _, _, inside, closing, rfl, rfl⟩ := matches_seq.mp rest
      obtain ⟨rfl, rfl⟩ := matches_byte.mp opening
      obtain ⟨rfl, rfl⟩ := matches_byte.mp closing
      obtain ⟨_, name, rfl⟩ := matches_group.mp inside
      obtain ⟨rfl, x, nonempty, rfl⟩ := matches_name.mp name
      exact ⟨doubled 96 x, (idRx_backtick _ _).mpr ⟨x, nonempty, rfl, rfl⟩, rfl⟩
    · obtain ⟨_, class_, rfl⟩ := matches_group.mp plain
      obtain ⟨nonempty, all, rfl⟩ := matches_class.mp class_
      cases z with
      | nil => exact absurd rfl nonempty
      | cons c w =>
          have other : c ≠ 96 := by
            rintro rfl
            cases all
          refine ⟨c :: w, (idRx_other w other _).mpr ⟨?_, rfl⟩, ?_⟩
          · rw [plainRx, Bool.and_eq_true]
            exact ⟨bne_iff_ne.mpr nonempty, all⟩
          · rw [idCaptures_other n w _ other]
  · rintro ⟨s, found, rfl⟩
    cases z with
    | nil => cases found
    | cons c w =>
        by_cases quoted_ : c = 96
        · subst quoted_
          obtain ⟨x, nonempty, rfl, rfl⟩ := (idRx_backtick w s).mp found
          left
          have name : Matches (.group n (.plus inQuotes)) (doubled 96 x) [(n, doubled 96 x)] :=
            .group (matches_name.mpr ⟨rfl, x, nonempty, rfl⟩)
          exact .seq (matches_byte.mpr ⟨rfl, rfl⟩) (.seq name (matches_byte.mpr ⟨rfl, rfl⟩))
        · obtain ⟨plain, rfl⟩ := (idRx_other w quoted_ s).mp found
          rw [plainRx, Bool.and_eq_true] at plain
          rw [idCaptures_other n w _ quoted_]
          exact .inr (.group (matches_class.mpr ⟨List.cons_ne_nil c w, plain.2, rfl⟩))

theorem matches_tablePattern {z : Bytes} {g : Captures UInt8} :
    Matches tablePattern z g ↔ ∃ t, tableRx z = some t ∧ g = tableCaptures z t := by
  rw [tablePattern, matches_alt, matches_empty, matches_idPattern, tableRx]
  by_cases empty : z = []
  · subst empty
    simp [idRx, tableCaptures]
  · simp [empty, tableCaptures]

/-- A string matches as a table alone, or at a dot behind a schema. -/
theorem matches_rxPattern {z : Bytes} {g : Captures UInt8} :
    Matches rxPattern z g ↔ (∃ t, tableRx z = some t ∧ g = tableCaptures z t) ∨
      ∃ w v s t, z = w ++ 46 :: v ∧ idRx w = some s ∧ tableRx v = some t ∧
        g = idCaptures 1 w s ++ tableCaptures v t := by
  rw [rxPattern, matches_seq]
  constructor
  · rintro ⟨y, v, h, k, schema, table, rfl, rfl⟩
    obtain ⟨t, found, rfl⟩ := matches_tablePattern.mp table
    rcases matches_alt.mp schema with absent | present
    · obtain ⟨rfl, rfl⟩ := matches_empty.mp absent
      exact .inl ⟨t, found, rfl⟩
    · obtain ⟨w, _, _, _, id_, dot, rfl, rfl⟩ := matches_seq.mp present
      obtain ⟨s, found', rfl⟩ := matches_idPattern.mp id_
      obtain ⟨rfl, rfl⟩ := matches_byte.mp dot
      refine .inr ⟨w, v, s, t, ?_, found', found, ?_⟩
      · rw [List.append_assoc]
        rfl
      · rw [List.append_nil]
  · rintro (⟨t, found, rfl⟩ | ⟨w, v, s, t, rfl, found', found, rfl⟩)
    · exact ⟨[], z, [], _, .left .empty, matches_tablePattern.mpr ⟨t, found, rfl⟩, rfl, rfl⟩
    · refine ⟨w ++ [46], v, _ ++ [], _, .right (.seq (matches_idPattern.mpr ⟨s, found', rfl⟩)
        (matches_byte.mpr ⟨rfl, rfl⟩)), matches_tablePattern.mpr ⟨t, found, rfl⟩, ?_, ?_⟩
      · rw [List.append_assoc]
        rfl
      · rw [List.append_nil]

/-- `gsub(rx, "\\1\\2", x)` -/
def schemaText (g : Captures UInt8) : Bytes := captured 1 g ++ captured 2 g

/-- `gsub(rx, "\\3\\4", x)` -/
def tableText (g : Captures UInt8) : Bytes := captured 3 g ++ captured 4 g

theorem tableCaptures_late (z t : Bytes) : ∀ e ∈ tableCaptures z t, 3 ≤ e.1 := by
  intro e member
  rw [tableCaptures] at member
  split at member
  · cases member
  · rw [List.mem_singleton.mp member]
    split
    · exact Nat.le_refl 3
    · exact Nat.le_succ 3

theorem texts_alone {z t : Bytes} (found : tableRx z = some t) :
    schemaText (tableCaptures z t) = [] ∧ tableText (tableCaptures z t) = t := by
  constructor
  · have absent : ∀ n < 3, captured n (tableCaptures z t) = [] := by
      intro n below
      apply captured_absent
      exact fun e member => Nat.ne_of_gt (below.trans_le (tableCaptures_late z t e member))
    rw [schemaText, absent 1 (by decide), absent 2 (by decide)]
    rfl
  · rw [tableRx] at found
    by_cases empty : z = []
    · rw [if_pos empty] at found
      cases found
      rw [tableCaptures, if_pos empty]
      rfl
    · rw [tableCaptures, if_neg empty, idCaptures]
      split
      · exact List.append_nil t
      · rfl

/-- A schema captures what its part does, and leaves the table as it is. -/
theorem texts_split (w s v t : Bytes) :
    schemaText (idCaptures 1 w s ++ tableCaptures v t) = s ∧
      tableText (idCaptures 1 w s ++ tableCaptures v t) = tableText (tableCaptures v t) := by
  have absent : ∀ n < 3, ∀ e ∈ tableCaptures v t, e.1 ≠ n := fun n below e member =>
    Nat.ne_of_gt (below.trans_le (tableCaptures_late v t e member))
  rw [idCaptures, List.singleton_append]
  split
  · refine ⟨?_, ?_⟩
    · rw [schemaText, captured_last s (absent 1 (by decide)), captured_other s (by decide),
        captured_absent (absent 2 (by decide)), List.append_nil]
    · rw [tableText, captured_other s (by decide), captured_other s (by decide)]
      rfl
  · refine ⟨?_, ?_⟩
    · rw [schemaText, captured_other s (by decide), captured_last s (absent 2 (by decide)),
        captured_absent (absent 1 (by decide)), List.nil_append]
    · rw [tableText, captured_other s (by decide), captured_other s (by decide)]
      rfl

theorem mem_matchesRx_derived (z schema table : Bytes) : (schema, table) ∈ matchesRx z ↔
    ∃ g, Matches rxPattern z g ∧ schemaText g = schema ∧ tableText g = table := by
  rw [mem_matchesRx]
  constructor
  · rintro (⟨rfl, found⟩ | ⟨w, v, rfl, found, found'⟩)
    · exact ⟨_, matches_rxPattern.mpr (.inl ⟨table, found, rfl⟩), texts_alone found⟩
    · obtain ⟨first, second⟩ := texts_split w schema v table
      exact ⟨_, matches_rxPattern.mpr (.inr ⟨w, v, schema, table, rfl, found, found', rfl⟩), first,
        second.trans (texts_alone found').2⟩
  · rintro ⟨g, derived, rfl, rfl⟩
    obtain ⟨t, found, rfl⟩ | ⟨w, v, s, t, rfl, found, found', rfl⟩ := matches_rxPattern.mp derived
    · obtain ⟨first, second⟩ := texts_alone found
      exact .inl ⟨first, found.trans (congrArg some second.symm)⟩
    · obtain ⟨first, second⟩ := texts_split w s v t
      exact .inr ⟨w, v, rfl, found.trans (congrArg some first.symm),
        found'.trans (congrArg some (second.trans (texts_alone found').2).symm)⟩

theorem captures_unique {z : Bytes} {g g' : Captures UInt8} (derived : Matches rxPattern z g)
    (derived' : Matches rxPattern z g') : g = g' := by
  obtain ⟨t, found, rfl⟩ | ⟨w, v, s, t, rfl, schema, table, rfl⟩ := matches_rxPattern.mp derived
  · obtain ⟨t', found', rfl⟩ | ⟨w, v, s, t', rfl, schema, _, rfl⟩ := matches_rxPattern.mp derived'
    · rw [Option.some.inj (found.symm.trans found')]
    · rw [tableRx_dot schema] at found
      cases found
  · obtain ⟨t', found', rfl⟩ | ⟨w', v', s', t', same, schema', table', rfl⟩ :=
      matches_rxPattern.mp derived'
    · rw [tableRx_dot schema] at found'
      cases found'
    · obtain ⟨rfl, rfl⟩ := split_unique same schema schema'
      rw [Option.some.inj (schema.symm.trans schema'), Option.some.inj (table.symm.trans table')]

theorem dbUnquoteIdentifier_derived {z : Bytes} {g : Captures UInt8}
    (derived : Matches rxPattern z g) :
    dbUnquoteIdentifier z = .ok (asTable (undoubled (schemaText g)) (undoubled (tableText g))) := by
  have member := (mem_matchesRx_derived z _ _).mpr ⟨g, derived, rfl, rfl⟩
  have length := matchesRx_length z
  rw [dbUnquoteIdentifier]
  cases found : matchesRx z with
  | nil =>
      rw [found] at member
      cases member
  | cons m ms =>
      rw [found, List.length_cons] at length
      have none_ : ms = [] := List.length_eq_zero_iff.mp (by omega)
      rw [found, none_] at member
      rw [← List.mem_singleton.mp member]
      rfl

variable (quoteId : List Bytes → Bytes)

theorem dbQuoteIdentifier_one (x : Bytes) :
    dbQuoteIdentifier [some x] = .ok [quoteIdentifier x] := by
  rfl

/-- Unquoting gives back the name or the two names that were quoted, and no string can be
matched in two ways: whichever derivation a matcher finds, its groups are the same. -/
theorem unquote_inverts_quote (quotes : QuotesIds quoteId) :
    (∀ t, t ≠ [] → ∃ x, dbQuoteIdentifier [some t] = .ok [x] ∧
      dbUnquoteIdentifier x = .ok ⟨none, some t⟩) ∧
    (∀ s t, s ≠ [] → t ≠ [] →
      dbUnquoteIdentifier (quoteId [s, t]) = .ok ⟨some s, some t⟩) ∧
    ∀ z g, Matches rxPattern z g →
      (∀ g', Matches rxPattern z g' → g' = g) ∧
      dbUnquoteIdentifier z =
        .ok (asTable (undoubled (schemaText g)) (undoubled (tableText g))) := by
  refine ⟨fun t nonempty => ⟨_, dbQuoteIdentifier_one t, ?_⟩, fun s t nonempty nonempty' => ?_,
    fun z g derived => ⟨fun g' derived' => captures_unique derived' derived,
      dbUnquoteIdentifier_derived derived⟩⟩
  · rw [dbUnquoteIdentifier_one, if_neg nonempty]
  · rw [quotes.two, dbUnquoteIdentifier_two, if_neg (not_or.mpr ⟨nonempty, nonempty'⟩)]

/-- The name `a.b` in the schema with a backtick. -/
theorem unquote_inverts_quote_dot :
    dbUnquoteIdentifier ([46].intercalate ([ascii "`", ascii "a.b"].map quoteIdentifier)) =
      .ok ⟨some (ascii "`"), some (ascii "a.b")⟩ :=
  (unquote_inverts_quote (fun components => [46].intercalate (components.map quoteIdentifier))
    ⟨fun _ => rfl⟩).2.1 (ascii "`") (ascii "a.b") (by decide) (by decide)

end RSQLite
