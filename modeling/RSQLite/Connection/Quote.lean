import RSQLite.Sqlite.Tokenize

/-!
The texts of the statements that name a table, a schema or a savepoint. A name is put
between backticks; SQLite reads it back as one identifier, and nothing of it as anything else.
-/
namespace RSQLite

open Quoted

def ascii (s : String) : Bytes := s.toList.map (fun c => UInt8.ofNat c.toNat)

/-- `gsub()` doubles the backticks, and `paste()` puts one on each side. -/
def quoteIdentifier (x : Bytes) : Bytes := quoted 96 x

/-- `dbQuoteIdentifier()` of a character vector. -/
def dbQuoteIdentifier (x : List (Option Bytes)) : Except String (List Bytes) :=
  match x.allSome with
  | none => .error "Cannot pass NA to dbQuoteIdentifier()"
  | some x => .ok (x.map quoteIdentifier)

def dbBeginSql : Option Bytes → Bytes
  | none => ascii "BEGIN"
  | some name => ascii "SAVEPOINT " ++ quoteIdentifier name

def dbCommitSql : Option Bytes → Bytes
  | none => ascii "COMMIT"
  | some name => ascii "RELEASE SAVEPOINT " ++ quoteIdentifier name

def dbRollbackSql : Option Bytes → List Bytes
  | none => [ascii "ROLLBACK"]
  | some name =>
      [ascii "ROLLBACK TO " ++ quoteIdentifier name,
        ascii "RELEASE SAVEPOINT " ++ quoteIdentifier name]

def dbRemoveTableSql (temporary failIfMissing : Bool) (name : Bytes) : Bytes :=
  let extra := if failIfMissing then [] else ascii "IF EXISTS "
  let extra := if temporary then extra ++ ascii "temp." else extra
  ascii "DROP TABLE " ++ extra ++ quoteIdentifier name

/-- `selectCols` is deprecated. -/
def dbReadTableSql (selectCols : Option Bytes) (name : Bytes) : Bytes :=
  ascii "SELECT " ++ selectCols.getD (ascii "*") ++ ascii " FROM " ++ quoteIdentifier name

/-- The list of the tables and views in the databases `infoSql`. `paste0()` has no `sep`: it
appends the line feed. -/
def listTablesSql (infoSql : Bytes) (name : Option Bytes) : Bytes :=
  ascii "SELECT name FROM " ++ infoSql ++ ascii " WHERE (type = 'table' OR type = 'view') " ++
    (match name with
      | none => []
      | some name => ascii "AND (lower(name) = " ++ name ++ ascii ") ") ++
    ascii "ORDER BY name\n"

instance : LawfulBEq Bytes := inferInstance

/-- `sqliteListTablesQuery()` on a connection with these schemas. `name` is a text of SQL. -/
def sqliteListTablesQuery (schemas : List Bytes) (schema name : Option Bytes) : Bytes :=
  match schema with
  | none =>
      listTablesSql
        (ascii "(SELECT * FROM sqlite_master UNION ALL SELECT * FROM sqlite_temp_master)") name
  | some schema =>
      if schema ∈ schemas then
        listTablesSql (ascii "(SELECT * FROM " ++ quoteIdentifier schema ++ ascii ".sqlite_master)")
          name
      else ascii "SELECT '' AS name WHERE 0"

/-- A text is these tokens, with one identifier between them that stands for the name. -/
def Denotes (before after : List Token) (sql name : Bytes) : Prop :=
  ∃ id : Token, id.type = .id ∧ id.name = name ∧ tokens sql = .ok (before ++ id :: after)

/-- Whatever the name, the tokens around it are the same. -/
def NamesOnly (sql : Bytes → Bytes) : Prop :=
  ∃ before after, ∀ name, 0 ∉ name → Denotes before after (sql name) name

/-- These tokens come before a quoted name. -/
def Precede (before : List Token) (text : Bytes) : Prop :=
  ∀ rest, tokens (text ++ 96 :: rest) = (tokens (96 :: rest)).map (fun ts => before ++ ts)

variable {before : List Token} {text : Bytes}

theorem precede_words (ws : List Bytes) (word : ∀ w ∈ ws, isWord w = true) :
    Precede (ws.map (Token.mk .keyword)) (words ws) :=
  fun rest => tokens_words ws word 96 rest rfl

theorem tokens_character (c : UInt8) (t : TokenType) (rest : Bytes) (more : c ≠ 0)
    (token : sqlite3GetToken (c :: rest) = (t, 1)) (plain : ¬ (t = .space ∨ t = .comment))
    (legal : t ≠ .illegal) :
    tokens (c :: rest) = (tokens rest).map (fun ts => ⟨t, [c]⟩ :: ts) := by
  rw [tokens_cons _ _ _ token more, if_neg plain, if_neg legal]
  rfl

theorem precede_select : Precede [⟨.keyword, ascii "SELECT"⟩, ⟨.star, ascii "*"⟩,
    ⟨.keyword, ascii "FROM"⟩] (ascii "SELECT * FROM ") := by
  intro rest
  have from_ := tokens_words [ascii "FROM"] (by decide) 96 rest rfl
  have blank : tokens (32 :: (words [ascii "FROM"] ++ 96 :: rest)) =
      tokens (words [ascii "FROM"] ++ 96 :: rest) := tokens_blank 70 _ rfl
  have star := tokens_character 42 .star (32 :: (words [ascii "FROM"] ++ 96 :: rest)) (by decide)
    rfl (by decide) (by decide)
  change tokens (words [ascii "SELECT"] ++ 42 :: 32 :: (words [ascii "FROM"] ++ 96 :: rest)) = _
  rw [tokens_words [ascii "SELECT"] (by decide) 42 _ rfl, star, blank, from_]
  cases tokens (96 :: rest) <;> rfl

/-- What comes before the schema in the list of its tables. -/
def listTablesTokens : List Token :=
  [⟨.keyword, ascii "SELECT"⟩, ⟨.keyword, ascii "name"⟩, ⟨.keyword, ascii "FROM"⟩,
    ⟨.lp, ascii "("⟩, ⟨.keyword, ascii "SELECT"⟩, ⟨.star, ascii "*"⟩, ⟨.keyword, ascii "FROM"⟩]

theorem precede_listTables :
    Precede listTablesTokens (ascii "SELECT name FROM " ++ ascii "(SELECT * FROM ") := by
  intro rest
  have parenthesis := tokens_character 40 .lp (ascii "SELECT * FROM " ++ 96 :: rest) (by decide) rfl
    (by decide) (by decide)
  change tokens (words [ascii "SELECT", ascii "name", ascii "FROM"] ++
    40 :: (ascii "SELECT * FROM " ++ 96 :: rest)) = _
  rw [tokens_words _ (by decide) 40 _ rfl, parenthesis, precede_select]
  cases tokens (96 :: rest) <;> rfl

theorem precede_temp (ws : List Bytes) (word : ∀ w ∈ ws, isWord w = true) :
    Precede (ws.map (Token.mk .keyword) ++ [⟨.keyword, ascii "temp"⟩, ⟨.dot, ascii "."⟩])
      (words ws ++ ascii "temp.") := by
  intro rest
  have temp := tokens_word (ascii "temp") 46 (96 :: rest) (by decide) rfl rfl
  have dot := tokens_character 46 .dot (96 :: rest) (by decide) rfl (by decide) (by decide)
  rw [List.append_assoc]
  change tokens (words ws ++ 116 :: ([101, 109, 112] ++ 46 :: 96 :: rest)) = _
  rw [tokens_words ws word 116 _ rfl]
  change (tokens (ascii "temp" ++ 46 :: 96 :: rest)).map _ = _
  rw [temp, dot]
  cases tokens (96 :: rest) with
  | error bad => rfl
  | ok ts =>
      simp only [Except.map, List.append_assoc]
      rfl

theorem denotes_between (precede : Precede before text) (after : List Token) (rest name : Bytes)
    (noNul : 0 ∉ name) (ends : rest.head? ≠ some 96) (follow : tokens rest = .ok after) :
    Denotes before after (text ++ quoteIdentifier name ++ rest) name := by
  refine ⟨⟨.id, quoteIdentifier name⟩, rfl, sqlite3Dequote_quoted name, ?_⟩
  have split : text ++ quoteIdentifier name ++ rest =
      text ++ 96 :: (doubled 96 name ++ [96] ++ rest) := by
    rw [List.append_assoc]
    rfl
  have read := tokens_quoted name rest noNul ends
  rw [follow] at read
  rw [split, precede]
  change (tokens (quoteIdentifier name ++ rest)).map _ = _
  rw [quoteIdentifier, read]
  rfl

theorem namesOnly_last (precede : Precede before text) :
    NamesOnly (fun name => text ++ quoteIdentifier name) := by
  refine ⟨before, [], fun name noNul => ?_⟩
  have denotes := denotes_between precede [] [] name noNul (by decide) rfl
  rwa [List.append_nil] at denotes

/-- The statements that name a table, a schema or a savepoint. -/
structure StatementsNameOnly : Prop where
  begin_ : NamesOnly (fun name => dbBeginSql (some name))
  commit : NamesOnly (fun name => dbCommitSql (some name))
  rollback : ∃ to_ release, NamesOnly to_ ∧ NamesOnly release ∧
    ∀ name, dbRollbackSql (some name) = [to_ name, release name]
  remove : ∀ temporary failIfMissing, NamesOnly (dbRemoveTableSql temporary failIfMissing)
  read : NamesOnly (dbReadTableSql none)
  listTables : ∀ schemas, ∀ name ∈ [none, some (ascii "$name")], ∃ before after, ∀ schema,
    0 ∉ schema → schema ∈ schemas →
      Denotes before after (sqliteListTablesQuery schemas (some schema) name) schema
  unknown : ∀ schemas name schema, schema ∉ schemas →
    sqliteListTablesQuery schemas (some schema) name = ascii "SELECT '' AS name WHERE 0"

theorem namesOnly_words (ws : List Bytes) (word : ∀ w ∈ ws, isWord w = true) :
    NamesOnly (fun name => words ws ++ quoteIdentifier name) :=
  namesOnly_last (precede_words ws word)

theorem namesOnly_remove (temporary failIfMissing : Bool) :
    NamesOnly (dbRemoveTableSql temporary failIfMissing) := by
  cases temporary with
  | false =>
      cases failIfMissing with
      | true => exact namesOnly_words [ascii "DROP", ascii "TABLE"] (by decide)
      | false =>
          exact namesOnly_words [ascii "DROP", ascii "TABLE", ascii "IF", ascii "EXISTS"]
            (by decide)
  | true =>
      cases failIfMissing with
      | true => exact namesOnly_last (precede_temp [ascii "DROP", ascii "TABLE"] (by decide))
      | false =>
          exact namesOnly_last
            (precede_temp [ascii "DROP", ascii "TABLE", ascii "IF", ascii "EXISTS"] (by decide))

/-- What follows the schema in the list of its tables. -/
def listTablesRest (name : Option Bytes) : Bytes :=
  ascii ".sqlite_master)" ++ ascii " WHERE (type = 'table' OR type = 'view') " ++
    (match name with
      | none => []
      | some name => ascii "AND (lower(name) = " ++ name ++ ascii ") ") ++
    ascii "ORDER BY name
"

theorem denotes_listTables (schemas : List Bytes) (name : Option Bytes)
    (known : name ∈ [none, some (ascii "$name")]) : ∃ before after, ∀ schema,
      0 ∉ schema → schema ∈ schemas →
        Denotes before after (sqliteListTablesQuery schemas (some schema) name) schema := by
  obtain ⟨after, follow, ends⟩ : ∃ after, tokens (listTablesRest name) = .ok after ∧
      (listTablesRest name).head? ≠ some 96 := by
    have read : (tokens (listTablesRest name)).isOk = true ∧
        (listTablesRest name).head? ≠ some 96 := by
      rcases List.mem_cons.mp known with rfl | named
      · decide +kernel
      · rw [List.mem_singleton.mp named]
        decide +kernel
    cases follow : tokens (listTablesRest name) with
    | error bad =>
        rw [follow] at read
        cases read.1
    | ok after => exact ⟨after, rfl, read.2⟩
  refine ⟨listTablesTokens, after, fun schema noNul member => ?_⟩
  have denotes := denotes_between precede_listTables after (listTablesRest name) schema noNul ends
    follow
  have split : sqliteListTablesQuery schemas (some schema) name =
      ascii "SELECT name FROM " ++ ascii "(SELECT * FROM " ++ quoteIdentifier schema ++
        listTablesRest name := by
    rw [sqliteListTablesQuery, if_pos member, listTablesSql.eq_def, listTablesRest.eq_def]
    simp only [List.append_assoc]
  rwa [split]

theorem statementsNameOnly : StatementsNameOnly where
  begin_ := namesOnly_words [ascii "SAVEPOINT"] (by decide)
  commit := namesOnly_words [ascii "RELEASE", ascii "SAVEPOINT"] (by decide)
  rollback := ⟨_, _, namesOnly_words [ascii "ROLLBACK", ascii "TO"] (by decide),
    namesOnly_words [ascii "RELEASE", ascii "SAVEPOINT"] (by decide), fun _ => rfl⟩
  remove := namesOnly_remove
  read := namesOnly_last precede_select
  listTables := denotes_listTables
  unknown _ _ _ missing := if_neg missing

/-- A quoted name is read back as one identifier for exactly this name, and what follows it is
untouched; nothing of a name is read as anything else in a statement. -/
theorem quoteIdentifier_read (x t : Bytes) (noNul : 0 ∉ x) (other : t.head? ≠ some 96) :
    (∃ n, sqlite3GetToken (quoteIdentifier x ++ t) = (.id, n) ∧
      sqlite3Dequote ((quoteIdentifier x ++ t).take n) = x ∧
      (quoteIdentifier x ++ t).drop n = t) ∧ StatementsNameOnly := by
  refine ⟨⟨_, sqlite3GetToken_quoted x t noNul other, ?_, ?_⟩, statementsNameOnly⟩
  · rw [quoteIdentifier, List.take_left, sqlite3Dequote_quoted]
  · rw [quoteIdentifier, List.drop_left]

/-- Backticks at the start, in the middle and at the end. -/
theorem quoteIdentifier_read_backticks :
    (∃ n, sqlite3GetToken (quoteIdentifier (ascii "`a``;`") ++ ascii "; DROP") = (.id, n) ∧
      sqlite3Dequote ((quoteIdentifier (ascii "`a``;`") ++ ascii "; DROP").take n) =
        ascii "`a``;`" ∧
      (quoteIdentifier (ascii "`a``;`") ++ ascii "; DROP").drop n = ascii "; DROP") ∧
    StatementsNameOnly :=
  quoteIdentifier_read (ascii "`a``;`") (ascii "; DROP") (by decide) (by decide)

end RSQLite
