import Schemata.Memory.Servers
import Schemata.Proofs.Database.Migration
import Schemata.Proofs.Quoting.Names

/-!
# Which table is looked for

A query is read for what it compares with its parameters: a column, an equals sign and a slot,
with blanks between them. A slot `?` takes the next parameter and a slot `$n` the n-th one. So it
can be told for which table, and in which schema, the query for an existing table looks, and this
be compared with the table that the statements of a blueprint address. The statements take the
name apart at its dots and the parameter holds it as a whole: the two agree on names without a dot
and on no others.
-/
namespace Schemata.Database

open Dispatch Grammar Quoting

/-! ## What a query asks for -/

/-- The number of the parameter that a slot takes; `next` is the one that no slot took yet. -/
def slot? (next : Nat) (word : String) : Option Nat :=
  match word.toList with
  | ['?'] => some next
  | '$' :: ds => if ds.all Char.isDigit then some (Nat.ofDigitChars 10 ds 0 - 1) else none
  | _ => none

/-- The columns that the words of a query compare with parameters. -/
def comparisons (params : List Value) : Nat → List String → List (String × Option Value)
  | next, column :: "=" :: word :: words =>
    match slot? next word with
    | some n => (column, params[n]?) :: comparisons params (n + 1) words
    | none => comparisons params next words
  | next, _ :: words => comparisons params next words
  | _, [] => []

/-- A statement with its parameters. -/
abbrev Query := String × List Value

def Query.comparisons (query : Query) : List (String × Option Value) :=
  Database.comparisons query.2 0 (Text.splitAt ' ' query.1)

/-- The value that a query wants to find in a column. -/
def Query.wanted? (query : Query) (column : String) : Option Value :=
  (query.comparisons.lookup column).join

/-- The column with the names of all tables. -/
def tableColumn : Dialect → String
  | .sqlite => "name"
  | .mysql | .postgres => "table_name"

/-- The query looks for the table that a qualified name addresses: for its last segment, in the
schema that the segment before it names, if there is one. -/
structure Query.LooksFor (query : Query) (d : Dialect) (segments : List String) : Prop where
  table : query.wanted? (tableColumn d) = segments.getLast?.map .text
  schema : ∀ schema, segments.dropLast.getLast? = some schema →
    query.wanted? "table_schema" = some (.text schema)

/-! ## The query for a table -/

variable {σ : Type} {db : Database} {table : String} {params : List Value}

variable (db) in
/-- What is handed out to find a table. -/
def probe (params : List Value) : Query := (db.dialect.grammar.tableExistsSql, params)

theorem comparisons_sqlite (v : Value) :
    Query.comparisons (Dialect.sqlite.grammar.tableExistsSql, [v]) = [("name", some v)] := by
  have hwords : Text.splitAt ' ' Dialect.sqlite.grammar.tableExistsSql =
      ["select", "*", "from", "sqlite_master", "where", "type", "=", "'table'", "and", "name", "=",
        "?"] := by decide
  rw [Query.comparisons, hwords]
  rfl

theorem comparisons_postgres (v : Value) :
    Query.comparisons (Dialect.postgres.grammar.tableExistsSql, [v]) =
      [("table_name", some v)] := by
  have hwords : Text.splitAt ' ' Dialect.postgres.grammar.tableExistsSql =
      ["select", "*", "from", "information_schema.tables", "where", "table_name", "=", "$1"] := by
    decide
  rw [Query.comparisons, hwords]
  rfl

theorem comparisons_mysql (schema v : Value) :
    Query.comparisons (Dialect.mysql.grammar.tableExistsSql, [schema, v]) =
      [("table_schema", some schema), ("table_name", some v)] := by
  have hwords : Text.splitAt ' ' Dialect.mysql.grammar.tableExistsSql =
      ["select", "*", "from", "information_schema.tables", "where", "table_schema", "=", "?", "and",
        "table_name", "=", "?"] := by decide
  rw [Query.comparisons, hwords]
  rfl

/-- The name of the table is a parameter as it is, and on MySQL the database is another one. -/
theorem probeParams_eq_ok (h : db.probeParams table = .ok params) :
    (db.dialect = .mysql ∧ ∃ schema, db.settings.databaseName? = some schema ∧
      params = [.text schema, .text table]) ∨
    (db.dialect ≠ .mysql ∧ params = [.text table]) := by
  unfold probeParams at h
  split at h
  · next hd =>
    split at h
    · next schema hschema => exact .inl ⟨hd, schema, hschema, (Except.ok.inj h).symm⟩
    · cases h
  · next hd => exact .inr ⟨by rw [hd]; decide, (Except.ok.inj h).symm⟩
  · next hd => exact .inr ⟨by rw [hd]; decide, (Except.ok.inj h).symm⟩

theorem wanted?_tableColumn (h : db.probeParams table = .ok params) :
    (db.probe params).wanted? (tableColumn db.dialect) = some (.text table) := by
  rcases probeParams_eq_ok h with ⟨hd, schema, -, rfl⟩ | ⟨hd, rfl⟩
  · rw [probe, Query.wanted?, hd, comparisons_mysql]
    rfl
  · rw [probe, Query.wanted?]
    cases hdialect : db.dialect with
    | mysql => exact absurd hdialect hd
    | sqlite =>
      rw [comparisons_sqlite]
      rfl
    | postgres =>
      rw [comparisons_postgres]
      rfl

/-- The query looks for what the name addresses if the name is a single segment. -/
theorem looksFor_iff (h : db.probeParams table = .ok params) :
    (db.probe params).LooksFor db.dialect (Text.splitAt '.' table) ↔ '.' ∉ table.toList := by
  constructor
  · intro hlooks
    have htable := hlooks.table
    rw [wanted?_tableColumn h] at htable
    obtain ⟨last, hlast, heq⟩ := Option.map_eq_some_iff.mp htable.symm
    obtain rfl := Value.text.inj heq
    exact (getLast?_splitAt_eq_some_iff last).mp hlast
  · intro hdot
    have hsegments : Text.splitAt '.' table = [table] := by
      rw [Text.splitAt, List.splitOn_eq_singleton hdot, List.map_singleton, String.ofList_toList]
    refine ⟨?_, ?_⟩
    · rw [wanted?_tableColumn h, hsegments]
      rfl
    · intro schema hschema
      rw [hsegments] at hschema
      cases hschema

/-! ## The call -/

theorem tableExists_error {e : ConfigError} (h : db.probeParams table = .error e)
    (backend : Backend σ) (w : World σ) :
    db.tableExists backend table w = (.error (.configuration e), w) := by
  simp only [tableExists, h]

theorem tableExists_ok (h : db.probeParams table = .ok params) (backend : Backend σ)
    (w : World σ) :
    db.tableExists backend table w =
      let (outcome, w') := Dispatch.execute backend db.dispatcher w
        { sql := db.dialect.grammar.tableExistsSql, params }
      (outcome.map (!·.rows.isEmpty), w') := by
  simp only [tableExists, h, Database.execute]
  rcases Dispatch.execute backend db.dispatcher w
    { sql := db.dialect.grammar.tableExistsSql, params } with ⟨_ | _, w'⟩ <;> rfl

/-- Over a backend with a journal a table is looked for as over the backend, and all that the
backend is asked is the query. -/
theorem tableExists_journaled (h : db.probeParams table = .ok params) (backend : Backend σ)
    (w : World σ) (past : Journal) :
    ∃ outcome now,
      Exchange db.dispatcher { sql := db.dialect.grammar.tableExistsSql, params } outcome now ∧
      (db.tableExists backend table w).1 = outcome.map (!·.rows.isEmpty) ∧
      db.tableExists backend.journaled table (w.keeping past) =
        ((db.tableExists backend table w).1,
          (db.tableExists backend table w).2.keeping (past ++ now)) := by
  obtain ⟨now, hnow, hrun⟩ := execute_journaled backend db.dispatcher
    { sql := db.dialect.grammar.tableExistsSql, params } w past
  refine ⟨_, now, hnow, ?_, ?_⟩
  · rw [tableExists_ok h]
  · rw [tableExists_ok h, tableExists_ok h, hrun]

/-- A statement that creates the table has been handed out. -/
def Creates (q : Char) (segments : List String) (journal : Journal) : Prop :=
  ∃ sql, (sql, []) ∈ journal.statements ∧ "create table ".toList <+: sql.toList ∧
    tableOf? q sql = some segments

/-- A blueprint that creates its table and is applied has created the segments of its name. -/
theorem creates_of_runBlueprint {b : Blueprint} {backend : Backend σ} {w w' : World σ}
    {statements : List String} (hcreate : .create ∈ b.commands)
    (hrun : db.runBlueprint backend b w = (.ok statements, w')) :
    ∃ created, db.runBlueprint backend.journaled b (w.keeping []) =
        (.ok statements, w'.keeping created) ∧
      Creates db.dialect.grammar.quote (Text.splitAt '.' b.table) created := by
  cases hcompile : db.dialect.grammar.compile b with
  | error e =>
    rw [runBlueprint_error backend hcompile] at hrun
    cases hrun
  | ok compiled =>
    obtain ⟨outcome, created, hmigrates, hresult, hjournaled⟩ :=
      runBlueprint_journaled backend hcompile w []
    rw [hrun] at hresult hjournaled
    cases outcome with
    | error e => cases hresult
    | ok _ =>
      obtain rfl : statements = compiled := Except.ok.inj hresult
      obtain ⟨block, hblock, hmem⟩ := Spelling.exists_block_of_mem hcompile hcreate
      obtain rfl := Except.ok.inj hblock
      have hsql : db.dialect.grammar.createTable b ∈ statements := hmem _ List.mem_cons_self
      have hstart : "create table ".toList <+: (db.dialect.grammar.createTable b).toList := by
        simp [createTable_eq]
      refine ⟨created, hjournaled, _, ?_, hstart, ?_⟩
      · rw [hmigrates.statements_ok]
        exact List.mem_map_of_mem hsql
      · exact tableOf?_of_mem hcompile hsql ⟨_, by decide, hstart⟩

/-- **The query for a table looks for what the statements address if the name has no dot**, and
otherwise never does. The segments are those that decoding the written name gives: all statements
of a blueprint of that name that create, alter or drop a table address them. So a table that has
been created under a plain name is looked for under the name that it was created with. -/
theorem tableExists_looks_for_created_iff (db : Database) (table : String) {params : List Value}
    (h : db.probeParams table = .ok params) :
    ∃ segments,
      segmentsOf db.dialect.grammar.quote
        (Identifier.qualified db.dialect.grammar.quote table) = some segments ∧
      (∀ b statements, b.table = table → db.dialect.grammar.compile b = .ok statements →
        ∀ sql ∈ statements, IsAboutTable sql →
          tableOf? db.dialect.grammar.quote sql = some segments) ∧
      ((db.probe params).LooksFor db.dialect segments ↔ '.' ∉ table.toList) ∧
      ∀ {σ : Type} (backend : Backend σ) (w w' : World σ) (b : Blueprint) (statements : List String),
        b.table = table → .create ∈ b.commands →
        db.runBlueprint backend b w = (.ok statements, w') →
        ∃ created sought,
          db.runBlueprint backend.journaled b (w.keeping []) =
            (.ok statements, w'.keeping created) ∧
          Creates db.dialect.grammar.quote segments created ∧
          db.tableExists backend.journaled table (w'.keeping created) =
            ((db.tableExists backend table w').1,
              (db.tableExists backend table w').2.keeping (created ++ sought)) ∧
          Journal.statements sought <+: [db.probe params] ∧
          ∀ found, (db.tableExists backend table w').1 = .ok found →
            Journal.statements sought = [db.probe params] := by
  refine ⟨_, segmentsOf_qualified (isQuote_grammar db.dialect) table, ?_, looksFor_iff h, ?_⟩
  · rintro b statements rfl hcompile sql hsql habout
    exact tableOf?_of_mem hcompile hsql habout
  · rintro σ backend w w' b statements rfl hcreate hrun
    obtain ⟨created, hcreated, hcreates⟩ := creates_of_runBlueprint hcreate hrun
    obtain ⟨outcome, sought, hexchange, hresult, hsought⟩ :=
      tableExists_journaled h backend w' created
    refine ⟨created, sought, hcreated, hcreates, hsought, hexchange.statements_prefix, ?_⟩
    intro found hfound
    rw [hresult] at hfound
    cases outcome with
    | error e => cases hfound
    | ok answer => exact hexchange.statements_ok

/-- A table with a quote in its name is created and found under that name. -/
theorem quoted_table_is_found :
    let db : Database := ⟨⟨"sqlite::memory:", none⟩, .sqlite, ⟨.pool, false⟩⟩
    let b : Blueprint :=
      { table := "a\"b", columns := [{ name := "c", type := .integer }], commands := [.create] }
    let w : World Memory.Servers := { resources := { address := some {} } }
    let applied := db.runBlueprint Memory.Servers.backend b w
    (db.probe [.text "a\"b"]).LooksFor .sqlite ["a\"b"] ∧
      applied.1 = .ok ["create table \"a\"\"b\" (\"c\" integer not null)"] ∧
      (db.tableExists Memory.Servers.backend "a\"b" applied.2).1 = .ok true ∧
      ∃ created sought, Creates doubleQuote ["a\"b"] created ∧
        Journal.statements sought = [db.probe [.text "a\"b"]] := by
  intro db b w applied
  have hruns : applied.1 = .ok ["create table \"a\"\"b\" (\"c\" integer not null)"] ∧
      (db.tableExists Memory.Servers.backend "a\"b" applied.2).1 = .ok true := by
    decide +kernel
  have happlied : db.runBlueprint Memory.Servers.backend b w =
      (.ok ["create table \"a\"\"b\" (\"c\" integer not null)"], applied.2) := by
    rw [← hruns.1]
  obtain ⟨segments, hsegments, -, hlooks, hfinds⟩ :=
    tableExists_looks_for_created_iff db "a\"b" rfl
  obtain rfl : segments = ["a\"b"] := by
    have hdecoded : segmentsOf doubleQuote (Identifier.qualified doubleQuote "a\"b") =
        some ["a\"b"] := by decide
    exact Option.some.inj (hsegments.symm.trans hdecoded)
  obtain ⟨created, sought, -, hcreates, -, -, hsought⟩ :=
    hfinds Memory.Servers.backend w applied.2 b _ rfl List.mem_cons_self happlied
  exact ⟨hlooks.mpr (by decide), hruns.1, hruns.2, created, sought, hcreates, hsought true hruns.2⟩

/-- A table that is created in a schema is looked for under a name that it does not have. -/
theorem table_in_schema_is_not_found :
    let db : Database := ⟨⟨"sqlite::memory:", none⟩, .sqlite, ⟨.pool, false⟩⟩
    let b : Blueprint :=
      { table := "main.m", columns := [{ name := "a", type := .integer }], commands := [.create] }
    let w : World Memory.Servers := { resources := { address := some {} } }
    let created := db.runBlueprint Memory.Servers.backend b w
    segmentsOf doubleQuote (Identifier.qualified doubleQuote "main.m") = some ["main", "m"] ∧
      db.probeParams "main.m" = .ok [.text "main.m"] ∧
      ¬ (db.probe [.text "main.m"]).LooksFor .sqlite ["main", "m"] ∧
      created.1 = .ok ["create table \"main\".\"m\" (\"a\" integer not null)"] ∧
      (db.tableExists Memory.Servers.backend "main.m" created.2).1 = .ok false := by
  intro db b w created
  have hparams : db.probeParams "main.m" = .ok [.text "main.m"] := rfl
  have hlooks := looksFor_iff hparams
  have hsegments : Text.splitAt '.' "main.m" = ["main", "m"] := by decide
  rw [hsegments] at hlooks
  exact ⟨by decide, hparams, mt hlooks.mp (by decide), by decide +kernel⟩

end Schemata.Database
