import Schemata.Memory.Statement
import Schemata.ResultSet

/-!
# An in-memory database

It knows which tables and indexes exist, and runs statements on them; no table has any rows.
Names compare without regard to the case of ASCII letters, except where a query compares them
with a parameter. Tables and indexes live in one of two schemas and share its names.
-/
namespace Schemata.Memory

inductive Schema where
  | main
  /-- Searched first where a statement names no schema. -/
  | temp
  deriving DecidableEq, Repr

def sameName (a b : String) : Bool := a.map Char.toLower == b.map Char.toLower

def Schema.name : Schema → String
  | .main => "main"
  | .temp => "temp"

def Schema.ofName? (s : String) : Option Schema := [.main, .temp].find? (sameName s ·.name)

structure Table where
  schema : Schema
  name : String
  columns : List String
  deriving DecidableEq, Repr

structure TableIndex where
  schema : Schema
  name : String
  table : String
  deriving DecidableEq, Repr

structure Catalog where
  tables : List Table := []
  indexes : List TableIndex := []
  deriving DecidableEq, Repr

/-- Whether a name is kept for the database itself. -/
def isReserved (name : String) : Bool :=
  "sqlite_".toList.isPrefixOf (name.map Char.toLower).toList

/-- The tables that describe the database to itself. -/
def catalogTables : List String :=
  ["sqlite_master", "sqlite_schema", "sqlite_temp_master", "sqlite_temp_schema"]

/-- The table that keeps count for automatically numbered columns. -/
def sequenceTable (schema : Schema) : Table := ⟨schema, "sqlite_sequence", ["name", "seq"]⟩

namespace Statement

def hasDuplicates : List String → Bool
  | [] => false
  | n :: ns => ns.any (sameName n) || hasDuplicates ns

def ofBool (ok : Bool) (reason : String) : Except String Unit :=
  if ok then .ok () else .error reason

/-- Whether a constraint fits the columns before it. -/
def checkConstraint (columns : List String) : TableConstraint → Except String Unit
  | .primaryKey cs | .unique cs =>
    ofBool (cs.all fun c => columns.any (sameName c.name))
      "expressions prohibited in PRIMARY KEY and UNIQUE constraints"
  | .foreignKey cs count => do
    ofBool (count.all (· == cs.length))
      ("number of columns in foreign key does not match the number of columns in the referenced "
        ++ "table")
    ofBool (cs.all fun c => columns.any (sameName c)) "unknown column in foreign key definition"
  | .check => .ok ()

/-- Whether columns and constraints define a table: column names differ, there is one primary
key at most, and only integers are numbered automatically. -/
def checkDefinition (columns : List ColumnDefinition) (constraints : List TableConstraint) :
    Except String Unit := do
  let names := columns.map (·.name)
  let tableKeys := constraints.filter fun
    | .primaryKey _ => true
    | _ => false
  ofBool (!hasDuplicates names) "duplicate column name"
  ofBool ((columns.filter (·.primaryKey)).length + tableKeys.length ≤ 1)
    "table has more than one primary key"
  ofBool (columns.all fun c => !c.autoIncrement || c.isInteger)
    "AUTOINCREMENT is only allowed on an INTEGER PRIMARY KEY"
  constraints.forM (checkConstraint names)

end Statement

namespace Catalog

/-- The table of a name, in the given schema or in the first that has one. -/
def table? (s : Catalog) (q : QualifiedName) : Option Table :=
  let inSchema (schema : Schema) : Option Table :=
    s.tables.find? fun t => t.schema == schema && sameName q.name t.name
  match q.schema with
  | some schema => Schema.ofName? schema >>= inSchema
  | none => (inSchema .temp).or (inSchema .main)

/-- The index of a name, in the given schema or in the first that has one. -/
def index? (s : Catalog) (q : QualifiedName) : Option TableIndex :=
  let inSchema (schema : Schema) : Option TableIndex :=
    s.indexes.find? fun i => i.schema == schema && sameName q.name i.name
  match q.schema with
  | some schema => Schema.ofName? schema >>= inSchema
  | none => (inSchema .temp).or (inSchema .main)

/-- The schema that something new goes to. -/
def schemaFor (q : QualifiedName) : Except String Schema :=
  match q.schema with
  | none => .ok .main
  | some name =>
    match Schema.ofName? name with
    | some schema => .ok schema
    | none => .error ("unknown database " ++ name)

/-- The name is not kept for the database, and nothing in the schema bears it yet. -/
def checkFree (s : Catalog) (schema : Schema) (name : String) : Except String Unit := do
  let q : QualifiedName := ⟨some schema.name, name⟩
  Statement.ofBool (!isReserved name) ("object name reserved for internal use: " ++ name)
  Statement.ofBool (s.table? q).isNone ("table " ++ name ++ " already exists")
  Statement.ofBool (s.index? q).isNone ("index " ++ name ++ " already exists")

/-- The table that a statement wants to change. -/
def changeable (s : Catalog) (q : QualifiedName) : Except String Table :=
  if isReserved q.name then .error ("table " ++ q.name ++ " may not be altered")
  else
    match s.table? q with
    | some t => .ok t
    | none => .error ("no such table: " ++ q.name)

def createTable (s : Catalog) (q : QualifiedName) (ifNotExists : Bool)
    (columns : List ColumnDefinition) (constraints : List TableConstraint) :
    Except String Catalog := do
  let schema ← schemaFor q
  if ifNotExists && (s.table? ⟨some schema.name, q.name⟩).isSome then return s
  s.checkFree schema q.name
  Statement.checkDefinition columns constraints
  let sequence := sequenceTable schema
  let counts := columns.any (·.autoIncrement) && !s.tables.contains sequence
  pure { s with
    tables := s.tables ++ [⟨schema, q.name, columns.map (·.name)⟩]
      ++ if counts then [sequence] else [] }

/-- A table goes with its indexes. -/
def dropTable (s : Catalog) (q : QualifiedName) (ifExists : Bool) : Except String Catalog :=
  if catalogTables.any (sameName q.name) then
    .error ("table " ++ q.name ++ " may not be dropped")
  else
    match s.table? q with
    | some t =>
      if isReserved t.name then .error ("table " ++ t.name ++ " may not be dropped")
      else .ok { tables := s.tables.filter (· != t),
                 indexes := s.indexes.filter fun i => !(i.schema == t.schema && i.table == t.name) }
    | none => if ifExists then .ok s else .error ("no such table: " ++ q.name)

/-- The new name has to be free; the table's own name is not. -/
def renameTable (s : Catalog) (q : QualifiedName) (newName : String) : Except String Catalog := do
  let t ← s.changeable q
  s.checkFree t.schema newName
  pure
    { tables := s.tables.map fun u => if u = t then { u with name := newName } else u
      indexes := s.indexes.map fun i =>
        if i.schema == t.schema && i.table == t.name then { i with table := newName } else i }

/-- A key cannot be added. -/
def addColumn (s : Catalog) (q : QualifiedName) (c : ColumnDefinition) : Except String Catalog := do
  let t ← s.changeable q
  Statement.ofBool (!c.primaryKey) "Cannot add a PRIMARY KEY column"
  Statement.ofBool (!c.unique) "Cannot add a UNIQUE column"
  Statement.ofBool (!t.columns.any (sameName c.name)) ("duplicate column name: " ++ c.name)
  pure { s with tables := s.tables.map fun u =>
    if u = t then { u with columns := u.columns ++ [c.name] } else u }

/-- An index goes to the schema of its table. -/
def createIndex (s : Catalog) (index : QualifiedName) (table : String)
    (columns : List IndexColumn) : Except String Catalog := do
  let t ← s.changeable ⟨index.schema, table⟩
  s.checkFree t.schema index.name
  Statement.ofBool (columns.all fun c => c.maybeText || t.columns.any (sameName c.name))
    "no such column"
  pure { s with indexes := s.indexes ++ [⟨t.schema, index.name, t.name⟩] }

def dropIndex (s : Catalog) (q : QualifiedName) : Except String Catalog :=
  match s.index? q with
  | some i => .ok { s with indexes := s.indexes.filter (· != i) }
  | none => .error ("no such index: " ++ q.name)

/-- The row that tells of a table of exactly this name, if there is one. -/
def tableNamed (s : Catalog) : List Value → List ResultSet.Item
  | .text name :: _ =>
    if s.tables.any fun t => t.schema == .main && t.name == name then
      [.row [("type", .text "table"), ("name", .text name)]]
    else []
  | _ => []

/-- A parameter as a selected value: truth values are numbers, and what is not a number is
nothing. -/
def stored : Value → Value
  | .bool b => .integer (if b then 1 else 0)
  | .float f => if f.isNaN then .null else .float f
  | v => v

/-- The cells of a selection, each under the name of its column; a missing parameter is null. -/
def selected : List (Operand × String) → List Value → List (String × Value)
  | [], _ => []
  | (.literal v, name) :: rest, params => (name, v) :: selected rest params
  | (.placeholder, name) :: rest, [] => (name, .null) :: selected rest []
  | (.placeholder, name) :: rest, v :: params => (name, stored v) :: selected rest params

/-- Runs a statement: what it yields, or why it is refused, and the database afterwards. No
statement changes any rows. -/
def run (s : Catalog) (params : List Value) :
    Statement → Except String (List ResultSet.Item) × Catalog
  | .createTable q ifNotExists columns constraints =>
    changed (s.createTable q ifNotExists columns constraints)
  | .dropTable q ifExists => changed (s.dropTable q ifExists)
  | .renameTable q newName => changed (s.renameTable q newName)
  | .addColumn q column => changed (s.addColumn q column)
  | .createIndex q table columns => changed (s.createIndex q table columns)
  | .dropIndex q => changed (s.dropIndex q)
  | .tableNamed => (.ok (s.tableNamed params ++ [.affected 0]), s)
  | .select operands => (.ok [.row (selected operands params), .affected 0], s)
where
  changed : Except String Catalog → Except String (List ResultSet.Item) × Catalog
    | .ok s => (.ok [.affected 0], s)
    | .error reason => (.error reason, s)

/-- Runs statements in order up to the first that is refused; each takes its parameters off. What
they yield is one stream. -/
def runAll (s : Catalog) (params : List Value) :
    List (List Token) → Except String (List ResultSet.Item) × Catalog
  | [] => (.ok [], s)
  | ts :: rest =>
    match Statement.ofTokens? ts with
    | none => (.error "syntax error", s)
    | some statement =>
      match s.run params statement with
      | (.ok items, s) =>
        let (more, s) := runAll s (params.drop statement.placeholders) rest
        (more.map (items ++ ·), s)
      | (.error reason, s) => (.error reason, s)

/-- The stream that the statements of a text yield. -/
def stream (s : Catalog) (sql : String) (params : List Value) :
    Except String (List ResultSet.Item) × Catalog :=
  match Token.ofText sql with
  | some ts => s.runAll params (Statement.split ts)
  | none => (.error "unrecognized token", s)

/-- Runs the statements that a text holds and takes in what they yield. -/
def runText (s : Catalog) (sql : String) (params : List Value) :
    Except String ResultSet × Catalog :=
  let (items, s) := s.stream sql params
  (items.map ResultSet.ofItems, s)

end Catalog

end Schemata.Memory
