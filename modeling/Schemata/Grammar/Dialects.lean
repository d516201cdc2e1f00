import Schemata.Grammar.Basic

/-!
# The grammars of the dialects

SQLite cannot add keys to a table, adds one column a statement and drops none. MySQL and
PostgreSQL add keys after creation and several columns at once; MySQL names no constraint
for keys other than foreign ones, PostgreSQL names all of them and spells auto-increment
as a type.
-/
namespace Schemata

namespace Grammar

/-- The quote character of standard identifiers. -/
def doubleQuote : Char := '"'

/-- The quote character of MySQL identifiers. -/
def backtick : Char := '\x60'

def withScale (name : String) (precision scale : UInt8) : String :=
  name ++ "(" ++ toString precision.toNat ++ ", " ++ toString scale.toNat ++ ")"

def varchar (length : UInt32) : String := "varchar(" ++ toString length.toNat ++ ")"

/-- `create index`, as SQLite and PostgreSQL have it. -/
def createIndex (quote : Char) (kind : String) (b : Blueprint) (i : Index) : String :=
  "create " ++ kind ++ " " ++ Identifier.segment quote i.name ++ " on "
    ++ Identifier.qualified quote b.table ++ " (" ++ Identifier.list quote i.columns ++ ")"

/-- `alter table` with a text that follows the table. -/
def alterTable (quote : Char) (b : Blueprint) (change : String) : String :=
  "alter table " ++ Identifier.qualified quote b.table ++ " " ++ change

/-- The addition of a foreign key, where keys are added after creation. -/
def addForeignKey (quote : Char) (b : Blueprint) (k : ForeignKey) : String :=
  alterTable quote b
    ("add constraint " ++ Identifier.segment quote k.name ++ " " ++ foreignKeyClause quote k)

def sqlite : Grammar where
  dialect := .sqlite
  quote := doubleQuote
  capabilities := { inlineKeys := true, multiColumnAdd := false, dropColumn := false }
  typeSql c :=
    match c.type with
    | .string _ => "varchar"
    | .text => "text"
    | .integer => "integer"
    | .float _ _ => "float"
    | .decimal _ _ => "float"
    | .boolean => "tinyint"
    | .enum _ => "varchar"
    | .date => "date"
    | .dateTime => "datetime"
    | .time => "time"
    | .timestamp => "datetime"
    | .binary => "blob"
  incrementSql := " primary key autoincrement"
  defaultSql := literal fun b => if b then "1" else "0"
  tableExistsSql := "select * from sqlite_master where type = 'table' and name = ?"
  rename b newName :=
    alterTable doubleQuote b ("rename to " ++ Identifier.qualified doubleQuote newName)
  unique := createIndex doubleQuote "unique index"
  index := createIndex doubleQuote "index"
  dropUnique _ name := "drop index " ++ Identifier.segment doubleQuote name
  dropIndex _ name := "drop index " ++ Identifier.segment doubleQuote name
  foreign _ _ := none
  primary _ _ := none
  dropForeign _ _ := .error (.unsupportedOperation .sqlite "dropForeign")
  dropPrimary _ _ := .error (.unsupportedOperation .sqlite "dropPrimary")

/-- The addition of a key that is an index, as MySQL has it. -/
def addKey (kind : String) (b : Blueprint) (i : Index) : String :=
  alterTable backtick b ("add " ++ kind ++ " " ++ Identifier.segment backtick i.name
    ++ "(" ++ Identifier.list backtick i.columns ++ ")")

def mysql : Grammar where
  dialect := .mysql
  quote := backtick
  capabilities := { inlineKeys := false, multiColumnAdd := true, dropColumn := true }
  typeSql c :=
    match c.type with
    | .string length => varchar length
    | .text => "text"
    | .integer => "int(11)"
    | .float precision scale => withScale "float" precision scale
    | .decimal precision scale => withScale "decimal" precision scale
    | .boolean => "tinyint(1)"
    | .enum values => "enum(" ++ Text.commaJoin (values.map Text.quoteLiteral) ++ ")"
    | .date => "date"
    | .dateTime => "datetime"
    | .time => "time"
    | .timestamp => "timestamp"
    | .binary => "blob"
  incrementSql := " auto_increment primary key"
  defaultSql := literal fun b => if b then "1" else "0"
  addColumnKeyword := "add"
  tableExistsSql :=
    "select * from information_schema.tables where table_schema = ? and table_name = ?"
  rename b newName :=
    "rename table " ++ Identifier.qualified backtick b.table ++ " to "
      ++ Identifier.qualified backtick newName
  unique := addKey "unique"
  index := addKey "index"
  dropUnique b name := alterTable backtick b ("drop index " ++ Identifier.segment backtick name)
  dropIndex b name := alterTable backtick b ("drop index " ++ Identifier.segment backtick name)
  foreign b k := some (addForeignKey backtick b k)
  primary b i :=
    some (alterTable backtick b ("add primary key (" ++ Identifier.list backtick i.columns ++ ")"))
  dropForeign b name :=
    .ok (alterTable backtick b ("drop foreign key " ++ Identifier.segment backtick name))
  dropPrimary b _ := .ok (alterTable backtick b "drop primary key")

/-- A named constraint on columns, as PostgreSQL adds it. -/
def addConstraint (kind : String) (b : Blueprint) (i : Index) : String :=
  alterTable doubleQuote b ("add constraint " ++ Identifier.segment doubleQuote i.name ++ " "
    ++ kind ++ " (" ++ Identifier.list doubleQuote i.columns ++ ")")

def dropConstraint (b : Blueprint) (name : String) : String :=
  alterTable doubleQuote b ("drop constraint " ++ Identifier.segment doubleQuote name)

def postgres : Grammar where
  dialect := .postgres
  quote := doubleQuote
  capabilities := { inlineKeys := false, multiColumnAdd := true, dropColumn := true }
  typeSql c :=
    match c.type with
    | .string length => varchar length
    | .text => "text"
    | .integer => if c.autoIncrement then "serial" else "integer"
    | .float _ _ => "real"
    | .decimal precision scale => withScale "decimal" precision scale
    | .boolean => "boolean"
    | .enum _ => "varchar(255)"
    | .date => "date"
    | .dateTime => "timestamp"
    | .time => "time"
    | .timestamp => "timestamp"
    | .binary => "bytea"
  incrementSql := " primary key"
  defaultSql := literal fun b => if b then "true" else "false"
  tableExistsSql := "select * from information_schema.tables where table_name = $1"
  rename b newName :=
    alterTable doubleQuote b ("rename to " ++ Identifier.qualified doubleQuote newName)
  unique := addConstraint "unique"
  index := createIndex doubleQuote "index"
  dropUnique := dropConstraint
  dropIndex _ name := "drop index " ++ Identifier.segment doubleQuote name
  foreign b k := some (addForeignKey doubleQuote b k)
  primary b i := some (addConstraint "primary key" b i)
  dropForeign b name := .ok (dropConstraint b name)
  dropPrimary b name := .ok (dropConstraint b name)

end Grammar

def Dialect.grammar : Dialect → Grammar
  | .sqlite => .sqlite
  | .mysql => .mysql
  | .postgres => .postgres

end Schemata
