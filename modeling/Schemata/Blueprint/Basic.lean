import Schemata.Text.Lowercase

/-!
# Blueprints

A blueprint describes one table: its name, the columns it declares, and the commands
to compile against it, in order.
-/
namespace Schemata

/-- Column types that every dialect understands. -/
inductive ColumnType where
  | string (length : UInt32)
  | text
  | integer
  | float (precision scale : UInt8)
  | decimal (precision scale : UInt8)
  | boolean
  | enum (values : List String)
  | date
  | dateTime
  | time
  | timestamp
  | binary
  deriving DecidableEq, Repr

namespace ColumnType

def defaultLength : UInt32 := 255
def defaultPrecision : UInt8 := 8
def defaultScale : UInt8 := 2

/-- Every column type with its default parameters; the enum lists two sample values. -/
def all : List ColumnType :=
  [.string defaultLength, .text, .integer, .float defaultPrecision defaultScale,
    .decimal defaultPrecision defaultScale, .boolean, .enum ["a", "b"], .date, .dateTime, .time,
    .timestamp, .binary]

def name : ColumnType → String
  | .string _ => "string"
  | .text => "text"
  | .integer => "integer"
  | .float _ _ => "float"
  | .decimal _ _ => "decimal"
  | .boolean => "boolean"
  | .enum _ => "enum"
  | .date => "date"
  | .dateTime => "datetime"
  | .time => "time"
  | .timestamp => "timestamp"
  | .binary => "binary"

end ColumnType

/-- A column's default, written into the statement as a literal. -/
inductive DefaultValue where
  | boolean (b : Bool)
  | integer (i : Int64)
  | float (f : Float)
  | string (s : String)
  deriving DecidableEq, Repr

structure Column where
  name : String
  type : ColumnType
  nullable : Bool := false
  default : Option DefaultValue := none
  autoIncrement : Bool := false
  deriving DecidableEq, Repr

namespace Column

def allowNull (c : Column) : Column := { c with nullable := true }

def withDefault (v : DefaultValue) (c : Column) : Column := { c with default := some v }

def withAutoIncrement (c : Column) : Column := { c with autoIncrement := true }

/-- An auto-incrementing integer, which is a primary key of its own. -/
def increments (name : String) : Column := { name, type := .integer, autoIncrement := true }

/-- Whether the column is an auto-increment column: the flag counts on integers only. -/
def isIncrement (c : Column) : Bool := c.autoIncrement && c.type == .integer

end Column

/-- What happens to referencing rows. -/
inductive ForeignKeyAction where
  | noAction
  | restrict
  | cascade
  | setNull
  | setDefault
  deriving DecidableEq, Repr

namespace ForeignKeyAction

def all : List ForeignKeyAction := [.noAction, .restrict, .cascade, .setNull, .setDefault]

def name : ForeignKeyAction → String
  | .noAction => "noAction"
  | .restrict => "restrict"
  | .cascade => "cascade"
  | .setNull => "setNull"
  | .setDefault => "setDefault"

def ofName? (s : String) : Option ForeignKeyAction := all.find? (·.name == s)

def sql : ForeignKeyAction → String
  | .noAction => "no action"
  | .restrict => "restrict"
  | .cascade => "cascade"
  | .setNull => "set null"
  | .setDefault => "set default"

end ForeignKeyAction

/-- An index or a primary key: its name and its columns. -/
structure Index where
  name : String
  columns : List String
  deriving DecidableEq, Repr

/-- A foreign key: `columns` of this table refer to `references` of the table `on`. -/
structure ForeignKey where
  name : String
  columns : List String
  on : String
  references : List String
  onDelete : Option ForeignKeyAction := none
  onUpdate : Option ForeignKeyAction := none
  deriving DecidableEq, Repr

/-- One operation on the blueprint's table. -/
inductive Command where
  | create
  | add
  | rename (newName : String)
  | dropTable
  | dropTableIfExists
  | dropColumn (columns : List String)
  | unique (on : Index)
  | index (on : Index)
  | dropUnique (name : String)
  | dropIndex (name : String)
  | foreign (key : ForeignKey)
  | primary (key : Index)
  | dropForeign (name : String)
  | dropPrimary (name : String)
  deriving DecidableEq, Repr

namespace Command

/-- The command's name in documents and messages. -/
def name : Command → String
  | .create => "create"
  | .add => "add"
  | .rename _ => "rename"
  | .dropTable => "dropTable"
  | .dropTableIfExists => "dropTableIfExists"
  | .dropColumn _ => "dropColumn"
  | .unique _ => "unique"
  | .index _ => "index"
  | .dropUnique _ => "dropUnique"
  | .dropIndex _ => "dropIndex"
  | .foreign _ => "foreign"
  | .primary _ => "primary"
  | .dropForeign _ => "dropForeign"
  | .dropPrimary _ => "dropPrimary"

def foreign? : Command → Option ForeignKey
  | .foreign key => some key
  | _ => none

def primary? : Command → Option Index
  | .primary key => some key
  | _ => none

/-- Whether the command declares a key that some dialects know at creation only. -/
def declaresKey : Command → Bool
  | .foreign _ | .primary _ => true
  | _ => false

end Command

/-- What an index is for; part of its derived name. -/
inductive IndexKind where
  | unique
  | index
  | foreign
  | primary
  deriving DecidableEq, Repr

namespace IndexKind

def name : IndexKind → String
  | .unique => "unique"
  | .index => "index"
  | .foreign => "foreign"
  | .primary => "primary"

end IndexKind

structure Blueprint where
  table : String
  columns : List Column := []
  commands : List Command := []
  deriving DecidableEq, Repr

namespace Blueprint

/-- The foreign keys that the commands declare, in order. -/
def foreignKeys (b : Blueprint) : List ForeignKey := b.commands.filterMap Command.foreign?

/-- The primary keys that the commands declare, in order. -/
def primaryKeys (b : Blueprint) : List Index := b.commands.filterMap Command.primary?

def createsTable (b : Blueprint) : Bool := b.commands.contains .create

def withColumn (b : Blueprint) (c : Column) : Blueprint := { b with columns := b.columns ++ [c] }

def withCommand (b : Blueprint) (c : Command) : Blueprint :=
  { b with commands := b.commands ++ [c] }

/-- The derived name of an index: table, columns and kind joined by underscores, in lowercase,
with underscores for hyphens and dots. -/
def indexName (b : Blueprint) (kind : IndexKind) (columns : List String) : String :=
  (Text.lowercase ("_".intercalate (b.table :: columns ++ [kind.name]))).map fun c =>
    if c = '-' ∨ c = '.' then '_' else c

/-- An index on `columns` with its derived name. -/
def derivedIndex (b : Blueprint) (kind : IndexKind) (columns : List String) : Index :=
  ⟨b.indexName kind columns, columns⟩

/-- A foreign key with its derived name and without actions. -/
def derivedForeignKey (b : Blueprint) (columns : List String) (on : String)
    (references : List String) : ForeignKey :=
  { name := b.indexName .foreign columns, columns, on, references }

end Blueprint

end Schemata
