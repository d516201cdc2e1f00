import Schemata.Blueprint.Basic
import Schemata.Decimal.Layout
import Schemata.Identifier
import Schemata.SchemaError

/-!
# Grammars

A grammar says how one database engine spells the commands. What dialects spell alike is
defined here once for all grammars; a capability table drives the structural differences:
whether keys stand inside `create table`, whether one `alter table` adds several columns,
and whether columns can be dropped. What each dialect spells its own way is a field.
-/
namespace Schemata

structure Capabilities where
  /-- Keys can be declared in `create table` only. -/
  inlineKeys : Bool
  /-- One `alter table` may add several columns. -/
  multiColumnAdd : Bool
  dropColumn : Bool
  deriving DecidableEq, Repr

/-- The phrases that `create table` is made of. -/
structure Phrases where
  capabilities : Capabilities
  table : String → String
  /-- Column names in brackets, as written. -/
  columnList : List String → String
  columnDefinitions : Blueprint → List String
  foreignKeyClause : ForeignKey → String

namespace Phrases

variable (p : Phrases)

/-- The clause of a primary key inside `create table`. -/
def primaryKeyClause (i : Index) : String := "primary key (" ++ p.columnList i.columns ++ ")"

/-- The key clauses of `create table`: all foreign keys, then the first primary key. -/
def keyClauses (b : Blueprint) : List String :=
  if p.capabilities.inlineKeys then
    b.foreignKeys.map p.foreignKeyClause ++ (b.primaryKeys.head?.map p.primaryKeyClause).toList
  else []

variable {p} in
theorem keyClauses_inline (h : p.capabilities.inlineKeys = true) (b : Blueprint) :
    p.keyClauses b =
      b.foreignKeys.map p.foreignKeyClause ++ b.primaryKeys.head?.toList.map p.primaryKeyClause := by
  rw [keyClauses, if_pos h, Option.toList_map]

variable {p} in
theorem keyClauses_apart (h : p.capabilities.inlineKeys = false) (b : Blueprint) :
    p.keyClauses b = [] :=
  if_neg (by simp [h])

/-- The key clauses follow the column definitions, each after a comma of its own. -/
def createTable (b : Blueprint) : String :=
  "create table " ++ p.table b.table ++ " (" ++ Text.commaJoin (p.columnDefinitions b)
    ++ "".intercalate ((p.keyClauses b).map (", " ++ ·)) ++ ")"

end Phrases

/-- What may follow the type of a column. -/
inductive Modifier where
  | nullable
  | default
  | increment
  deriving DecidableEq, Repr

namespace Modifier

def all : List Modifier := [.nullable, .default, .increment]

def name : Modifier → String
  | .nullable => "nullable"
  | .default => "default"
  | .increment => "increment"

def ofName? (s : String) : Option Modifier := all.find? (·.name == s)

end Modifier

structure Grammar where
  dialect : Dialect
  quote : Char
  capabilities : Capabilities
  modifiers : List Modifier := Modifier.all
  typeSql : Column → String
  /-- What follows the definition of an auto-increment column. -/
  incrementSql : String
  defaultSql : DefaultValue → String
  /-- What introduces each clause of an addition of several columns. -/
  addColumnKeyword : String := "add column"
  /-- The parameterized query for a table of a given name. -/
  tableExistsSql : String
  rename : Blueprint → String → String
  unique : Blueprint → Index → String
  index : Blueprint → Index → String
  dropUnique : Blueprint → String → String
  dropIndex : Blueprint → String → String
  /-- Nothing where the key stands inside `create table`. -/
  foreign : Blueprint → ForeignKey → Option String
  /-- Nothing where the key stands inside `create table`. -/
  primary : Blueprint → Index → Option String
  dropForeign : Blueprint → String → Except SchemaError String
  dropPrimary : Blueprint → String → Except SchemaError String

namespace Grammar

/-- The clause of a foreign key, its actions included. -/
def foreignKeyClause (quote : Char) (k : ForeignKey) : String :=
  "foreign key (" ++ Identifier.list quote k.columns ++ ") references "
    ++ Identifier.qualified quote k.on ++ " (" ++ Identifier.list quote k.references ++ ")"
    ++ action " on delete " k.onDelete ++ action " on update " k.onUpdate
where
  action (event : String) : Option ForeignKeyAction → String
    | none => ""
    | some a => event ++ a.sql

/-- A default value as a literal; `boolean` spells the truth values. -/
def literal (boolean : Bool → String) : DefaultValue → String
  | .boolean b => boolean b
  | .integer i => toString i.toInt
  | .float f => Decimal.sqlText f
  | .string s => Text.quoteLiteral s

variable (g : Grammar)

def table (b : Blueprint) : String := Identifier.qualified g.quote b.table

/-- Auto-increment columns carry no nullable clause. -/
def nullableClause (c : Column) : Option String :=
  if c.isIncrement then none else some (if c.nullable then " null" else " not null")

def defaultClause (c : Column) : Option String :=
  c.default.map fun v => " default " ++ g.defaultSql v

def incrementClause (c : Column) : Option String :=
  if c.isIncrement then some g.incrementSql else none

/-- The text of one modifier, if it applies to the column. -/
def modify (c : Column) : Modifier → Option String
  | .nullable => nullableClause c
  | .default => g.defaultClause c
  | .increment => g.incrementClause c

/-- Name, type, and the modifiers that apply. -/
def columnDefinition (c : Column) : String :=
  Identifier.qualified g.quote c.name ++ " " ++ g.typeSql c
    ++ "".intercalate (g.modifiers.filterMap (g.modify c))

def columnDefinitions (b : Blueprint) : List String := b.columns.map g.columnDefinition

def phrases : Phrases where
  capabilities := g.capabilities
  table := Identifier.qualified g.quote
  columnList := Identifier.list g.quote
  columnDefinitions := g.columnDefinitions
  foreignKeyClause := foreignKeyClause g.quote

def createTable (b : Blueprint) : String := g.phrases.createTable b

theorem createTable_eq (b : Blueprint) :
    g.createTable b = "create table " ++ Identifier.qualified g.quote b.table ++ " ("
      ++ Text.commaJoin (g.columnDefinitions b)
      ++ "".intercalate ((g.phrases.keyClauses b).map (", " ++ ·)) ++ ")" := rfl

def addColumn (b : Blueprint) (c : Column) : String :=
  "alter table " ++ g.table b ++ " add column " ++ g.columnDefinition c

/-- One statement for all columns, or one for each. -/
def add (b : Blueprint) : List String :=
  if g.capabilities.multiColumnAdd then
    ["alter table " ++ g.table b ++ " "
      ++ Text.commaJoin ((g.columnDefinitions b).map fun d => g.addColumnKeyword ++ " " ++ d)]
  else
    b.columns.map (g.addColumn b)

variable {g} in
theorem add_together (h : g.capabilities.multiColumnAdd = true) (b : Blueprint) :
    g.add b = ["alter table " ++ g.table b ++ " "
      ++ Text.commaJoin ((g.columnDefinitions b).map (g.addColumnKeyword ++ " " ++ ·))] :=
  if_pos h

variable {g} in
theorem add_oneByOne (h : g.capabilities.multiColumnAdd = false) (b : Blueprint) :
    g.add b = b.columns.map (g.addColumn b) :=
  if_neg (by simp [h])

def dropTable (b : Blueprint) : String := "drop table " ++ g.table b

def dropTableIfExists (b : Blueprint) : String := "drop table if exists " ++ g.table b

/-- The error for an operation that the dialect cannot express. -/
def unsupported (operation : String) : SchemaError := .unsupportedOperation g.dialect operation

def dropColumn (b : Blueprint) (columns : List String) : Except SchemaError String :=
  if g.capabilities.dropColumn then
    .ok ("alter table " ++ g.table b ++ " "
      ++ Text.commaJoin (columns.map fun c => "drop column " ++ Identifier.qualified g.quote c))
  else .error (g.unsupported "dropColumn")

end Grammar

end Schemata
