import Schemata.Grammar.Dialects

/-!
# Compiling blueprints

A blueprint is checked as a whole before anything is compiled; then its commands are
compiled in order. Either all statements are returned or the first error.

The compiler does not look into a grammar. It asks for a spelling: the statements of each
command, any of which may be refused. The grammars of the dialects supply one, and so may
any other.
-/
namespace Schemata

/-- What the compiler asks for. -/
structure Spelling extends Phrases where
  dialect : Dialect
  /-- The error for an operation that cannot be expressed. -/
  unsupported : String → SchemaError
  create : Blueprint → Except SchemaError String
  add : Blueprint → Except SchemaError (List String)
  rename : Blueprint → String → Except SchemaError String
  dropTable : Blueprint → Except SchemaError String
  dropTableIfExists : Blueprint → Except SchemaError String
  dropColumn : Blueprint → List String → Except SchemaError String
  unique : Blueprint → Index → Except SchemaError String
  index : Blueprint → Index → Except SchemaError String
  dropUnique : Blueprint → String → Except SchemaError String
  dropIndex : Blueprint → String → Except SchemaError String
  /-- Nothing where the key stands inside `create table`. -/
  foreign : Blueprint → ForeignKey → Except SchemaError (Option String)
  /-- Nothing where the key stands inside `create table`. -/
  primary : Blueprint → Index → Except SchemaError (Option String)
  dropForeign : Blueprint → String → Except SchemaError String
  dropPrimary : Blueprint → String → Except SchemaError String

namespace Spelling

variable (g : Spelling)

/-- The statements of one command; none for a key that stands inside `create table`. -/
def compileCommand (b : Blueprint) : Command → Except SchemaError (List String)
  | .create => (g.create b).map ([·])
  | .add => g.add b
  | .rename newName => (g.rename b newName).map ([·])
  | .dropTable => (g.dropTable b).map ([·])
  | .dropTableIfExists => (g.dropTableIfExists b).map ([·])
  | .dropColumn columns => (g.dropColumn b columns).map ([·])
  | .unique i => (g.unique b i).map ([·])
  | .index i => (g.index b i).map ([·])
  | .dropUnique name => (g.dropUnique b name).map ([·])
  | .dropIndex name => (g.dropIndex b name).map ([·])
  | .foreign k => (g.foreign b k).map Option.toList
  | .primary i => (g.primary b i).map Option.toList
  | .dropForeign name => (g.dropForeign b name).map ([·])
  | .dropPrimary name => (g.dropPrimary b name).map ([·])

def duplicatePrimaryKey? (b : Blueprint) : Option SchemaError :=
  if 1 < b.primaryKeys.length then some (.duplicatePrimaryKey g.dialect b.table) else none

def conflictingPrimaryKey? (b : Blueprint) : Option SchemaError :=
  if b.primaryKeys.isEmpty then none
  else (b.columns.find? Column.isIncrement).map fun c =>
    .conflictingPrimaryKey g.dialect b.table c.name

def emptyEnum? (b : Blueprint) : Option SchemaError :=
  (b.columns.find? (·.type == .enum [])).map fun c => .emptyEnum b.table c.name

/-- A key that would be lost, because keys stand inside `create table` and there is none. -/
def strayKey? (b : Blueprint) : Option SchemaError :=
  if g.capabilities.inlineKeys && !b.createsTable then
    (b.commands.find? Command.declaresKey).map fun c => g.unsupported c.name
  else none

/-- Whether the command needs columns that are not there. -/
def lacksColumns (b : Blueprint) : Command → Bool
  | .create | .add => b.columns.isEmpty
  | .dropColumn columns => columns.isEmpty
  | .unique i | .index i | .primary i => i.columns.isEmpty
  | .foreign k => k.columns.isEmpty || k.references.isEmpty
  | _ => false

def emptyColumns? (b : Blueprint) : Option SchemaError :=
  (b.commands.find? (lacksColumns b)).map fun c => .emptyColumns c.name b.table

/-- The first rule that the blueprint breaks. -/
def violation? (b : Blueprint) : Option SchemaError :=
  (g.duplicatePrimaryKey? b).or <| (g.conflictingPrimaryKey? b).or <| (emptyEnum? b).or <|
    (g.strayKey? b).or (emptyColumns? b)

/-- The statements of all commands, in order. -/
def compile (b : Blueprint) : Except SchemaError (List String) :=
  match g.violation? b with
  | some e => .error e
  | none => (b.commands.mapM (g.compileCommand b)).map List.flatten

end Spelling

namespace Grammar

variable (g : Grammar)

/-- The spelling that a grammar amounts to. -/
def spelling : Spelling :=
  { g.phrases with
    dialect := g.dialect
    unsupported := g.unsupported
    create := fun b => .ok (g.createTable b)
    add := fun b => .ok (g.add b)
    rename := fun b newName => .ok (g.rename b newName)
    dropTable := fun b => .ok (g.dropTable b)
    dropTableIfExists := fun b => .ok (g.dropTableIfExists b)
    dropColumn := g.dropColumn
    unique := fun b i => .ok (g.unique b i)
    index := fun b i => .ok (g.index b i)
    dropUnique := fun b name => .ok (g.dropUnique b name)
    dropIndex := fun b name => .ok (g.dropIndex b name)
    foreign := fun b k => .ok (g.foreign b k)
    primary := fun b i => .ok (g.primary b i)
    dropForeign := g.dropForeign
    dropPrimary := g.dropPrimary }

def compileCommand (b : Blueprint) (c : Command) : Except SchemaError (List String) :=
  g.spelling.compileCommand b c

def compile (b : Blueprint) : Except SchemaError (List String) := g.spelling.compile b

/-- A one-line description of the compiler for this grammar. -/
def describe : String :=
  "SchemaCompiler \x7b dialect: " ++
    (match g.dialect with
      | .sqlite => "Sqlite"
      | .mysql => "MySql"
      | .postgres => "Postgres") ++ " \x7d"

end Grammar

end Schemata
