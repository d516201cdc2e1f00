import Schemata.Proofs.Quoting.Frame

/-!
# What statements quote

Two descriptions of a statement that do not look at its text. `Layout.statements` lists, for
every command and dialect, the quoted tokens of each statement in their order. `blank` empties
all names, enum values and string defaults of a blueprint or a command and keeps what decides
the shape of a statement: how many segments a name has and which of them are `*`, the types
with their numbers, flags, and defaults that are no strings.
-/
namespace Schemata

namespace Layout

open Quoting

/-- A name that is not split at dots; `*` stands unquoted. -/
def name (n : String) : List Token := if n = "*" then [] else [⟨.identifier, n⟩]

/-- A name with its dotted segments. -/
def dotted (n : String) : List Token := (Text.splitAt '.' n).flatMap name

def dottedList (ns : List String) : List Token := ns.flatMap dotted

/-- Only MySQL writes the values of an enum. -/
def enumValues : Dialect → ColumnType → List Token
  | .mysql, .enum values => values.map (⟨.string, ·⟩)
  | _, _ => []

def default : Option DefaultValue → List Token
  | some (.string s) => [⟨.string, s⟩]
  | _ => []

def column (d : Dialect) (c : Column) : List Token :=
  dotted c.name ++ enumValues d c.type ++ default c.default

def foreignKey (k : ForeignKey) : List Token :=
  dottedList k.columns ++ dotted k.on ++ dottedList k.references

/-- SQLite declares all foreign keys and the first primary key in `create table`. -/
def inlineKeys (d : Dialect) (b : Blueprint) : List Token :=
  match d with
  | .sqlite => b.foreignKeys.flatMap foreignKey ++ b.primaryKeys.head?.toList.flatMap (dottedList ·.columns)
  | _ => []

/-- The quoted tokens of each statement of a command, in order of appearance. -/
def statements (d : Dialect) (b : Blueprint) : Command → List (List Token)
  | .create => [dotted b.table ++ b.columns.flatMap (column d) ++ inlineKeys d b]
  | .add =>
    match d with
    | .sqlite => b.columns.map fun c => dotted b.table ++ column d c
    | _ => [dotted b.table ++ b.columns.flatMap (column d)]
  | .rename newName => [dotted b.table ++ dotted newName]
  | .dropTable | .dropTableIfExists => [dotted b.table]
  | .dropColumn columns => [dotted b.table ++ dottedList columns]
  | .unique i =>
    match d with
    | .sqlite => [name i.name ++ dotted b.table ++ dottedList i.columns]
    | _ => [dotted b.table ++ name i.name ++ dottedList i.columns]
  | .index i =>
    match d with
    | .mysql => [dotted b.table ++ name i.name ++ dottedList i.columns]
    | _ => [name i.name ++ dotted b.table ++ dottedList i.columns]
  | .dropUnique n =>
    match d with
    | .sqlite => [name n]
    | _ => [dotted b.table ++ name n]
  | .dropIndex n =>
    match d with
    | .mysql => [dotted b.table ++ name n]
    | _ => [name n]
  | .foreign k =>
    match d with
    | .sqlite => []
    | _ => [dotted b.table ++ name k.name ++ foreignKey k]
  | .primary i =>
    match d with
    | .sqlite => []
    | .mysql => [dotted b.table ++ dottedList i.columns]
    | .postgres => [dotted b.table ++ name i.name ++ dottedList i.columns]
  | .dropForeign n => [dotted b.table ++ name n]
  | .dropPrimary n =>
    match d with
    | .mysql => [dotted b.table]
    | _ => [dotted b.table ++ name n]

end Layout

namespace Identifier

/-- A name that is not split, emptied unless it is `*`. -/
def blankSegment (n : String) : String := if n = "*" then n else ""

/-- A dotted name with every segment emptied that is not `*`. -/
def blank (n : String) : String := ".".intercalate ((Text.splitAt '.' n).map blankSegment)

end Identifier

open Identifier (blankSegment)

def ColumnType.blank : ColumnType → ColumnType
  | .enum values => .enum (values.map fun _ => "")
  | type => type

def DefaultValue.blank : DefaultValue → DefaultValue
  | .string _ => .string ""
  | value => value

def Column.blank (c : Column) : Column :=
  { c with
    name := Identifier.blank c.name
    type := c.type.blank
    default := c.default.map DefaultValue.blank }

def Index.blank (i : Index) : Index := ⟨blankSegment i.name, i.columns.map Identifier.blank⟩

def ForeignKey.blank (k : ForeignKey) : ForeignKey :=
  { k with
    name := blankSegment k.name
    columns := k.columns.map Identifier.blank
    on := Identifier.blank k.on
    references := k.references.map Identifier.blank }

def Command.blank : Command → Command
  | .create => .create
  | .add => .add
  | .rename newName => .rename (Identifier.blank newName)
  | .dropTable => .dropTable
  | .dropTableIfExists => .dropTableIfExists
  | .dropColumn columns => .dropColumn (columns.map Identifier.blank)
  | .unique i => .unique i.blank
  | .index i => .index i.blank
  | .dropUnique n => .dropUnique (blankSegment n)
  | .dropIndex n => .dropIndex (blankSegment n)
  | .foreign k => .foreign k.blank
  | .primary i => .primary i.blank
  | .dropForeign n => .dropForeign (blankSegment n)
  | .dropPrimary n => .dropPrimary (blankSegment n)

def Blueprint.blank (b : Blueprint) : Blueprint :=
  { table := Identifier.blank b.table
    columns := b.columns.map Column.blank
    commands := b.commands.map Command.blank }

@[simp] theorem Column.isIncrement_blank (c : Column) : c.blank.isIncrement = c.isIncrement := by
  obtain ⟨name, type, nullable, default, autoIncrement⟩ := c
  cases type <;> rfl

@[simp] theorem Blueprint.foreignKeys_blank (b : Blueprint) :
    b.blank.foreignKeys = b.foreignKeys.map ForeignKey.blank := by
  unfold foreignKeys blank
  rw [List.filterMap_map, List.map_filterMap]
  congr 1
  funext c
  cases c <;> rfl

@[simp] theorem Blueprint.primaryKeys_blank (b : Blueprint) :
    b.blank.primaryKeys = b.primaryKeys.map Index.blank := by
  unfold primaryKeys blank
  rw [List.filterMap_map, List.map_filterMap]
  congr 1
  funext c
  cases c <;> rfl

/-- Emptying segments neither adds nor removes a dot. -/
theorem Identifier.splitAt_blank (n : String) :
    Text.splitAt '.' (blank n) = (Text.splitAt '.' n).map blankSegment := by
  have hdot : ∀ l ∈ ((Text.splitAt '.' n).map blankSegment).map String.toList, '.' ∉ l := by
    intro l hl
    obtain ⟨t, ht, rfl⟩ := List.mem_map.mp hl
    obtain ⟨m, _, rfl⟩ := List.mem_map.mp ht
    unfold blankSegment
    split
    · rename_i hm
      rw [hm]
      decide
    · decide
  have hne : ((Text.splitAt '.' n).map blankSegment).map String.toList ≠ [] := by
    simp [Text.splitAt]
  have hsep : ".".toList = ['.'] := by decide
  unfold Text.splitAt at hdot hne ⊢
  unfold blank Text.splitAt
  rw [String.toList_intercalate, hsep, List.splitOn_intercalate '.' hdot hne, List.map_map]
  simp

end Schemata
