import Schemata.Blueprint.Basic
import Schemata.Json.Decode

/-!
# Blueprints as JSON documents

An encoder and a decoder for every part of a blueprint. Keys may stand in any order,
unknown keys are passed over, and a known key may stand only once. A column's type and
the type's parameters stand among the column's own keys, so the type is looked at when
the whole column has been read; likewise a command's fields.
-/
namespace Schemata

open Json

namespace ColumnType

/-- The keys of a type: its name under `type`, and its parameters. -/
def toMembers (t : ColumnType) : List (String × Json) :=
  ("type", .str t.name) ::
    match t with
    | .string length => [("length", .int length.toNat)]
    | .float precision scale | .decimal precision scale =>
      [("precision", .int precision.toNat), ("scale", .int scale.toNat)]
    | .enum values => [("values", Json.strings values)]
    | _ => []

/-- Parameters under a type's keys, as far as they have been met. -/
structure Parameters where
  length : Option Nat := none
  precision : Option Nat := none
  scale : Option Nat := none
  values : Option (List String) := none

/-- The keys that belong to a type. -/
inductive Kind where
  | plain (t : ColumnType)
  | string
  | float
  | decimal
  | enum

/-- The kinds in the order that their numbers follow. -/
def kinds : List (String × Kind) :=
  [("string", .string), ("text", .plain .text), ("integer", .plain .integer), ("float", .float),
    ("decimal", .decimal), ("boolean", .plain .boolean), ("enum", .enum), ("date", .plain .date),
    ("datetime", .plain .dateTime), ("time", .plain .time), ("timestamp", .plain .timestamp),
    ("binary", .plain .binary)]

/-- The kind named by a `type` key, which may also hold the kind's number. -/
def kind? : Json → Option Kind
  | .str s => kinds.lookup s
  | .int (.ofNat n) => (kinds[n]?).map Prod.snd
  | _ => none

/-- Takes in the value of one key if the kind has such a parameter. -/
def Kind.step (kind : Kind) (s : Parameters) (key : String) (d : Draft) :
    Except Fault Parameters := do
  match kind, key with
  | .string, "length" =>
    pure { s with length := ← Decoder.once s.length (Decoder.natBelow UInt32.size) .whole d }
  | .float, "precision" | .decimal, "precision" =>
    pure { s with precision := ← Decoder.once s.precision (Decoder.natBelow UInt8.size) .whole d }
  | .float, "scale" | .decimal, "scale" =>
    pure { s with scale := ← Decoder.once s.scale (Decoder.natBelow UInt8.size) .whole d }
  | .enum, "values" =>
    pure { s with values := ← Decoder.once s.values (Decoder.list Decoder.string) .whole d }
  | _, _ => pure s

/-- The type of a kind with these parameters; only an enum's values have no default. -/
def Kind.build (kind : Kind) (s : Parameters) : Except Fault ColumnType :=
  let precision := (s.precision.map (·.toUInt8)).getD defaultPrecision
  let scale := (s.scale.map (·.toUInt8)).getD defaultScale
  match kind with
  | .plain t => pure t
  | .string => pure (.string ((s.length.map (·.toUInt32)).getD defaultLength))
  | .float => pure (.float precision scale)
  | .decimal => pure (.decimal precision scale)
  | .enum =>
    match s.values with
    | some values => pure (.enum values)
    | none => .error .mismatched

/-- The type among the keys that are not a column's own. -/
def ofMembers (members : List (String × Json)) : Except Fault ColumnType :=
  match members.filter (·.1 == "type") with
  | [(_, tag)] =>
    match kind? tag with
    | none => .error .mismatched
    | some kind => do
      let s ← Decoder.foldMembers kind.step {} (Draft.ofJson.ofMembers members)
      kind.build s
  | _ => .error .mismatched

end ColumnType

namespace DefaultValue

/-- A float that is not finite is lost. -/
def toJson : DefaultValue → Json
  | .boolean b => .bool b
  | .integer i => .int i.toInt
  | .float f => Json.ofFloat f
  | .string s => .str s

/-- An integer beyond 64 signed bits is taken as a float. -/
def ofJson : Json → Except Fault DefaultValue
  | .bool b => pure (.boolean b)
  | .int i =>
    match int64? i with
    | some i => pure (.integer i)
    | none => pure (.float (Float.ofInt i))
  | .float f => pure (.float f)
  | .str s => pure (.string s)
  | _ => .error .mismatched

def decode : Decoder DefaultValue := .buffered ofJson

end DefaultValue

namespace Column

/-- The members of a column: its own and, after the name, those of its type. -/
def toMembers (c : Column) : List (String × Json) :=
  ("name", .str c.name) :: c.type.toMembers ++ ("nullable", .bool c.nullable) ::
    (match c.default with
      | some v => [("defaultValue", v.toJson)]
      | none => []) ++ [("autoIncrement", .bool c.autoIncrement)]

def toJson (c : Column) : Json := .obj c.toMembers

/-- A column's own keys as far as they have been met, and all others, last first. -/
structure Fields where
  name : Option String := none
  nullable : Option Bool := none
  default : Option (Option DefaultValue) := none
  autoIncrement : Option Bool := none
  others : List (String × Json) := []

def Fields.step (p : Place) (s : Fields) (key : String) (d : Draft) : Except Fault Fields := do
  match key with
  | "name" => pure { s with name := ← Decoder.once s.name Decoder.string p d }
  | "nullable" => pure { s with nullable := ← Decoder.once s.nullable Decoder.bool p d }
  | "defaultValue" =>
    pure { s with default := ← Decoder.once s.default (.optional DefaultValue.decode) p d }
  | "autoIncrement" =>
    pure { s with autoIncrement := ← Decoder.once s.autoIncrement Decoder.bool p d }
  | _ => pure { s with others := (key, ← d.read p.depth) :: s.others }

def Fields.build (s : Fields) : Except Fault Column := do
  let some name := s.name | .error .mismatched
  let type ← ColumnType.ofMembers s.others.reverse
  pure { name, type, nullable := s.nullable.getD false, default := s.default.getD none,
         autoIncrement := s.autoIncrement.getD false }

/-- A column is always an object. -/
def decode : Decoder Column
  | p, .obj members ending => do
    let p ← p.enter
    let s ← Decoder.foldMembers (Fields.step p) {} members
    endsWell ending
    s.build
  | _, d => .error d.mismatch

end Column

namespace Index

def toMembers (i : Index) : List (String × Json) :=
  [("index", .str i.name), ("columns", Json.strings i.columns)]

structure Fields where
  name : Option String := none
  columns : Option (List String) := none

def Fields.step (p : Place) (s : Fields) (key : String) (d : Draft) : Except Fault Fields := do
  match key with
  | "index" => pure { s with name := ← Decoder.once s.name Decoder.string p d }
  | "columns" => pure { s with columns := ← Decoder.once s.columns (.list Decoder.string) p d }
  | _ => do d.skip; pure s

/-- Both fields are needed. -/
def decode : Decoder Index
  | p, .obj members ending => do
    let p ← p.enter
    let s ← Decoder.foldMembers (Fields.step p) {} members
    endsWell ending
    let some name := s.name | .error .mismatched
    let some columns := s.columns | .error .mismatched
    pure ⟨name, columns⟩
  | p, .arr items ending => do
    let p ← p.enter
    let (name, items) ← Decoder.nextItem (Decoder.string p) (.error .mismatched) ending items
    let (columns, items) ←
      Decoder.nextItem (Decoder.list Decoder.string p) (.error .mismatched) ending items
    Decoder.noMore p ending items
    pure ⟨name, columns⟩
  | _, d => .error d.mismatch

end Index

namespace ForeignKeyAction

def toJson (a : ForeignKeyAction) : Json := .str a.name

def decode : Decoder (Option ForeignKeyAction) := .optional (.choice ofName?)

end ForeignKeyAction

namespace ForeignKey

/-- A missing action has no key. -/
def toMembers (k : ForeignKey) : List (String × Json) :=
  [("index", .str k.name), ("columns", Json.strings k.columns), ("on", .str k.on),
    ("references", Json.strings k.references)]
    ++ (k.onDelete.map fun a => ("onDelete", a.toJson)).toList
    ++ (k.onUpdate.map fun a => ("onUpdate", a.toJson)).toList

structure Fields where
  name : Option String := none
  columns : Option (List String) := none
  on : Option String := none
  references : Option (List String) := none
  onDelete : Option (Option ForeignKeyAction) := none
  onUpdate : Option (Option ForeignKeyAction) := none

def Fields.step (p : Place) (s : Fields) (key : String) (d : Draft) : Except Fault Fields := do
  match key with
  | "index" => pure { s with name := ← Decoder.once s.name Decoder.string p d }
  | "columns" => pure { s with columns := ← Decoder.once s.columns (.list Decoder.string) p d }
  | "on" => pure { s with on := ← Decoder.once s.on Decoder.string p d }
  | "references" =>
    pure { s with references := ← Decoder.once s.references (.list Decoder.string) p d }
  | "onDelete" =>
    pure { s with onDelete := ← Decoder.once s.onDelete ForeignKeyAction.decode p d }
  | "onUpdate" =>
    pure { s with onUpdate := ← Decoder.once s.onUpdate ForeignKeyAction.decode p d }
  | _ => do d.skip; pure s

/-- All fields but the actions are needed. -/
def Fields.build (s : Fields) : Except Fault ForeignKey := do
  let some name := s.name | .error .mismatched
  let some columns := s.columns | .error .mismatched
  let some on := s.on | .error .mismatched
  let some references := s.references | .error .mismatched
  pure { name, columns, on, references, onDelete := s.onDelete.getD none,
         onUpdate := s.onUpdate.getD none }

def decode : Decoder ForeignKey
  | p, .obj members ending => do
    let p ← p.enter
    let s ← Decoder.foldMembers (Fields.step p) {} members
    endsWell ending
    s.build
  | p, .arr items ending => do
    let p ← p.enter
    let needed {α : Type} : Except Fault α := .error .mismatched
    let (name, items) ← Decoder.nextItem (Decoder.string p) needed ending items
    let (columns, items) ← Decoder.nextItem (Decoder.list Decoder.string p) needed ending items
    let (on, items) ← Decoder.nextItem (Decoder.string p) needed ending items
    let (references, items) ← Decoder.nextItem (Decoder.list Decoder.string p) needed ending items
    let (onDelete, items) ←
      Decoder.nextItem (ForeignKeyAction.decode p) (pure none) ending items
    let (onUpdate, items) ←
      Decoder.nextItem (ForeignKeyAction.decode p) (pure none) ending items
    Decoder.noMore p ending items
    pure { name, columns, on, references, onDelete, onUpdate }
  | _, d => .error d.mismatch

end ForeignKey

namespace Command

/-- The fields of a command. -/
def toMembers : Command → List (String × Json)
  | .create | .add | .dropTable | .dropTableIfExists => []
  | .rename newName => [("to", .str newName)]
  | .dropColumn columns => [("columns", Json.strings columns)]
  | .unique i | .index i | .primary i => i.toMembers
  | .foreign k => k.toMembers
  | .dropUnique name | .dropIndex name | .dropForeign name | .dropPrimary name =>
    [("index", .str name)]

/-- The command's name under `name`, and its fields. -/
def toJson (c : Command) : Json := .obj (("name", .str c.name) :: c.toMembers)

/-- A command without fields: an object may hold anything, an array nothing. -/
def decodeBare (c : Command) : Decoder Command
  | _, .arr [] _ => pure c
  | _, .obj _ _ => pure c
  | _, _ => .error .mismatched

/-- A command with one field, which is needed. -/
def decodeSingle {α : Type} (key : String) (field : Decoder α) (build : α → Command) :
    Decoder Command
  | p, .obj members _ => do
    let p ← p.enter
    let s ← Decoder.foldMembers
      (fun (s : Option α) k d => if k == key then Decoder.once s field p d else pure s) none members
    match s with
    | some a => pure (build a)
    | none => .error .mismatched
  | p, .arr items ending => do
    let p ← p.enter
    let (a, items) ← Decoder.nextItem (field p) (.error .mismatched) ending items
    Decoder.noMore p ending items
    pure (build a)
  | _, d => .error d.mismatch

/-- How the fields of each command are decoded, by the command's name. -/
def decoders : List (String × Decoder Command) :=
  [("create", decodeBare .create),
    ("add", decodeBare .add),
    ("rename", decodeSingle "to" Decoder.string .rename),
    ("dropTable", decodeBare .dropTable),
    ("dropTableIfExists", decodeBare .dropTableIfExists),
    ("dropColumn", decodeSingle "columns" (.list Decoder.string) .dropColumn),
    ("unique", fun p d => Command.unique <$> Index.decode p d),
    ("index", fun p d => Command.index <$> Index.decode p d),
    ("dropUnique", decodeSingle "index" Decoder.string .dropUnique),
    ("dropIndex", decodeSingle "index" Decoder.string .dropIndex),
    ("foreign", fun p d => Command.foreign <$> ForeignKey.decode p d),
    ("primary", fun p d => Command.primary <$> Index.decode p d),
    ("dropForeign", decodeSingle "index" Decoder.string .dropForeign),
    ("dropPrimary", decodeSingle "index" Decoder.string .dropPrimary)]

/-- The decoder that the value of `name` selects. -/
def decodeTag (d : Draft) : Except Fault (Decoder Command) :=
  match d with
  | .str s =>
    match decoders.lookup s with
    | some decoder => pure decoder
    | none => .error .mismatched
  | d => .error d.mismatch

/-- The command's name if it has been met, and all other keys, last first. -/
structure Fields where
  tag : Option (Decoder Command) := none
  others : List (String × Json) := []

def Fields.step (p : Place) (s : Fields) (key : String) (d : Draft) : Except Fault Fields := do
  if key == "name" then
    pure { s with tag := ← Decoder.once s.tag (fun _ => decodeTag) p d }
  else
    pure { s with others := (key, ← d.read p.depth) :: s.others }

/-- An array holds the command's name and then its fields. -/
def decode : Decoder Command
  | p, .obj members ending => do
    let p ← p.enter
    let s ← Decoder.foldMembers (Fields.step p) {} members
    endsWell ending
    match s.tag with
    | some decoder => decoder .whole (.ofJson (.obj s.others.reverse))
    | none => .error .mismatched
  | p, .arr items ending => do
    let p ← p.enter
    let (decoder, items) ← Decoder.nextItem decodeTag (.error .mismatched) ending items
    let fields ← Draft.read.readItems p.depth items
    endsWell ending
    decoder .whole (.ofJson (.arr fields))
  | _, d => .error d.mismatch

end Command

namespace Blueprint

def toJson (b : Blueprint) : Json :=
  .obj [("table", .str b.table), ("columns", .arr (b.columns.map Column.toJson)),
    ("commands", .arr (b.commands.map Command.toJson))]

structure Fields where
  table : Option String := none
  columns : Option (List Column) := none
  commands : Option (List Command) := none

def Fields.step (p : Place) (s : Fields) (key : String) (d : Draft) : Except Fault Fields := do
  match key with
  | "table" => pure { s with table := ← Decoder.once s.table Decoder.string p d }
  | "columns" => pure { s with columns := ← Decoder.once s.columns (.list Column.decode) p d }
  | "commands" => pure { s with commands := ← Decoder.once s.commands (.list Command.decode) p d }
  | _ => do d.skip; pure s

/-- Only the table is needed. -/
def decode : Decoder Blueprint
  | p, .obj members ending => do
    let p ← p.enter
    let s ← Decoder.foldMembers (Fields.step p) {} members
    endsWell ending
    let some table := s.table | .error .mismatched
    pure { table, columns := s.columns.getD [], commands := s.commands.getD [] }
  | p, .arr items ending => do
    let p ← p.enter
    let (table, items) ← Decoder.nextItem (Decoder.string p) (.error .mismatched) ending items
    let (columns, items) ← Decoder.nextItem (Decoder.list Column.decode p) (pure []) ending items
    let (commands, items) ← Decoder.nextItem (Decoder.list Command.decode p) (pure []) ending items
    Decoder.noMore p ending items
    pure { table, columns, commands }
  | _, d => .error d.mismatch

def ofDocument (doc : Document) : Except Fault Blueprint := doc.decode decode

end Blueprint

end Schemata
