import Schemata.Config.Basic
import Schemata.Json.Decode
import Schemata.Json.Reader

/-!
# Configurations as JSON documents

All keys but the URL of a connection may be left out. Pooling is a truth value or the
bounds of the pool; `true` stands for the default bounds.
-/
namespace Schemata

open Json

namespace Dialect

def toJson (d : Dialect) : Json := .str d.name

end Dialect

namespace ConnectionSettings

def toJson (s : ConnectionSettings) : Json :=
  .obj (("url", .str s.url) :: (s.explicitDialect.map fun d => ("dialect", d.toJson)).toList)

def decodeDialect : Decoder (Option Dialect) := .optional (.choice Dialect.ofName?)

structure Fields where
  url : Option String := none
  dialect : Option (Option Dialect) := none

def Fields.step (p : Place) (s : Fields) (key : String) (d : Draft) : Except Fault Fields := do
  match key with
  | "url" => pure { s with url := ← Decoder.once s.url Decoder.string p d }
  | "dialect" => pure { s with dialect := ← Decoder.once s.dialect decodeDialect p d }
  | _ => do d.skip; pure s

def decode : Decoder ConnectionSettings
  | p, .obj members ending => do
    let p ← p.enter
    let s ← Decoder.foldMembers (Fields.step p) {} members
    endsWell ending
    let some url := s.url | .error .mismatched
    pure { url, explicitDialect := s.dialect.getD none }
  | p, .arr items ending => do
    let p ← p.enter
    let (url, items) ← Decoder.nextItem (Decoder.string p) (.error .mismatched) ending items
    let (dialect, items) ← Decoder.nextItem (decodeDialect p) (pure none) ending items
    Decoder.noMore p ending items
    pure { url, explicitDialect := dialect }
  | _, d => .error d.mismatch

end ConnectionSettings

namespace PoolBounds

def toJson (b : PoolBounds) : Json :=
  .obj ([("max", .int b.max.toNat), ("min", .int b.min.toNat),
    ("idleTimeoutMillis", .int b.idleTimeoutMillis.toNat)]
    ++ (b.acquireTimeoutMillis.map fun ms => ("acquireTimeoutMillis", Json.int ms.toNat)).toList)

structure Fields where
  max : Option Nat := none
  min : Option Nat := none
  idle : Option Nat := none
  acquire : Option (Option Nat) := none

def Fields.build (s : Fields) : PoolBounds :=
  let standard : PoolBounds := {}
  { max := (s.max.map (·.toUInt32)).getD standard.max
    min := (s.min.map (·.toUInt32)).getD standard.min
    idleTimeoutMillis := (s.idle.map (·.toUInt64)).getD standard.idleTimeoutMillis
    acquireTimeoutMillis := (s.acquire.getD none).map (·.toUInt64) }

def count : Decoder Nat := .natBelow UInt32.size
def millis : Decoder Nat := .natBelow UInt64.size

def Fields.step (p : Place) (s : Fields) (key : String) (d : Draft) : Except Fault Fields := do
  match key with
  | "max" => pure { s with max := ← Decoder.once s.max count p d }
  | "min" => pure { s with min := ← Decoder.once s.min count p d }
  | "idleTimeoutMillis" => pure { s with idle := ← Decoder.once s.idle millis p d }
  | "acquireTimeoutMillis" =>
    pure { s with acquire := ← Decoder.once s.acquire (.optional millis) p d }
  | _ => do d.skip; pure s

def decode : Decoder PoolBounds
  | p, .obj members ending => do
    let p ← p.enter
    let s ← Decoder.foldMembers (Fields.step p) {} members
    endsWell ending
    pure s.build
  | p, .arr items ending => do
    let p ← p.enter
    let item (decoder : Decoder Nat) := Decoder.nextItem (fun d => some <$> decoder p d) (pure none)
    let (max, items) ← item count ending items
    let (min, items) ← item count ending items
    let (idle, items) ← item millis ending items
    let (acquire, items) ←
      Decoder.nextItem (Decoder.optional millis p) (pure none) ending items
    Decoder.noMore p ending items
    pure (Fields.build { max, min, idle, acquire := some acquire })
  | _, d => .error d.mismatch

end PoolBounds

namespace Pooling

def toJson : Pooling → Json
  | .disabled => .bool false
  | .enabled bounds => bounds.toJson

/-- The value is read as a whole before it is taken for a truth value or for bounds. -/
def ofJson : Json → Except Fault Pooling
  | .bool false => pure .disabled
  | .bool true => pure (.enabled {})
  | v => .enabled <$> PoolBounds.decode .whole (.ofJson v)

def decode : Decoder Pooling := .buffered ofJson

end Pooling

namespace Config

def toJson (c : Config) : Json :=
  .obj ((c.connection.map fun s => ("connection", s.toJson)).toList
    ++ [("pool", c.pooling.toJson), ("debug", .bool c.debug)])

structure Fields where
  connection : Option (Option ConnectionSettings) := none
  pooling : Option Pooling := none
  debug : Option Bool := none

def Fields.step (p : Place) (s : Fields) (key : String) (d : Draft) : Except Fault Fields := do
  match key with
  | "connection" =>
    pure { s with
      connection := ← Decoder.once s.connection (.optional ConnectionSettings.decode) p d }
  | "pool" => pure { s with pooling := ← Decoder.once s.pooling Pooling.decode p d }
  | "debug" => pure { s with debug := ← Decoder.once s.debug Decoder.bool p d }
  | _ => do d.skip; pure s

def decode : Decoder Config
  | p, .obj members ending => do
    let p ← p.enter
    let s ← Decoder.foldMembers (Fields.step p) {} members
    endsWell ending
    pure { connection := s.connection.getD none, pooling := s.pooling.getD (.enabled {}),
           debug := s.debug.getD false }
  | p, .arr items ending => do
    let p ← p.enter
    let (connection, items) ←
      Decoder.nextItem (Decoder.optional ConnectionSettings.decode p) (pure none) ending items
    let (pooling, items) ← Decoder.nextItem (Pooling.decode p) (pure (.enabled {})) ending items
    let (debug, items) ← Decoder.nextItem (Decoder.bool p) (pure false) ending items
    Decoder.noMore p ending items
    pure { connection, pooling, debug }
  | _, d => .error d.mismatch

def ofDocument (doc : Document) : Except Fault Config := doc.decode decode

end Config

inductive FileContent where
  /-- There is no file, or no text in it. -/
  | unreadable
  | text (s : String)
  deriving DecidableEq, Repr

/-- Why a configuration file cannot be used. -/
inductive ConfigFileError where
  | unreadable
  | document (fault : Fault)
  | invalid (e : ConfigError)
  deriving DecidableEq, Repr

/-- The configuration of a file: read, decoded and checked. -/
def Config.ofFile : FileContent → Except ConfigFileError Config
  | .unreadable => .error .unreadable
  | .text s => do
    let c ← (Config.ofDocument (.ofText s)).mapError .document
    c.validate.mapError .invalid
    pure c

end Schemata
