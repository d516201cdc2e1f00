import Schemata.Config.Basic

/-!
# Log records

What is worth a line in the log, how important it is, and how the line reads.
-/
namespace Schemata

/-- Identifies a connection in the log; never given out twice. -/
abbrev ConnectionId := Nat

namespace Log

inductive Level where
  | debug
  | info
  | warn
  deriving DecidableEq, Repr

def Level.name : Level → String
  | .debug => "DEBUG"
  | .info => "INFO"
  | .warn => "WARN"

inductive Event where
  | poolCreated (bounds : PoolBounds)
  | connectionOpened (connection : ConnectionId)
  | initialized (dialect : Dialect) (pooled : Bool)
  | initializationSkipped
  | dispatching (connection : ConnectionId) (sql : String)
  | dispatcherClosed
  | compiled (dialect : Dialect) (table : String) (statements : Nat)
  | applied (table : String) (statements : Nat)
  | dryRun
  | appliedTo (statements : Nat) (table : String)
  | rowsAffected (count : UInt64)
  deriving DecidableEq, Repr

namespace Event

def message : Event → String
  | .poolCreated _ => "Created connection pool"
  | .connectionOpened _ => "Opened connection"
  | .initialized _ _ => "Database initialized"
  | .initializationSkipped =>
    "No connection settings configured; database initialization skipped"
  | .dispatching _ _ => "Dispatching statement"
  | .dispatcherClosed => "Dispatcher closed"
  | .compiled _ _ _ => "Compiled blueprint"
  | .applied _ _ => "Applied blueprint"
  | .dryRun => "Dry run mode - SQL will be printed but not executed."
  | .appliedTo statements table =>
    "Applied " ++ toString statements ++ " statement(s) to table '" ++ table ++ "'."
  | .rowsAffected count => toString count.toNat ++ " row(s) affected."

/-- The hexadecimal digits of a number, the leading zeros left out. -/
def hexDigits (n : Nat) : List Char := Nat.toDigits 16 n

/-- A character inside quotes: quotes, backslashes and control characters are escaped. -/
def escape (c : Char) : List Char :=
  match c with
  | '"' => ['\\', '"']
  | '\\' => ['\\', '\\']
  | '\n' => ['\\', 'n']
  | '\r' => ['\\', 'r']
  | '\t' => ['\\', 't']
  | '\x00' => ['\\', '0']
  | c =>
    if c.toNat < 0x20 ∨ 0x7f ≤ c.toNat ∧ c.toNat < 0xa0 then
      ['\\', 'u', '\x7b'] ++ hexDigits c.toNat ++ ['\x7d']
    else [c]

/-- A statement in quotes. -/
def quoted (sql : String) : String := String.ofList ('"' :: (sql.toList.flatMap escape ++ ['"']))

def connectionName (c : ConnectionId) : String := "cid-" ++ toString c

def truth (b : Bool) : String := if b then "true" else "false"

/-- The named values behind the message. -/
def fields : Event → List (String × String)
  | .poolCreated bounds =>
    [("max", toString bounds.max.toNat), ("min", toString bounds.min.toNat),
      ("idle_timeout_ms", toString bounds.idleTimeoutMillis.toNat)]
  | .connectionOpened c => [("connection", connectionName c)]
  | .initialized dialect pooled => [("dialect", dialect.name), ("pooled", truth pooled)]
  | .dispatching c sql => [("connection", connectionName c), ("sql", quoted sql)]
  | .compiled dialect table statements =>
    [("dialect", dialect.name), ("table", table), ("statements", toString statements)]
  | .applied table statements => [("table", table), ("statements", toString statements)]
  | _ => []

end Event

structure Record where
  level : Level
  event : Event
  deriving DecidableEq, Repr

/-- A character of a message: one that could steer a terminal is spelled out. -/
def harmless (c : Char) : List Char :=
  match c with
  | '\x1b' => ['\\', 'x', '1', 'b']
  | '\x07' => ['\\', 'x', '0', '7']
  | '\x08' => ['\\', 'x', '0', '8']
  | '\x0c' => ['\\', 'x', '0', 'c']
  | '\x7f' => ['\\', 'x', '7', 'f']
  | c =>
    if 0x80 ≤ c.toNat ∧ c.toNat < 0xa0 then
      ['\\', 'u', '\x7b'] ++ Event.hexDigits c.toNat ++ ['\x7d']
    else [c]

/-- The line of a record: the level at the right of five places, the message, the values. Only
the message is kept from steering a terminal. -/
def Record.line (r : Record) : String :=
  let level := r.level.name
  String.ofList (List.replicate (5 - level.length) ' ') ++ level ++ " "
    ++ String.ofList (r.event.message.toList.flatMap harmless)
    ++ String.join (r.event.fields.map fun (name, value) => " " ++ name ++ "=" ++ value)

end Log

end Schemata
