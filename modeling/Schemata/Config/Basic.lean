import Schemata.Dialect
import Schemata.Duration

/-!
# Configuration of a database target

Where to connect, how connections are pooled, and whether every statement is logged.
-/
namespace Schemata

structure ConnectionSettings where
  url : String
  /-- Stands before the dialect that the URL asks for. -/
  explicitDialect : Option Dialect := none
  deriving DecidableEq, Repr

namespace ConnectionSettings

/-- The explicit dialect, or else the one of the URL. -/
def dialect? (s : ConnectionSettings) : Option Dialect :=
  s.explicitDialect.or (Dialect.ofUrl? s.url)

/-- What follows the first occurrence of `pattern`. -/
def after? (pattern : List Char) (cs : List Char) : Option (List Char) :=
  if pattern.isPrefixOf cs then some (cs.drop pattern.length)
  else
    match cs with
    | [] => none
    | _ :: cs => after? pattern cs

/-- The name of the database: what stands in the URL between the slash that follows the
authority and a query or a fragment. -/
def databaseName? (s : ConnectionSettings) : Option String := do
  let rest ← after? [':', '/', '/'] s.url.toList
  let path ← after? ['/'] rest
  let name := path.takeWhile fun c => c ≠ '?' && c ≠ '#'
  if name.isEmpty then none else some (String.ofList name)

end ConnectionSettings

structure PoolBounds where
  max : UInt32 := 10
  /-- How many connections are kept open while idle. -/
  min : UInt32 := 2
  idleTimeoutMillis : UInt64 := 30000
  /-- How long a call waits for a free connection. -/
  acquireTimeoutMillis : Option UInt64 := none
  deriving DecidableEq, Repr

namespace PoolBounds

def idleTimeout (p : PoolBounds) : Duration := .ofMilliseconds p.idleTimeoutMillis.toNat

def acquireTimeout? (p : PoolBounds) : Option Duration :=
  p.acquireTimeoutMillis.map fun ms => .ofMilliseconds ms.toNat

end PoolBounds

/-- Whether statements borrow connections from a pool or share a single one. -/
inductive Pooling where
  | disabled
  | enabled (bounds : PoolBounds)
  deriving DecidableEq, Repr

structure Config where
  connection : Option ConnectionSettings := none
  pooling : Pooling := .enabled {}
  /-- Whether dispatched statements are logged for all to see. -/
  debug : Bool := false
  deriving DecidableEq, Repr

/-- Why a configuration cannot be used. -/
inductive ConfigError where
  | emptyPool
  | minAboveMax (min max : UInt32)
  | noConnection
  | unknownScheme (url : String)
  | noDatabase (url : String)
  deriving DecidableEq, Repr

def ConfigError.message : ConfigError → String
  | .emptyPool => "pool.max must be at least 1"
  | .minAboveMax min max =>
    "pool.min (" ++ toString min.toNat ++ ") exceeds pool.max (" ++ toString max.toNat ++ ")"
  | .noConnection => "no connection settings configured"
  | .unknownScheme url => "cannot infer a dialect from connection url '" ++ url ++ "'"
  | .noDatabase url => "connection url '" ++ url ++ "' names no database"

def ConnectionSettings.dialect (s : ConnectionSettings) : Except ConfigError Dialect :=
  match s.dialect? with
  | some d => .ok d
  | none => .error (.unknownScheme s.url)

namespace Config

def ofUrl (url : String) : Config := { connection := some { url } }

/-- Replaces the URL and keeps an explicit dialect. -/
def withUrl (c : Config) (url : String) : Config :=
  { c with
    connection := some { url, explicitDialect := c.connection.bind (·.explicitDialect) } }

def withPooling (c : Config) (pooling : Pooling) : Config := { c with pooling }

def validate (c : Config) : Except ConfigError Unit :=
  match c.pooling with
  | .disabled => .ok ()
  | .enabled bounds =>
    if bounds.max = 0 then .error .emptyPool
    else if bounds.max < bounds.min then .error (.minAboveMax bounds.min bounds.max)
    else .ok ()

end Config

end Schemata
