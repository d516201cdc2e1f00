import Schemata.Config.Basic
import Schemata.SchemaError

/-!
# Errors of the database client

Why a target cannot be used or a statement has no result, and the message for each cause.
What the engine or the network reports is kept as text.
-/
namespace Schemata

inductive ClientError where
  | configuration (e : ConfigError)
  /-- The pool handed out no connection. -/
  | poolExhausted (reason : String)
  /-- A connection could not be opened. -/
  | connect (reason : String)
  /-- The engine refused the statement. -/
  | execution (reason : String)
  /-- The statement took longer than it was given. -/
  | timeout (limit : Duration)
  | schema (e : SchemaError)
  deriving DecidableEq, Repr

def ClientError.message : ClientError → String
  | .configuration e => "Configuration error: " ++ e.message
  | .poolExhausted reason => "Failed to acquire a pooled connection: " ++ reason
  | .connect reason => "Failed to connect: " ++ reason
  | .execution reason => "Statement failed: " ++ reason
  | .timeout limit => "Statement timed out after " ++ limit.text
  | .schema e => e.message

end Schemata
