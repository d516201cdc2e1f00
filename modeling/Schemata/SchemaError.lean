import Schemata.Dialect

/-!
# Compilation errors

Why a blueprint does not compile, and the message for each cause.
-/
namespace Schemata

inductive SchemaError where
  /-- The dialect has no way to express the operation. -/
  | unsupportedOperation (dialect : Dialect) (operation : String)
  /-- There is more than one `primary` command. -/
  | duplicatePrimaryKey (dialect : Dialect) (table : String)
  /-- There is a `primary` command beside an auto-increment column. -/
  | conflictingPrimaryKey (dialect : Dialect) (table column : String)
  /-- An enum column lists no values. -/
  | emptyEnum (table column : String)
  /-- A command that needs columns has none. -/
  | emptyColumns (operation table : String)
  deriving DecidableEq, Repr

def SchemaError.message : SchemaError → String
  | .unsupportedOperation dialect operation =>
    operation ++ " is not supported by the " ++ dialect.name ++ " dialect"
  | .duplicatePrimaryKey dialect table =>
    "table '" ++ table ++ "' declares more than one primary key (" ++ dialect.name ++ ")"
  | .conflictingPrimaryKey dialect table column =>
    "table '" ++ table ++ "' has auto-increment column '" ++ column
      ++ "', which is already the primary key; remove the primary command (" ++ dialect.name ++ ")"
  | .emptyEnum table column =>
    "enum column '" ++ column ++ "' on table '" ++ table ++ "' must list at least one value"
  | .emptyColumns operation table =>
    operation ++ " on table '" ++ table ++ "' requires at least one column"

end Schemata
