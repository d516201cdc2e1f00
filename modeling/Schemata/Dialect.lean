import Schemata.Text.Lowercase
import Schemata.Text.Quoted

/-!
# Dialects

The supported database engines, the names they go by, and the dialect that a
connection URL asks for.
-/
namespace Schemata

inductive Dialect where
  | sqlite
  | mysql
  | postgres
  deriving DecidableEq, Repr

namespace Dialect

def all : List Dialect := [.sqlite, .mysql, .postgres]

def name : Dialect → String
  | .sqlite => "sqlite"
  | .mysql => "mysql"
  | .postgres => "postgres"

/-- The dialect of exactly this name. -/
def ofName? (s : String) : Option Dialect := all.find? (·.name == s)

/-- The dialect that a text asks for, by name or alias; the case of ASCII letters is free. -/
def parse? (s : String) : Option Dialect :=
  match Text.asciiLowercase s with
  | "sqlite" | "sqlite3" => some .sqlite
  | "mysql" | "mariadb" => some .mysql
  | "postgres" | "postgresql" | "pg" => some .postgres
  | _ => none

/-- What is said of a text that asks for no dialect. -/
def unknownMessage (s : String) : String := "unknown dialect '" ++ Text.asciiLowercase s ++ "'"

/-- The dialect of a URL, read off what stands before its first colon. -/
def ofUrl? (url : String) : Option Dialect :=
  parse? (String.ofList (url.toList.takeWhile (· ≠ ':')))

end Dialect

end Schemata
