import Schemata.Text.Quoted

/-!
# Written identifiers

An identifier is quoted by the dialect's quote character. A dotted name is quoted
segment by segment, and a segment `*` stands unquoted.
-/
namespace Schemata.Identifier

/-- One segment, or a name that is not split. -/
def segment (q : Char) (name : String) : String :=
  if name = "*" then name else Text.quote q name

/-- A name that may be dotted. -/
def qualified (q : Char) (name : String) : String :=
  ".".intercalate ((Text.splitAt '.' name).map (segment q))

def list (q : Char) (names : List String) : String :=
  Text.commaJoin (names.map (qualified q))

end Schemata.Identifier
