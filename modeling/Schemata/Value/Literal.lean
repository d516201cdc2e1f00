import Schemata.Decimal.Literal
import Schemata.Text.Lowercase
import Schemata.Value.Basic

/-!
# Value literals

Free text as a value: `null` in any case, `true` and `false`, integers of 64 signed bits,
other numbers as floats, and everything else as text.
-/
namespace Schemata.Value

def boolean? (s : String) : Option Bool :=
  if s = "true" then some true else if s = "false" then some false else none

/-- An integer literal within 64 signed bits. -/
def integer? (s : String) : Option Int64 := (Decimal.integer? s).bind Json.int64?

def ofLiteral (s : String) : Value :=
  if Text.asciiLowercase s = "null" then .null
  else
    match boolean? s, integer? s, Decimal.float? s with
    | some b, _, _ => .bool b
    | none, some i, _ => .integer i
    | none, none, some f => .float f
    | none, none, none => .text s

end Schemata.Value
