import Schemata.Decimal.Layout

/-!
# JSON values

Numbers are either integers or floats: the two never coincide, so `2` and `2.0`
stay apart. An object keeps its members in the order in which they stand, repeated
keys included.
-/
namespace Schemata

inductive Json where
  | null
  | bool (b : Bool)
  | int (i : Int)
  | float (f : Float)
  | str (s : String)
  | arr (items : List Json)
  | obj (members : List (String × Json))
  deriving Repr

namespace Json

instance : Inhabited Json := ⟨.null⟩

inductive Fault where
  /-- The text ends before the document does. -/
  | truncated
  | malformed
  /-- The document is JSON of another shape than the one asked for. -/
  | mismatched
  deriving DecidableEq, Repr

/-- A float as a value; there is none for infinities and for what is not a number. -/
def ofFloat (f : Float) : Json := if Decimal.isFinite f then .float f else .null

def int64? (i : Int) : Option Int64 :=
  if Int64.minValue.toInt ≤ i ∧ i ≤ Int64.maxValue.toInt then some (Int64.ofInt i) else none

def strings (xs : List String) : Json := .arr (xs.map .str)

end Json

end Schemata
