import Schemata.Json.Decode

/-!
# Values

Statement parameters and the cells of result rows, and their form in JSON documents.
-/
namespace Schemata

open Json

inductive Value where
  | null
  | bool (b : Bool)
  | integer (i : Int64)
  | float (f : Float)
  | text (s : String)
  | bytes (bs : List UInt8)
  deriving DecidableEq, Repr

namespace Value

/-- A byte string is a list of numbers; a float that is not finite is lost. -/
def toJson : Value → Json
  | .null => .null
  | .bool b => .bool b
  | .integer i => .int i.toInt
  | .float f => Json.ofFloat f
  | .text s => .str s
  | .bytes bs => .arr (bs.map fun b => .int b.toNat)

def byte? : Json → Option UInt8
  | .int (.ofNat n) => if n < UInt8.size then some n.toUInt8 else none
  | _ => none

/-- An integer beyond 64 signed bits is taken as a float, a list must be one of bytes. -/
def ofJson : Json → Except Fault Value
  | .null => pure .null
  | .bool b => pure (.bool b)
  | .int i =>
    match int64? i with
    | some i => pure (.integer i)
    | none => pure (.float (Float.ofInt i))
  | .float f => pure (.float f)
  | .str s => pure (.text s)
  | .arr items =>
    match items.mapM byte? with
    | some bs => pure (.bytes bs)
    | none => .error .mismatched
  | .obj _ => .error .mismatched

def decode : Decoder Value := .buffered ofJson

end Value

end Schemata
