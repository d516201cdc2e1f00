import Schemata.Text.Hexadecimal

/-!
# Percent encoding

A percent sign and two hexadecimal digits stand for a byte; all else stands for itself in
UTF-8. A query is a list of pairs in which a plus sign stands for a blank as well.
-/
namespace Schemata.Url

def charBytes (c : Char) : List UInt8 := (String.singleton c).toUTF8.toList

/-- The bytes that a text stands for; a percent sign without two digits stands for itself. -/
def decodeBytes : List Char → List UInt8
  | [] => []
  | '%' :: a :: b :: cs =>
    match Text.hexValue? a, Text.hexValue? b with
    | some m, some n => (16 * m + n).toUInt8 :: decodeBytes cs
    | _, _ => charBytes '%' ++ decodeBytes (a :: b :: cs)
  | c :: cs => charBytes c ++ decodeBytes cs

/-- The text that a text stands for, if its bytes are one. -/
def decode? (cs : List Char) : Option String :=
  String.fromUTF8? (decodeBytes cs).toByteArray

/-- The pairs of a query; a piece without an equals sign has an empty value. Names and values
whose bytes are no text are none. -/
def queryPairs (cs : List Char) : List (Option String × Option String) :=
  let plain (cs : List Char) := decode? (cs.map fun c => if c = '+' then ' ' else c)
  ((cs.splitOn '&').filter (!·.isEmpty)).map fun piece =>
    (plain (piece.takeWhile (· ≠ '=')), plain ((piece.dropWhile (· ≠ '=')).drop 1))

end Schemata.Url
