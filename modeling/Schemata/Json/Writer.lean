import Schemata.Json.Text

/-!
# Writing JSON

The compact form has no blanks; the indented form puts every item and every member on a
line of its own.
-/
namespace Schemata.Json

namespace Writer

def compact : Json → List Char
  | .null => ['n', 'u', 'l', 'l']
  | .bool true => ['t', 'r', 'u', 'e']
  | .bool false => ['f', 'a', 'l', 's', 'e']
  | .int i => (toString i).toList
  | .float f => (Decimal.text .json f).toList
  | .str s => Text.render s
  | .arr items => '[' :: (compactItems items ++ [']'])
  | .obj members => '\x7b' :: (compactMembers members ++ ['\x7d'])
where
  compactItems : List Json → List Char
    | [] => []
    | [v] => compact v
    | v :: vs => compact v ++ ',' :: compactItems vs
  compactMembers : List (String × Json) → List Char
    | [] => []
    | [(k, v)] => Text.render k ++ ':' :: compact v
    | (k, v) :: ms => Text.render k ++ ':' :: (compact v ++ ',' :: compactMembers ms)

/-- A new line, `depth` steps of two blanks in. -/
def newline (depth : Nat) : List Char := '\n' :: List.replicate (2 * depth) ' '

/-- The indented form of a value that stands `depth` steps in. -/
def indented (depth : Nat) : Json → List Char
  | .arr [] => ['[', ']']
  | .arr items => '[' :: (indentedItems (depth + 1) items ++ newline depth ++ [']'])
  | .obj [] => ['\x7b', '\x7d']
  | .obj members => '\x7b' :: (indentedMembers (depth + 1) members ++ newline depth ++ ['\x7d'])
  | v => compact v
where
  indentedItems (depth : Nat) : List Json → List Char
    | [] => []
    | [v] => newline depth ++ indented depth v
    | v :: vs => newline depth ++ indented depth v ++ ',' :: indentedItems depth vs
  indentedMembers (depth : Nat) : List (String × Json) → List Char
    | [] => []
    | [(k, v)] => newline depth ++ Text.render k ++ ':' :: ' ' :: indented depth v
    | (k, v) :: ms =>
      newline depth ++ Text.render k ++ ':' :: ' ' ::
        (indented depth v ++ ',' :: indentedMembers depth ms)

end Writer

def render (v : Json) : String := String.ofList (Writer.compact v)

def renderIndented (v : Json) : String := String.ofList (Writer.indented 0 v)

end Schemata.Json
