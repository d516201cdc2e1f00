import Schemata.Json.Basic
import Schemata.Text.Hexadecimal

/-!
# JSON strings

The body of a string literal is read up to its closing quote in two ways: for its
text, and only to get past it. The second does not look at surrogates.
-/
namespace Schemata.Json.Text

open Schemata.Text (hexValue? hexDigit)

/-- The character that stands behind a backslash, the hexadecimal escape apart. -/
def unescape? : Char → Option Char
  | '"' => some '"'
  | '\\' => some '\\'
  | '/' => some '/'
  | 'b' => some '\x08'
  | 'f' => some '\x0c'
  | 'n' => some '\n'
  | 'r' => some '\r'
  | 't' => some '\t'
  | _ => none

def unit? (a b c d : Char) : Option Nat := do
  let a ← hexValue? a
  let b ← hexValue? b
  let c ← hexValue? c
  let d ← hexValue? d
  pure (((a * 16 + b) * 16 + c) * 16 + d)

def isLeading (n : Nat) : Bool := decide (0xD800 ≤ n) && decide (n ≤ 0xDBFF)
def isTrailing (n : Nat) : Bool := decide (0xDC00 ≤ n) && decide (n ≤ 0xDFFF)

def pairValue (leading trailing : Nat) : Nat :=
  (leading - 0xD800) * 0x400 + (trailing - 0xDC00) + 0x10000

/-- The fault of a hexadecimal escape followed by fewer than four characters: the text has
ended only if fewer than four bytes are left. -/
def shortUnit (cs : List Char) : Fault :=
  if (String.ofList cs).utf8ByteSize < 4 then .truncated else .malformed

/-- The fault of a leading surrogate with no full escape behind it. -/
def unpaired : List Char → Fault
  | [] | ['\\'] => .truncated
  | '\\' :: 'u' :: cs => shortUnit cs
  | _ => .malformed

def push (c : Char) (rest : Except Fault (List Char × List Char)) :
    Except Fault (List Char × List Char) :=
  rest.map fun (s, cs) => (c :: s, cs)

/-- The text up to the closing quote, and what follows the quote. -/
def readBody : List Char → Except Fault (List Char × List Char)
  | [] => .error .truncated
  | '"' :: cs => .ok ([], cs)
  | '\\' :: cs =>
    match cs with
    | [] => .error .truncated
    | 'u' :: a :: b :: c :: d :: cs =>
      match unit? a b c d with
      | none => .error .malformed
      | some n =>
        if isTrailing n then .error .malformed
        else if isLeading n then
          match cs with
          | '\\' :: 'u' :: e :: f :: g :: h :: cs =>
            match unit? e f g h with
            | none => .error .malformed
            | some m =>
              if isTrailing m then push (Char.ofNat (pairValue n m)) (readBody cs)
              else .error .malformed
          | cs => .error (unpaired cs)
        else push (Char.ofNat n) (readBody cs)
    | 'u' :: cs => .error (shortUnit cs)
    | c :: cs =>
      match unescape? c with
      | none => .error .malformed
      | some c => push c (readBody cs)
  | c :: cs => if c.toNat < 0x20 then .error .malformed else push c (readBody cs)

/-- What follows the closing quote. -/
def skipBody : List Char → Except Fault (List Char)
  | [] => .error .truncated
  | '"' :: cs => .ok cs
  | '\\' :: cs =>
    match cs with
    | [] => .error .truncated
    | 'u' :: a :: b :: c :: d :: cs =>
      if (unit? a b c d).isSome then skipBody cs else .error .malformed
    | 'u' :: cs => .error (shortUnit cs)
    | c :: cs => if (unescape? c).isSome then skipBody cs else .error .malformed
  | c :: cs => if c.toNat < 0x20 then .error .malformed else skipBody cs

/-- The written form of one character: quotes, backslashes and control characters are
escaped, all else stands as it is. -/
def escape (c : Char) : List Char :=
  if c = '"' then ['\\', '"']
  else if c = '\\' then ['\\', '\\']
  else if c = '\x08' then ['\\', 'b']
  else if c = '\x0c' then ['\\', 'f']
  else if c = '\n' then ['\\', 'n']
  else if c = '\r' then ['\\', 'r']
  else if c = '\t' then ['\\', 't']
  else if c.toNat < 0x20 then
    ['\\', 'u', '0', '0', hexDigit (c.toNat / 16), hexDigit (c.toNat % 16)]
  else [c]

/-- The written form of a text, quotes included. -/
def render (s : String) : List Char := '"' :: (s.toList.flatMap escape ++ ['"'])

end Schemata.Json.Text
