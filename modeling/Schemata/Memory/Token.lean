/-!
# SQL tokens

Just enough of SQL's lexical structure for an in-memory database: words, quoted
identifiers, string literals, numbers, placeholders and single characters. Inside quotes a
doubled quote stands for one, and a NUL character ends the text wherever it stands.
-/
namespace Schemata.Memory

inductive Token where
  /-- A bare word, in lowercase for comparison and as it stands. -/
  | word (lower : String) (text : String)
  /-- An identifier in double quotes or backticks. -/
  | quoted (quote : Char) (name : String)
  | literal (text : String)
  /-- A number without a sign, as it stands. -/
  | number (text : String)
  | placeholder
  | symbol (c : Char)
  deriving DecidableEq, Repr

namespace Token

def isWordChar (c : Char) : Bool := c.isAlphanum || c = '_' || c = '$' || c.toNat ≥ 0x80

def isBlank (c : Char) : Bool := c = ' ' || c = '\n' || c = '\t' || c = '\r' || c = '\x0c'

inductive Mode where
  | between
  | inWord (rev : List Char)
  | inNumber (rev : List Char)
  | inQuotes (q : Char) (rev : List Char)
  /-- Behind a quote that closes the text unless another one follows. -/
  | afterQuote (q : Char) (rev : List Char)

def wordOf (rev : List Char) : Token :=
  let text := String.ofList rev.reverse
  .word (text.map Char.toLower) text

def numberOf (rev : List Char) : Token := .number (String.ofList rev.reverse)

def quotedOf (q : Char) (rev : List Char) : Token :=
  let text := String.ofList rev.reverse
  if q = '\'' then .literal text else .quoted q text

/-- A character outside words, numbers and quotes. -/
def between (c : Char) : List Token × Mode :=
  if isBlank c then ([], .between)
  else if c.isDigit then ([], .inNumber [c])
  else if isWordChar c && c != '$' then ([], .inWord [c])
  else if c = '"' || c = '\'' || c = '\x60' then ([], .inQuotes c [])
  else if c = '?' then ([.placeholder], .between)
  else ([.symbol c], .between)

/-- Reads all tokens; `none` if a quote is left open. -/
def scan : Mode → List Char → Option (List Token)
  | .between, [] => some []
  | .inWord rev, [] => some [wordOf rev]
  | .inNumber rev, [] => some [numberOf rev]
  | .inQuotes _ _, [] => none
  | .afterQuote q rev, [] => some [quotedOf q rev]
  | .between, c :: cs =>
    let (tokens, mode) := between c
    (scan mode cs).map (tokens ++ ·)
  | .inWord rev, c :: cs =>
    if isWordChar c then scan (.inWord (c :: rev)) cs
    else
      let (tokens, mode) := between c
      (scan mode cs).map (wordOf rev :: tokens ++ ·)
  | .inNumber rev, c :: cs =>
    if isWordChar c || c = '.' then scan (.inNumber (c :: rev)) cs
    else
      let (tokens, mode) := between c
      (scan mode cs).map (numberOf rev :: tokens ++ ·)
  | .inQuotes q rev, c :: cs =>
    if c = q then scan (.afterQuote q rev) cs else scan (.inQuotes q (c :: rev)) cs
  | .afterQuote q rev, c :: cs =>
    if c = q then scan (.inQuotes q (c :: rev)) cs
    else
      let (tokens, mode) := between c
      (scan mode cs).map (quotedOf q rev :: tokens ++ ·)

def ofText (sql : String) : Option (List Token) :=
  scan .between (sql.toList.takeWhile (· ≠ '\x00'))

end Token

end Schemata.Memory
