import Schemata.Json.Draft
import Schemata.Json.Number
import Schemata.Json.Text

/-!
# Reading a document

The reader never fails: what it cannot read becomes a damaged place of the draft. After a
place that cannot even be skipped there is nothing left to read.
-/
namespace Schemata.Json.Reader

/-- What was read, and the text behind it; no text is left behind an unskippable place. -/
abbrev Partly (α : Type) := α × Option (List Char)

/-- What is left where the two readings of a place part ways. -/
def salvage (read : Fault) : Except Fault (List Char) → Partly (Fault × Option Fault)
  | .ok cs => ((read, none), some cs)
  | .error skip => ((read, some skip), none)

/-- A place that no reading gets past. -/
def cut (lead : Lead) (fault : Fault) : Partly Draft := (.damaged lead fault (some fault), none)

/-- The end of the text, where a value is due. -/
def missing : Draft := .damaged .nothing .truncated (some .truncated)

def skipBlanks (cs : List Char) : List Char :=
  cs.dropWhile fun c => c = ' ' || c = '\n' || c = '\t' || c = '\r'

/-- Takes the rest of a word off the text. -/
def expect : List Char → List Char → Except Fault (List Char)
  | [], cs => .ok cs
  | _ :: _, [] => .error .truncated
  | w :: ws, c :: cs => if w = c then expect ws cs else .error .malformed

/-- A word whose first letter has been taken off. -/
def keyword (lead : Lead) (tail : List Char) (value : Draft) (cs : List Char) : Partly Draft :=
  match expect tail cs with
  | .ok cs => (value, some cs)
  | .error fault => cut lead fault

/-- A string whose opening quote has been taken off. -/
def string (cs : List Char) : Partly Draft :=
  match Text.readBody cs with
  | .ok (s, cs) => (.str (String.ofList s), some cs)
  | .error fault =>
    let ((read, skip), rest) := salvage fault (Text.skipBody cs)
    (.damaged .quote read skip, rest)

/-- A key whose opening quote has been taken off. -/
def key (cs : List Char) : Partly Key :=
  match Text.readBody cs with
  | .ok (s, cs) => (.name (String.ofList s), some cs)
  | .error fault =>
    let ((read, skip), rest) := salvage fault (Text.skipBody cs)
    (.damaged read skip, rest)

/-- A number whose sign has been taken off. A literal that is skipped may overflow; one
that ends too early is malformed for a decoder that skips it. -/
def number (negative : Bool) (cs : List Char) : Partly Draft :=
  match Number.scan cs with
  | .error fault => (.damaged .other fault (some .malformed), none)
  | .ok (lit, cs) =>
    match lit.value? negative with
    | some (.int i) => (.int i, some cs)
    | some (.float f) => (.float f, some cs)
    | _ => (.damaged .other .malformed none, some cs)

mutual

/-- Reads a value, blanks before it included. -/
def value : Nat → List Char → Partly Draft
  | 0, _ => (missing, none)
  | fuel + 1, cs =>
    match skipBlanks cs with
    | [] => (missing, none)
    | 'n' :: cs => keyword .null ['u', 'l', 'l'] .null cs
    | 't' :: cs => keyword .other ['r', 'u', 'e'] (.bool true) cs
    | 'f' :: cs => keyword .other ['a', 'l', 's', 'e'] (.bool false) cs
    | '"' :: cs => string cs
    | '-' :: cs => number true cs
    | '[' :: cs =>
      match skipBlanks cs with
      | [] => (.arr [] (some .truncated), none)
      | ']' :: cs => (.arr [] none, some cs)
      | cs =>
        let (ds, ending, rest) := items fuel cs
        (.arr ds ending, rest)
    | '\x7b' :: cs =>
      match skipBlanks cs with
      | '\x7d' :: cs => (.obj [] none, some cs)
      | cs =>
        let (ms, ending, rest) := members fuel cs
        (.obj ms ending, rest)
    | c :: cs => if c.isDigit then number false (c :: cs) else cut .other .malformed

/-- Reads the items from a place where one is due. -/
def items : Nat → List Char → List Draft × Partly (Option Fault)
  | 0, _ => ([], some .truncated, none)
  | fuel + 1, cs =>
    match value fuel cs with
    | (d, none) => ([d], none, none)
    | (d, some cs) =>
      match skipBlanks cs with
      | [] => ([d], some .truncated, none)
      | ']' :: cs => ([d], none, some cs)
      | ',' :: cs =>
        let (ds, ending, rest) := items fuel cs
        (d :: ds, ending, rest)
      | _ => ([d], some .malformed, none)

/-- Reads the members from a place where a key is due; a missing key is a damaged one. -/
def members : Nat → List Char → List (Key × Draft) × Partly (Option Fault)
  | 0, _ => ([], some .truncated, none)
  | fuel + 1, cs =>
    match skipBlanks cs with
    | [] => ([(.damaged .truncated (some .truncated), .null)], none, none)
    | '"' :: cs =>
      match key cs with
      | (k, none) => ([(k, .null)], none, none)
      | (k, some cs) =>
        match skipBlanks cs with
        | [] => ([(k, missing)], none, none)
        | ':' :: cs =>
          match value fuel cs with
          | (d, none) => ([(k, d)], none, none)
          | (d, some cs) =>
            match skipBlanks cs with
            | [] => ([(k, d)], some .truncated, none)
            | '\x7d' :: cs => ([(k, d)], none, some cs)
            | ',' :: cs =>
              let (ms, ending, rest) := members fuel cs
              ((k, d) :: ms, ending, rest)
            | _ => ([(k, d)], some .malformed, none)
        | _ => ([(k, .damaged .other .malformed (some .malformed))], none, none)
    | _ => ([(.damaged .malformed (some .malformed), .null)], none, none)

end

end Schemata.Json.Reader

namespace Schemata.Json

/-- The document that a text holds. Each step of the reader takes at least one character,
so as many steps as there are characters, and one more, are always enough. -/
def Document.ofChars (cs : List Char) : Document :=
  match Reader.value (cs.length + 1) cs with
  | (root, none) => ⟨root, none⟩
  | (root, some rest) =>
    ⟨root, if (Reader.skipBlanks rest).isEmpty then none else some .malformed⟩

def Document.ofText (text : String) : Document := .ofChars text.toList

end Schemata.Json
