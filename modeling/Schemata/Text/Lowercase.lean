import Schemata.Text.CaseData

/-!
# Lowercase text

The full mapping of the Unicode standard. Two letters are special: `İ` becomes two
characters, and a capital sigma becomes `ς` at the end of a word and `σ` elsewhere.
-/
namespace Schemata.Text

def inRanges (ranges : List (Nat × Nat)) (c : Char) : Bool :=
  ranges.any fun (first, last) => decide (first ≤ c.toNat) && decide (c.toNat ≤ last)

def isCased (c : Char) : Bool := inRanges casedRanges c

def isCaseIgnorable (c : Char) : Bool := inRanges caseIgnorableRanges c

/-- The lowercase form of a character on its own. -/
def lowerChar (c : Char) : List Char :=
  if c = 'İ' then ['i', '\u0307']
  else
    match lowercaseRuns.find? fun (first, last, step, _) =>
        decide (first ≤ c.toNat) && decide (c.toNat ≤ last) && (c.toNat - first) % step == 0 with
    | some (_, _, _, distance) => [Char.ofNat (c.toNat + distance).toNat]
    | none => [c]

/-- Whether the first character that counts is a letter with case. -/
def meetsCased (cs : List Char) : Bool :=
  match cs.dropWhile isCaseIgnorable with
  | [] => false
  | c :: _ => isCased c

/-- The lowercase form of a text whose preceding characters, last first, are `before`. -/
def lowerAfter (before : List Char) : List Char → List Char
  | [] => []
  | c :: cs =>
    let lower :=
      if c = 'Σ' then if meetsCased before && !meetsCased cs then ['ς'] else ['σ']
      else lowerChar c
    lower ++ lowerAfter (c :: before) cs

def lowercase (s : String) : String := String.ofList (lowerAfter [] s.toList)

/-- The lowercase form of the letters `A` to `Z`; all else stays. -/
def asciiLowercase (s : String) : String := s.map Char.toLower

end Schemata.Text
