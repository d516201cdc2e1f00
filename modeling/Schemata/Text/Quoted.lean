/-!
# Quoted text

A quoted text stands between two copies of its quote character, and a quote
character inside it is written twice. The same rule serves identifiers, whose
quote depends on the dialect, and string literals, which use the single quote.
-/
namespace Schemata.Text

/-- Writes every occurrence of `q` twice and all else once. -/
def double (q : Char) : List Char → List Char
  | [] => []
  | c :: cs => if c = q then q :: q :: double q cs else c :: double q cs

/-- The written form of `s` between two quotes `q`. -/
def quote (q : Char) (s : String) : String :=
  String.ofList (q :: (double q s.toList ++ [q]))

/-- A string literal: single quotes around, single quotes inside doubled. -/
def quoteLiteral (s : String) : String := quote '\'' s

/-- The pieces of `s` between the occurrences of `sep`; never empty. -/
def splitAt (sep : Char) (s : String) : List String :=
  (s.toList.splitOn sep).map String.ofList

/-- The texts in order, a comma and a blank between neighbours. -/
def commaJoin (parts : List String) : String := ", ".intercalate parts

@[simp] theorem toList_quote (q : Char) (s : String) :
    (quote q s).toList = q :: (double q s.toList ++ [q]) := by
  simp [quote]

end Schemata.Text
