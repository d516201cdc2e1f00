/-!
# Decimal literals

What counts as an integer and as a float in free text: an optional sign, then digits; for a
float at most one point among the digits and perhaps an exponent, or a word for infinity or
for no number. The value of a float literal is correctly rounded.
-/
namespace Schemata.Decimal

/-- Takes an optional sign off; `true` is a minus. -/
def takeSign : List Char → Bool × List Char
  | '-' :: cs => (true, cs)
  | '+' :: cs => (false, cs)
  | cs => (false, cs)

def digitsToNat (ds : List Char) : Nat := ds.foldl (fun n c => 10 * n + (c.toNat - '0'.toNat)) 0

/-- The number that a run of digits with an optional sign stands for, however large. -/
def integer? (s : String) : Option Int :=
  let (negative, ds) := takeSign s.toList
  if !ds.isEmpty && ds.all Char.isDigit then
    some (if negative then -(digitsToNat ds : Int) else digitsToNat ds)
  else none

/-- The parts of an unsigned literal: digits before and after the point, and the exponent. -/
structure Parts where
  whole : List Char
  fraction : List Char
  exponent : Int
  deriving DecidableEq, Repr

def exponent? (cs : List Char) : Option Int :=
  let (negative, ds) := takeSign cs
  if !ds.isEmpty && ds.all Char.isDigit then
    some (if negative then -(digitsToNat ds : Int) else digitsToNat ds)
  else none

/-- The parts of a literal; there must be a digit before or after the point. -/
def parts? (cs : List Char) : Option Parts :=
  let (whole, cs) := cs.span Char.isDigit
  let (fraction, cs) :=
    match cs with
    | '.' :: cs => cs.span Char.isDigit
    | cs => ([], cs)
  if whole.isEmpty && fraction.isEmpty then none
  else
    match cs with
    | [] => some ⟨whole, fraction, 0⟩
    | c :: cs => if c = 'e' ∨ c = 'E' then (exponent? cs).map (⟨whole, fraction, ·⟩) else none

/-- The float nearest to a literal. Beyond some 310 decades on either side the answer is known
without computing the power. -/
def Parts.toFloat (p : Parts) : Float :=
  let mantissa := digitsToNat (p.whole ++ p.fraction)
  let exponent := p.exponent - p.fraction.length
  let point := (toString mantissa).length + exponent
  if mantissa = 0 ∨ point < -400 then 0
  else if 400 < point then 1 / 0
  else if exponent < 0 then Float.ofScientific mantissa true exponent.natAbs
  else Float.ofScientific mantissa false exponent.natAbs

def magnitude? (cs : List Char) : Option Float :=
  let word := cs.map Char.toLower
  if word = ['i', 'n', 'f'] ∨ word = ['i', 'n', 'f', 'i', 'n', 'i', 't', 'y'] then some (1 / 0)
  else if word = ['n', 'a', 'n'] then some (0 / 0)
  else (parts? cs).map Parts.toFloat

def float? (s : String) : Option Float :=
  let (negative, cs) := takeSign s.toList
  (magnitude? cs).map fun f => if negative then -f else f

end Schemata.Decimal
