/-!
# Shortest decimal digits of a binary float

Every finite float is `m · 2 ^ q`. The reals that round to it form an interval,
whose ends belong to it exactly when `m` is even. Among the multiples of a power
of ten in that interval the coarsest power wins, then the multiple nearest to
the float; what happens to an exact tie is a parameter.
-/
namespace Schemata.Decimal

/-- What is chosen of two decimals that are equally near. -/
inductive Tie where
  | up
  | even
  deriving DecidableEq, Repr

/-- The decimal `digits · 10 ^ exponent`. -/
structure Scientific where
  digits : Nat
  exponent : Int
  deriving DecidableEq, Repr

/-- A finite nonzero magnitude `mantissa · 2 ^ exponent`. The interval below it is
half as wide when `narrow` holds: the float is a power of two above the subnormals. -/
structure Magnitude where
  mantissa : Nat
  exponent : Int
  narrow : Bool
  deriving DecidableEq, Repr

/-- A rational grid test, all over one denominator: the float is `value / unit` grid
steps, and the reals that round to it lie between `low / unit` and `high / unit`. -/
structure Window where
  low : Nat
  value : Nat
  high : Nat
  unit : Nat
  closed : Bool
  deriving DecidableEq, Repr

namespace Window

/-- Whether the `d`-th grid point reads back as the float. -/
def admits (w : Window) (d : Nat) : Bool :=
  if w.closed then decide (w.low ≤ d * w.unit) && decide (d * w.unit ≤ w.high)
  else decide (w.low < d * w.unit) && decide (d * w.unit < w.high)

/-- The nearer of the two grid points around the float, if it has one that reads back. -/
def nearest? (w : Window) (tie : Tie) : Option Nat :=
  let d := w.value / w.unit
  let below := decide (0 < d) && w.admits d
  let above := w.admits (d + 1)
  match below, above with
  | false, false => none
  | true, false => some d
  | false, true => some (d + 1)
  | true, true =>
    let twice := 2 * (w.value - d * w.unit)
    if twice < w.unit then some d
    else if w.unit < twice then some (d + 1)
    else match tie with
      | .up => some (d + 1)
      | .even => some (if d % 2 = 0 then d else d + 1)

end Window

namespace Magnitude

/-- The window of the grid `10 ^ k`. All four numbers carry a factor four, so that the
midpoints to both neighbours are whole. -/
def window (x : Magnitude) (k : Int) : Window :=
  let up := Nat.pow 2 (x.exponent - 2).toNat * Nat.pow 10 (-k).toNat
  let down := Nat.pow 2 (2 - x.exponent).toNat * Nat.pow 10 k.toNat
  { low := (4 * x.mantissa - (if x.narrow then 1 else 2)) * up
    value := 4 * x.mantissa * up
    high := (4 * x.mantissa + 2) * up
    unit := down
    closed := decide (x.mantissa % 2 = 0) }

/-- An exponent of ten above every grid point that could read back. -/
def ceiling (x : Magnitude) : Int :=
  ((x.mantissa.log2 : Int) + x.exponent + 1) * 30103 / 100000 + 1

/-- Tries the grids `10 ^ k`, `10 ^ (k - 1)`, … and takes the first hit. -/
def search (x : Magnitude) (tie : Tie) : Nat → Int → Scientific
  | 0, k => ⟨(x.window k).value / (x.window k).unit, k⟩
  | n + 1, k =>
    match (x.window k).nearest? tie with
    | some d => ⟨d, k⟩
    | none => x.search tie n (k - 1)

/-- The shortest decimal that reads back as `x`; seventeen digits always suffice. -/
def shortest (x : Magnitude) (tie : Tie) : Scientific := x.search tie 20 x.ceiling

end Magnitude

/-- What the bits of a float stand for. -/
inductive Class where
  | nan
  | infinite (negative : Bool)
  | zero (negative : Bool)
  | finite (negative : Bool) (magnitude : Magnitude)
  deriving DecidableEq, Repr

/-- Reads the 64 bits: one sign bit, eleven exponent bits, 52 fraction bits. -/
def Class.ofBits (bits : Nat) : Class :=
  let negative := bits.testBit 63
  let hidden := Nat.pow 2 52
  let biased : Nat := bits / hidden % 2048
  let fraction := bits % hidden
  if biased = 2047 then if fraction = 0 then .infinite negative else .nan
  else if biased = 0 then
    if fraction = 0 then .zero negative else .finite negative ⟨fraction, -1074, false⟩
  else .finite negative ⟨hidden + fraction, (biased : Int) - 1075, fraction = 0 && 1 < biased⟩

def Class.ofFloat (f : Float) : Class := .ofBits f.toBits.toNat

end Schemata.Decimal
