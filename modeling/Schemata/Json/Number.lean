import Schemata.Json.Basic

/-!
# JSON number literals

A literal without fraction and exponent is an integer when it fits 64 bits, signed or
unsigned; `-0` and everything longer is a float. A float is computed from a 64-bit
significand, one scaling by a power of ten at a time: digits that no longer fit the
significand only move the decimal point.
-/
namespace Schemata.Json.Number

structure Literal where
  whole : List Char
  fraction : Option (List Char)
  /-- Whether the exponent is negative, and its digits. -/
  exponent : Option (Bool × List Char)
  deriving DecidableEq, Repr

def digitValue (c : Char) : Nat := c.toNat - '0'.toNat

def digitsValue (ds : List Char) : Nat := ds.foldl (fun n c => 10 * n + digitValue c) 0

/-- Appends digits to the significand while it fits 64 bits; what is left is returned. -/
def absorb (significand : Nat) : List Char → Nat × List Char
  | [] => (significand, [])
  | c :: cs =>
    let longer := 10 * significand + digitValue c
    if longer < UInt64.size then absorb longer cs
    else (significand, c :: cs)

/-- The power of ten, correctly rounded. -/
def powerOfTen (k : Nat) : Float := Float.ofScientific 1 false k

/-- `f / 10 ^ k`, in steps of at most 308 decades, stopping at zero. -/
def scaleDown (f : Float) (k : Nat) : Float :=
  if k ≤ 308 then f / powerOfTen k
  else if f == 0 then f
  else scaleDown (f / powerOfTen 308) (k - 308)
  termination_by k

/-- `f · 10 ^ k`, unless that overflows. -/
def scaleUp? (f : Float) (k : Nat) : Option Float :=
  if k ≤ 308 then
    let scaled := f * powerOfTen k
    if scaled.isInf then none else some scaled
  else if f == 0 then some f else none

/-- `significand · 10 ^ exponent`, unless that overflows. -/
def scale? (significand : Nat) (exponent : Int) : Option Float :=
  let f := significand.toUInt64.toFloat
  match exponent with
  | .ofNat k => scaleUp? f k
  | .negSucc k => some (scaleDown f (k + 1))

/-- The float that a literal stands for; `none` is an overflow. -/
def Literal.float? (negative : Bool) (lit : Literal) : Option Float :=
  let (whole, excess) := absorb 0 lit.whole
  let (significand, shift) :=
    match lit.fraction with
    | none => (whole, (excess.length : Int))
    | some ds =>
      let (significand, rest) := absorb whole ds
      (significand, (excess.length : Int) - (ds.length - rest.length : Nat))
  let exponent : Int :=
    match lit.exponent with
    | none => shift
    | some (true, ds) => shift - digitsValue ds
    | some (false, ds) => shift + digitsValue ds
  (scale? significand exponent).map fun f => if negative then -f else f

/-- The value of a literal; `none` is an overflow. -/
def Literal.value? (negative : Bool) (lit : Literal) : Option Json :=
  match lit.fraction, lit.exponent with
  | none, none =>
    let n := digitsValue lit.whole
    if negative then
      if 0 < n ∧ Int64.minValue.toInt ≤ -(n : Int) then some (.int (-n))
      else (lit.float? true).map .float
    else if n < UInt64.size then some (.int n) else (lit.float? false).map .float
  | _, _ => (lit.float? negative).map .float

/-- A run of digits and what follows it. -/
def spanDigits (cs : List Char) : List Char × List Char := cs.span Char.isDigit

/-- Takes the sign off an exponent, and tells whether it is a minus. -/
def takeSign : List Char → Bool × List Char
  | '+' :: cs => (false, cs)
  | '-' :: cs => (true, cs)
  | cs => (false, cs)

/-- Reads a literal whose sign has been taken off, with the faults of a strict reading:
a missing digit is a truncation at the end of the text. -/
def scan (cs : List Char) : Except Fault (Literal × List Char) := do
  let (whole, cs) ← scanWhole cs
  let (fraction, cs) ← scanFraction cs
  let (exponent, cs) ← scanExponent cs
  pure (⟨whole, fraction, exponent⟩, cs)
where
  /-- A zero alone, or digits without a zero in front. -/
  scanWhole (cs : List Char) : Except Fault (List Char × List Char) :=
    match cs with
    | [] => .error .truncated
    | '0' :: cs =>
      match cs with
      | c :: _ => if c.isDigit then .error .malformed else pure (['0'], cs)
      | [] => pure (['0'], cs)
    | c :: _ => if c.isDigit then pure (spanDigits cs) else .error .malformed
  /-- An optional fraction: a point and at least one digit. -/
  scanFraction (cs : List Char) : Except Fault (Option (List Char) × List Char) :=
    match cs with
    | '.' :: cs =>
      match spanDigits cs with
      | ([], []) => .error .truncated
      | ([], _) => .error .malformed
      | (ds, cs) => pure (some ds, cs)
    | _ => pure (none, cs)
  /-- An optional exponent: its mark in either case, an optional sign, at least one digit. -/
  scanExponent (cs : List Char) : Except Fault (Option (Bool × List Char) × List Char) :=
    match cs with
    | [] => pure (none, cs)
    | c :: rest =>
      if c = 'e' ∨ c = 'E' then
        let (negative, rest) := takeSign rest
        match spanDigits rest with
        | ([], []) => .error .truncated
        | ([], _) => .error .malformed
        | (ds, cs) => pure (some (negative, ds), cs)
      else pure (none, cs)

end Schemata.Json.Number
