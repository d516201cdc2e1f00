/-!
# Durations

A span of time in seconds and nanoseconds, and its text in the largest unit of which it
holds at least one, with as many decimals as it needs.
-/
namespace Schemata

structure Duration where
  seconds : Nat
  nanoseconds : Nat
  nanoseconds_lt : nanoseconds < 1000000000 := by omega
  deriving DecidableEq, Repr

namespace Duration

def ofNanoseconds (n : Nat) : Duration :=
  ⟨n / 1000000000, n % 1000000000, Nat.mod_lt _ (by decide)⟩

def ofMilliseconds (n : Nat) : Duration := ofNanoseconds (n * 1000000)

def toNanoseconds (d : Duration) : Nat := d.seconds * 1000000000 + d.nanoseconds

/-- The first `places` decimals of `part / 10 ^ places`, without the zeros at their end. -/
def decimals (places part : Nat) : List Char :=
  let ds := (toString part).toList
  let padded := List.replicate (places - ds.length) '0' ++ ds
  (padded.reverse.dropWhile (· = '0')).reverse

/-- `whole` and `part / 10 ^ places` in a unit. -/
def inUnit (whole part places : Nat) (unit : String) : String :=
  let ds := decimals places part
  toString whole ++ (if ds.isEmpty then "" else "." ++ String.ofList ds) ++ unit

def text (d : Duration) : String :=
  if 0 < d.seconds then inUnit d.seconds d.nanoseconds 9 "s"
  else if 1000000 ≤ d.nanoseconds then
    inUnit (d.nanoseconds / 1000000) (d.nanoseconds % 1000000) 6 "ms"
  else if 1000 ≤ d.nanoseconds then
    inUnit (d.nanoseconds / 1000) (d.nanoseconds % 1000) 3 "µs"
  else inUnit d.nanoseconds 0 0 "ns"

end Duration

end Schemata
