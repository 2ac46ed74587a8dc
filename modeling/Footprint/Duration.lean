import Footprint.Address

/-!
# Spans of time

A span of time in whole nanoseconds and its text: the largest of the units `s`, `ms`, `µs` and
`ns` with a whole part, then the fraction without trailing zeros.
-/

namespace Footprint

/-- A span of time in nanoseconds. -/
structure Duration where
  nanos : Nat
deriving DecidableEq, Repr, Inhabited

namespace Duration

def ofMillis (ms : Nat) : Duration := ⟨ms * 1000000⟩

/-- The span of whole seconds and further nanoseconds, which must stay below `2 ^ 64` seconds. -/
def ofSeconds (secs : UInt64) (nanos : Nat) : Checked Duration :=
  if secs.toNat + nanos / 1000000000 < UInt64.size then .ok ⟨secs.toNat * 1000000000 + nanos⟩
  else .error .longSpan

/-- Whole microseconds, the rest dropped. -/
def micros (d : Duration) : Nat := d.nanos / 1000

/-- The decimal digits of `n`, padded with zeros on the left to a width. -/
def padded (width n : Nat) : List Char :=
  let digits := Nat.toDigits 10 n
  List.replicate (width - digits.length) '0' ++ digits

/-- A quantity of `unit` units, of which `parts = 10 ^ width` make one. -/
def inUnit (nanos width : Nat) (unit : String) : String :=
  let parts := Nat.pow 10 width
  let fraction := ((padded width (nanos % parts)).reverse.dropWhile (· = '0')).reverse
  let point := if nanos % parts = 0 then "" else "." ++ String.ofList fraction
  toString (nanos / parts) ++ point ++ unit

/-- The text of a span: `1.5ms`, `60s`, `123.4µs`, `0ns`. -/
def text (d : Duration) : String :=
  if 1000000000 ≤ d.nanos then inUnit d.nanos 9 "s"
  else if 1000000 ≤ d.nanos then inUnit d.nanos 6 "ms"
  else if 1000 ≤ d.nanos then inUnit d.nanos 3 "µs"
  else inUnit d.nanos 0 "ns"

end Duration

end Footprint
