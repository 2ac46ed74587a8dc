/-!
# Addresses

Sixty-four bit addresses, the arithmetic on them whose result may leave the 64-bit range, and
rounding to a granule, which is a power of two.

Arithmetic that a caller relies on to stay in range is *checked*: it answers an `ArithError`
instead of wrapping, so that a layout which does not fit shows itself as such.
-/

namespace Footprint

/-- A byte address of the 64-bit space, or a length in bytes. -/
abbrev Addr := UInt64

/-- Why address arithmetic has no answer. -/
inductive ArithError where
  -- A sum of `2 ^ 64` or more.
  | addOverflow
  -- A difference below zero.
  | subOverflow
  -- Rounding to a granule that is no power of two.
  | badGranule
  -- A choice among no pages at all.
  | noPages
  -- A span of `2 ^ 64` seconds or more.
  | longSpan
  -- A moment `2 ^ 63` seconds or more after the epoch.
  | lateMoment
  -- A moment more than `2 ^ 63` seconds before the epoch.
  | earlyMoment
deriving DecidableEq, Repr

namespace ArithError

def message : ArithError → String
  | addOverflow => "attempt to add with overflow"
  | subOverflow => "attempt to subtract with overflow"
  | badGranule => "assertion failed: align.is_power_of_two()"
  | noPages => "cannot sample empty range"
  | longSpan => "overflow in Duration::new"
  | lateMoment => "overflow when adding duration to instant"
  | earlyMoment => "overflow when subtracting duration from instant"

end ArithError

/-- A value, unless the arithmetic behind it left its range. -/
abbrev Checked (α : Type) := Except ArithError α

namespace Addr

/-- The greatest address. -/
def top : Addr := 0xffffffffffffffff

/-- The sum, or `none` if it is `2 ^ 64` or more. -/
def add? (a b : Addr) : Option Addr :=
  if a.toNat + b.toNat < UInt64.size then some (a + b) else none

def addClamped (a b : Addr) : Addr :=
  (add? a b).getD top

/-- The sum, which must stay below `2 ^ 64`. -/
def add (a b : Addr) : Checked Addr :=
  match add? a b with
  | some c => .ok c
  | none => .error .addOverflow

/-- The difference, which must not go below zero. -/
def sub (a b : Addr) : Checked Addr :=
  if b ≤ a then .ok (a - b) else .error .subOverflow

/-- Whether `g` can be a granule: a power of two. -/
def isGranule (g : Addr) : Bool :=
  g != 0 && g &&& (g - 1) == 0

/-- The part of an address above its granule `g`, which must be a power of two. -/
def clearBelow (a g : Addr) : Addr :=
  a &&& ~~~(g - 1)

/-- The greatest multiple of the granule `g` that is not above `a`. -/
def alignDown (a g : Addr) : Checked Addr :=
  if isGranule g then .ok (clearBelow a g) else .error .badGranule

/-- The least multiple of the granule `g` that is not below `a`. The granule is added before one
is taken off again, so `a + g` itself must stay in range. -/
def alignUp (a g : Addr) : Checked Addr := do
  if isGranule g then
    let raised ← add a g
    return clearBelow (raised - 1) g
  else
    throw .badGranule

/-- An address in lower-case hexadecimal with its `0x`. -/
def hex (a : Addr) : String :=
  "0x" ++ String.ofList (Nat.toDigits 16 a.toNat)

end Addr

end Footprint
