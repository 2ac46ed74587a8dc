import Footprint.Address

/-!
# Register priming

The deterministic values that the general-purpose registers hold when a block starts.
-/

namespace Footprint

/-- How the general-purpose registers are filled. -/
inductive Priming where
  -- Every register holds the value.
  | uniform (value : Addr)
  -- Register `i` in priming order holds `base + i * stride`, modulo `2 ^ 64`.
  | distinct (base stride : Addr)
deriving DecidableEq, Repr

namespace Priming

/-- The priming value unless a configuration says otherwise. -/
def standard : Priming := .uniform 0x10000

instance : Inhabited Priming := ⟨standard⟩

/-- The value of a register by its position in priming order. -/
def valueAt : Priming → Nat → Addr
  | uniform value, _ => value
  | distinct base stride, i => base + stride * UInt64.ofNat i

/-- The value that the guarded region is placed at. -/
def base : Priming → Addr
  | uniform value => value
  | distinct base _ => base

/-- The spelling of a priming scheme in a log line. -/
def text : Priming → String
  | uniform value => s!"Uniform({value})"
  | distinct base stride => s!"Distinct \x7b base: {base}, stride: {stride} \x7d"

end Priming

end Footprint
