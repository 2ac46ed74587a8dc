/-!
# Owned descriptors

A descriptor that is closed when its owner goes away, unless ownership is given up before.
-/

namespace Footprint

/-- A descriptor with its owner. -/
structure OwnedDescriptor where
  -- The number; negative once ownership is given up.
  number : Int
deriving DecidableEq, Repr, Inhabited

namespace OwnedDescriptor

/-- Gives ownership up without closing. -/
def release (d : OwnedDescriptor) : Int × OwnedDescriptor :=
  (d.number, ⟨-1⟩)

/-- What is closed when the owner goes away. -/
def closedAtEnd (d : OwnedDescriptor) : Option Int :=
  if 0 ≤ d.number then some d.number else none

end OwnedDescriptor

end Footprint
