import Footprint.Address

/-!
# Pages

The unit in which memory is mapped and denied: 4096 bytes, all zero when fresh. A page always has its
full size, so reading and writing at a place of it need no further condition.
-/

namespace Footprint.Machine

def pageSize : Addr := 4096

/-- The start of the page that an address lies in. -/
def pageOf (a : Addr) : Addr :=
  Addr.clearBelow a pageSize

def placeInPage (a : Addr) : Nat :=
  (a % pageSize).toNat

/-- The bytes of a page. -/
structure Page where
  bytes : ByteArray
  size_bytes : bytes.size = pageSize.toNat

namespace Page

def blank : Page :=
  ⟨⟨Array.replicate pageSize.toNat 0⟩, Array.size_replicate⟩

instance : Inhabited Page := ⟨blank⟩

/-- The byte at a place; behind the end there are zeros. -/
def get (p : Page) (i : Nat) : UInt8 :=
  if h : i < p.bytes.size then p.bytes[i] else 0

def set (p : Page) (i : Nat) (b : UInt8) : Page :=
  ⟨p.bytes.set! i b, by
    rw [← p.size_bytes]
    exact Array.size_setIfInBounds⟩

/-- The page with `value i` at the place `start + i`, for each `i` below a count. -/
def fill (value : Nat → UInt8) (start : Nat) : Nat → Page → Page
  | 0, p => p
  | count + 1, p => fill value start count (p.set (start + count) (value count))

end Page

end Footprint.Machine
