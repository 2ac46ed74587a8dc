import Footprint.Address

/-!
# Regions and windows

A region is a start and a length, a window a start and an exclusive end. A region whose end would
lie beyond the address space is clamped there, so it never contains the greatest address.
-/

namespace Footprint

/-- The half-open range `[start, start + len)`. -/
structure Region where
  start : Addr
  len : Addr
deriving DecidableEq, Repr, Inhabited

namespace Region

/-- The exclusive end, clamped to the greatest address. -/
def stop (r : Region) : Addr :=
  Addr.addClamped r.start r.len

/-- The exclusive end, or `none` if the region wraps the address space. -/
def stop? (r : Region) : Option Addr :=
  Addr.add? r.start r.len

def contains (r : Region) (a : Addr) : Bool :=
  r.start ≤ a && a < r.stop

/-- Whether each region starts before the other one stops. -/
def overlaps (r s : Region) : Bool :=
  r.start < s.stop && s.start < r.stop

end Region

/-- The half-open range `[start, stop)` of addresses that count as legitimate memory operands. -/
structure Window where
  start : Addr
  stop : Addr
deriving DecidableEq, Repr, Inhabited

namespace Window

def contains (w : Window) (a : Addr) : Bool :=
  w.start ≤ a && a < w.stop

end Window

namespace Region

/-- The gaps from `cursor` up to `limit` that regions sorted by their start leave open. -/
def gapsFrom (cursor limit : Addr) : List Region → Checked (List Region)
  | [] => .ok (if cursor < limit then [⟨cursor, limit - cursor⟩] else [])
  | r :: rest => do
    let before ←
      if cursor < r.start then do
        let len ← Addr.sub (min r.start limit) cursor
        pure [⟨cursor, len⟩]
      else pure []
    let next := max cursor r.stop
    if limit ≤ next then
      return before
    else
      let after ← gapsFrom next limit rest
      return before ++ after

/-- The parts of `[0, limit)` that none of the regions covers, in address order. The regions may
come in any order, overlap, be empty or reach past the limit. -/
def gaps (kept : List Region) (limit : Addr) : Checked (List Region) :=
  gapsFrom 0 limit (kept.mergeSort fun r s => r.start ≤ s.start)

end Region

end Footprint
