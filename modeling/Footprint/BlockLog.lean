import Std.Data.HashSet
import Footprint.Address

/-!
# The record of touched blocks

An ordered record of memory blocks without repetition. Addresses are rounded down to their block on
the way in, and the first access to a block fixes its place.
-/

namespace Footprint

/-- The blocks of one granularity that were touched, in the order of their first access. -/
structure BlockLog where
  blockSize : Addr
  blocks : Array Addr
  seen : Std.HashSet Addr

namespace BlockLog

/-- A record without blocks. -/
def empty (blockSize : Addr) : BlockLog :=
  { blockSize, blocks := #[], seen := ∅ }

instance : Inhabited BlockLog := ⟨empty 1⟩

/-- The block that an address lies in. -/
def blockOf (log : BlockLog) (a : Addr) : Checked Addr :=
  Addr.alignDown a log.blockSize

/-- Records an access and says whether its block is new. -/
def insert (log : BlockLog) (a : Addr) : Checked (Bool × BlockLog) := do
  let block ← log.blockOf a
  if log.seen.contains block then
    return (false, log)
  else
    return (true, { log with blocks := log.blocks.push block, seen := log.seen.insert block })

def covers (log : BlockLog) (a : Addr) : Checked Bool := do
  let block ← log.blockOf a
  return log.seen.contains block

def size (log : BlockLog) : Nat :=
  log.blocks.size

/-- The recorded blocks in the order of their first access. -/
def toList (log : BlockLog) : List Addr :=
  log.blocks.toList

end BlockLog

end Footprint
