import Footprint.Code
import Footprint.Config

/-!
# The layout of a sandbox

A sandbox holds two regions of its own. The code region carries the block, a one-byte sentinel that
marks its completion and a stub through which system calls are run in the process. The guarded
region is the block of memory that the primed registers point at; it is mapped without permissions.
-/

namespace Footprint

/-- How far behind a breakpoint the program counter stands when it has been executed. -/
def breakpointLen : Addr := 1

def sentinelLen : Addr := 1

def stubLen : Addr := 3

/-- Where everything in a sandbox lies. -/
structure Layout where
  -- Address of the first instruction.
  codeLocation : Addr
  -- Length of the block without sentinel and stub.
  codeLen : Addr
  -- Everything that is mapped executable.
  codeRegion : Region
  -- The region that is protected at first.
  guardRegion : Region
  -- Granularity of grants and reports.
  blockSize : Addr
deriving DecidableEq, Repr, Inhabited

namespace Layout

/-- Address of the sentinel, directly behind the block. -/
def sentinelAddr (l : Layout) : Checked Addr :=
  Addr.add l.codeLocation l.codeLen

/-- Address of the stub, directly behind the sentinel. -/
def stubAddr (l : Layout) : Checked Addr := do
  let sentinel ← l.sentinelAddr
  Addr.add sentinel sentinelLen

/-- The program counter after the sentinel was executed. -/
def completionPc (l : Layout) : Checked Addr := do
  let sentinel ← l.sentinelAddr
  Addr.add sentinel breakpointLen

def imageLen (codeLen : Addr) : Checked Addr := do
  let marked ← Addr.add codeLen sentinelLen
  Addr.add marked stubLen

/-- The layout for a block of `codeLen` bytes. The code region is the image rounded up to pages,
the guarded region the block of the priming base; `draw` decides a random location. -/
def plan (codeLen : Addr) (config : Config) (host : Host) (draw : Addr) : Checked Layout := do
  let blockSize := config.granule host
  let imageLen ← imageLen codeLen
  let regionLen ← Addr.alignUp imageLen host.pageSize
  let location ← config.placement.locate host.pageSize draw
  let guardStart ← Addr.alignDown config.priming.base blockSize
  return { codeLocation := location, codeLen, blockSize,
           codeRegion := ⟨location, regionLen⟩, guardRegion := ⟨guardStart, blockSize⟩ }

end Layout

end Footprint
