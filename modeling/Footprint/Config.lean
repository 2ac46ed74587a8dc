import Footprint.Duration
import Footprint.Priming
import Footprint.Region

/-!
# Configuration

Everything that a discovery depends on besides the code itself: the configuration of a service, the
bounds of one call and the parameters of the host.
-/

namespace Footprint

/-- Where the block is placed inside its process. -/
inductive Placement where
  -- At the address, on every call.
  | fixed (location : Addr)
  -- At a fresh page of the random range on every call.
  | randomized
deriving DecidableEq, Repr

namespace Placement

/-- Far above low operand addresses and below the usual ranges of shared code. -/
def standard : Placement := .fixed 0x200000000000

instance : Inhabited Placement := ⟨standard⟩

/-- The range that random locations are drawn from. -/
def randomRange : Window := ⟨0x100000000000, 0x400000000000⟩

/-- The location of the block. A random location is page `draw` of the random range, counted
around its end; where pages are so large that the range has none, there is no location. -/
def locate (p : Placement) (pageSize draw : Addr) : Checked Addr :=
  match p with
  | fixed location => .ok location
  | randomized =>
    let first := randomRange.start / pageSize
    let pages := randomRange.stop / pageSize - first
    if pages = 0 then .error .noPages else .ok ((first + draw % pages) * pageSize)

def text : Placement → String
  | fixed location => s!"Fixed({location})"
  | randomized => "Randomized"

end Placement

/-- The exclusive upper bound of user addresses. -/
def userAddressLimit : Addr := 0x800000000000

/-- The exclusive upper bound of what a process can map or unmap. -/
def taskSize : Addr := 0x7ffffffff000

/-- The configuration of a discovery service. -/
structure Config where
  -- Granularity of grants and reports; the page size of the host if absent.
  blockSize : Option Addr
  -- Longest accepted block in bytes.
  maxCodeLen : UInt64
  placement : Placement
  priming : Priming
  -- Addresses that may be granted.
  window : Window
  -- Number of distinct blocks that may be granted.
  maxBlocks : UInt64
  -- Number of grants after which a call times out.
  maxIterations : UInt32
  -- Time for one call in milliseconds.
  wallLimitMs : UInt64
  -- Whether inherited mappings are removed from the process.
  scrub : Bool
  -- File that audit events are appended to.
  auditPath : Option String
deriving DecidableEq, Repr

namespace Config

/-- The configuration with nothing said. One page of 4096 bytes holds the longest block with the
sentinel and the system-call stub behind it. -/
def standard : Config where
  blockSize := none
  maxCodeLen := 4092
  placement := .standard
  priming := .standard
  window := ⟨0, userAddressLimit⟩
  maxBlocks := 512
  maxIterations := 256
  wallLimitMs := 2000
  scrub := true
  auditPath := none

instance : Inhabited Config := ⟨standard⟩

def wallLimit (c : Config) : Duration :=
  .ofMillis c.wallLimitMs.toNat

end Config

/-- The parameters of the machine that discoveries run on. -/
structure Host where
  arch : String
  pageSize : Addr
  -- The lowest address that a process may map.
  mapMin : Addr
deriving DecidableEq, Repr, Inhabited

namespace Config

/-- The granularity of grants and reports on a host. -/
def granule (c : Config) (host : Host) : Addr :=
  c.blockSize.getD host.pageSize

end Config

/-- The bounds of one call. -/
structure Limits where
  window : Window
  maxBlocks : UInt64
  maxIterations : UInt32
deriving DecidableEq, Repr, Inhabited

namespace Config

/-- The bounds that a configuration puts on every call. -/
def limits (c : Config) : Limits :=
  { window := c.window, maxBlocks := c.maxBlocks, maxIterations := c.maxIterations }

end Config

/-- Which bound a call ran into. -/
inductive TimeLimit where
  | faultIterations
  | wallClock
deriving DecidableEq, Repr, Inhabited

namespace TimeLimit

def text : TimeLimit → String
  | faultIterations => "fault iteration limit"
  | wallClock => "wall clock limit"

end TimeLimit

end Footprint
