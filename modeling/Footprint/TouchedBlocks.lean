import Footprint.Failure

/-!
# Results of a discovery

What a completed discovery answers, and what taking its process down had to do.
-/

namespace Footprint

/-- The memory blocks that a block of code touched during one run. -/
structure TouchedBlocks where
  -- Where the code was placed.
  codeLocation : Addr
  -- Granularity of the blocks.
  blockSize : Addr
  -- Distinct blocks in the order of their first access.
  blocks : List Addr
deriving DecidableEq, Repr, Inhabited

/-- The result of a discovery: the touched blocks, or why there are none. -/
abbrev Discovered := Except Failure TouchedBlocks

/-- What teardown of a process had to do. -/
structure TeardownReport where
  pid : Option Pid
  -- Whether a kill signal reached the process.
  killSent : Bool
  -- Whether the end of the process was collected.
  reaped : Bool
  exitCode : Option Int
  termSignal : Option Int
deriving DecidableEq, Repr, Inhabited

namespace TeardownReport

/-- There was nothing to take down. -/
def nothing : TeardownReport where
  pid := none
  killSent := false
  reaped := false
  exitCode := none
  termSignal := none

/-- The report with the end that a terminal status tells; any other status tells none. -/
def withEnd (r : TeardownReport) : WaitStatus → TeardownReport
  | .exited _ code => { r with reaped := true, exitCode := some code }
  | .signaled _ signal _ => { r with reaped := true, termSignal := some signal.number }
  | _ => r

end TeardownReport

end Footprint
