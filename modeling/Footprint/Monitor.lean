import Footprint.BlockLog
import Footprint.Failure
import Footprint.Layout

/-!
# The fault monitor

Decides at every stop of a running block what happens next. The monitor never touches the process:
it is told of stops, answers a verdict, and is told how the verdict was carried out.

```text
running --denied access--> faulted --in the window, under the caps--> granting
   ^                          |                                          |
   +-------- granted ---------+------------------------------------------+
                              +--otherwise--> aborted
running --sentinel--> trapped
running --any other stop--> aborted
```
-/

namespace Footprint

/-- What is to happen after a stop. -/
inductive Verdict where
  -- Make a block accessible and resume.
  | grant (grant : Grant)
  -- The block is complete.
  | finish
  | abort (failure : Failure)
deriving DecidableEq, Repr

/-- The state of one run. -/
structure Monitor where
  phase : Phase
  layout : Layout
  limits : Limits
  -- The blocks granted so far.
  log : BlockLog
  -- The number of grants carried out so far.
  iterations : UInt32

namespace Monitor

/-- A run that is about to start. -/
def start (layout : Layout) (limits : Limits) : Monitor where
  phase := .running
  layout := layout
  limits := limits
  log := .empty layout.blockSize
  iterations := 0

def inPhase (m : Monitor) (phase : Phase) : Monitor :=
  { m with phase := phase }

/-- The failure of a run that reached a bound. -/
def timeoutFailure (m : Monitor) (limit : TimeLimit) (elapsed : Duration) : Failure :=
  .timeout limit m.iterations elapsed

/-- How a block is made accessible, or why it is not: only the guarded region may be unprotected. -/
def methodFor (m : Monitor) (denial : Denial) (block : Addr) : Except AccessCause GrantMethod :=
  match denial with
  | .unmapped => .ok .map
  | .forbidden =>
    if m.layout.guardRegion.contains block then .ok .unprotect else .error .foreignMapping

/-- Judges a denied access: the bounds of the run come first, then what the address is. -/
def judge (m : Monitor) (addr : Addr) (denial : Denial) (pc : Addr) (elapsed : Duration) :
    Checked Verdict := do
  if m.limits.maxIterations ≤ m.iterations then
    return .abort (m.timeoutFailure .faultIterations elapsed)
  if !m.limits.window.contains addr then
    return .abort (.access addr .outsideWindow)
  if m.layout.codeRegion.contains addr then
    return .abort (.access addr .codeRegion)
  let block ← m.log.blockOf addr
  if m.log.seen.contains block then
    return .abort (.fault (some pc) (.repeatedFault block))
  if m.limits.maxBlocks.toNat ≤ m.log.size then
    return .abort (.access addr (.grantCap m.limits.maxBlocks))
  match m.methodFor denial block with
  | .ok method => return .grant { addr, block, len := m.layout.blockSize, method }
  | .error cause => return .abort (.access addr cause)

/-- The phase that a verdict leaves a run in. -/
def phaseAfter : Verdict → Phase
  | .grant grant => .granting grant
  | .finish => .trapped
  | .abort _ => .aborted

def verdictOn (m : Monitor) (stop : Stop) (elapsed : Duration) : Checked Verdict :=
  match stop with
  | .access addr denial pc => m.judge addr denial pc elapsed
  | .breakpoint pc => do
    let completion ← m.layout.completionPc
    if pc = completion then
      return .finish
    else
      return .abort (.fault (some (pc - breakpointLen)) .strayBreakpoint)
  | .systemCall pc => .ok (.abort (.fault (some pc) .systemCall))
  | .signal signal code pc => .ok (.abort (.fault (some pc) (.signal signal code)))
  | .exited code => .ok (.abort (.fault none (.exited code)))
  | .killed signal => .ok (.abort (.fault none (.killed signal)))

/-- The phase in which a stop is judged; arithmetic that leaves its range leaves the run there. -/
def phaseDuring (m : Monitor) : Stop → Phase
  | .access addr _ pc => .faulted addr pc
  | _ => m.phase

/-- Reacts to one stop. A stop that arrives while no block is running ends the run. -/
def react (m : Monitor) (stop : Stop) (elapsed : Duration) : Checked Verdict × Monitor :=
  if m.phase = .running then
    match m.verdictOn stop elapsed with
    | .ok verdict => (.ok verdict, m.inPhase (phaseAfter verdict))
    | .error e => (.error e, m.inPhase (m.phaseDuring stop))
  else
    (.ok (.abort (.fault none (.strayStop stop m.phase))), m.inPhase .aborted)

/-- The pending grant was carried out; it is recorded, and the block runs on. -/
def granted (m : Monitor) : Checked Monitor :=
  match m.phase with
  | .granting grant => do
    let (_, log) ← m.log.insert grant.block
    if m.iterations.toNat + 1 < UInt32.size then
      return { m with phase := .running, log, iterations := m.iterations + 1 }
    else
      throw .addOverflow
  | _ => .ok m

/-- The address whose grant is pending, or zero. -/
def pendingAddr (m : Monitor) : Addr :=
  match m.phase with
  | .granting grant => grant.addr
  | _ => 0

/-- The kernel refused the pending grant. -/
def refused (m : Monitor) (errno : Errno) : Failure × Monitor :=
  (.access m.pendingAddr (.kernelRefused errno), m.inPhase .aborted)

/-- The run reached a bound. -/
def expire (m : Monitor) (limit : TimeLimit) (elapsed : Duration) : Failure × Monitor :=
  (m.timeoutFailure limit elapsed, m.inPhase .aborted)

/-- The caller gave the run up. -/
def cancel (m : Monitor) : Failure × Monitor :=
  (.cancelled, m.inPhase .aborted)

end Monitor

end Footprint
