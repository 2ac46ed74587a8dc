import Footprint.Custody
import Footprint.Injection

/-!
# Sandboxes

A sandbox is a process of its own in which one block runs. It is brought up in fixed steps, each of
which takes a sandbox in one phase to the next:

```text
forked --stopped for its tracer--> stopped --inherited memory removed--> scrubbed
scrubbed --registers filled--> primed --resumed--> launched
```

A step that fails takes the process down before it answers.
-/

namespace Footprint

namespace Code

/-- Whether code is a block that may be run. -/
def check (code : Code) (limit : UInt64) : Except CodeCause Unit :=
  if code.isEmpty then .error .empty
  else if limit.toNat < code.length then .error (.tooLong code.length limit)
  else .ok ()

end Code

/-- How far a sandbox is brought up. -/
inductive SandboxPhase where
  | forked
  | stopped
  | scrubbed
  | primed
  | launched
deriving DecidableEq, Repr

/-- A sandbox in a phase. -/
structure Sandbox (phase : SandboxPhase) where
  custody : Custody
  layout : Layout
deriving DecidableEq, Repr

namespace Sandbox

variable {phase : SandboxPhase} {α : Type}

def process (s : Sandbox phase) : Tracing Pid :=
  match s.custody.pid with
  | some pid => pure pid
  | none => Tracing.failSetup .goneAlready

def entering (s : Sandbox phase) (next : SandboxPhase) : Sandbox next :=
  ⟨s.custody, s.layout⟩

/-- A program that takes the process down if it halts. -/
def orRelease (s : Sandbox phase) (patience : Nat) (program : Tracing α) : Tracing α := do
  let result : Except Halt α ← ExceptT.lift program.run
  match result with
  | .ok a => return a
  | .error halt =>
    ExceptT.lift (s.custody.release patience)
    throw halt

/-- The layout of a sandbox for code. Only a random placement draws a number. -/
def plan (code : Code) (config : Config) (host : Host) : Tracing Layout := do
  let draw : Addr ←
    if config.placement = .randomized then Kernel.ask .draw else pure 0
  let layout ← Tracing.ofChecked
    (Layout.plan (UInt64.ofNat code.length) config host draw)
  if layout.codeRegion.overlaps layout.guardRegion then
    Tracing.failSetup (.overlap layout.codeRegion.start layout.guardRegion.start)
  else
    return layout

/-- What the process of a sandbox is to set up. -/
def setupPlan (code : Code) (layout : Layout) (reportTo : Int32) : Setup.Plan where
  image := code.image
  regionLen := layout.codeRegion.len
  codeLocation := layout.codeLocation
  guardRegion := layout.guardRegion
  reportTo := reportTo

/-- Starts a process for code. -/
def spawn (code : Code) (config : Config) (host : Host) : Tracing (Sandbox .forked) := do
  match code.check config.maxCodeLen with
  | .error cause => Tracing.fail (.code cause)
  | .ok () =>
    let layout ← plan code config host
    let reportTo ← Tracing.attempt .openReport (Kernel.ask .openReport)
    let pid ← Tracing.attempt .fork (Kernel.ask (.fork (setupPlan code layout reportTo)))
    return ⟨.of pid, layout⟩

/-- The report of a process that was set up. -/
def readReady (pid : Pid) : Tracing Setup.Report := do
  let report ← Tracing.readReport pid
  if report.stage = Setup.Stage.ready.number then
    return report
  else
    Tracing.failSetup (.stepFailed report.stage ⟨report.errno.toInt⟩)

/-- Takes over a stopped process, whose code must be where it was planned. -/
def takeOver (s : Sandbox .forked) (pid : Pid) (report : Setup.Report) :
    Tracing (Sandbox .stopped) := do
  Tracing.setOptions pid
  if report.codeAddr = s.layout.codeLocation then
    return s.entering .stopped
  else
    Tracing.failSetup (.misplaced report.codeAddr s.layout.codeLocation)

/-- Waits until the process was set up and stopped for its tracer. -/
def awaitStop (s : Sandbox .forked) (patience : Nat) : Tracing (Sandbox .stopped) := do
  let pid ← s.process
  let report ← s.orRelease patience (readReady pid)
  let status ← s.orRelease patience (Tracing.wait pid patience)
  match status with
  | .stopped _ .stop => s.orRelease patience (s.takeOver pid report)
  | status =>
    ExceptT.lift ((s.custody.noteEnd status).2.release patience)
    Tracing.failSetup (.notStopped status)

def injector (s : Sandbox phase) (pid : Pid) (patience : Nat) : Tracing Injector := do
  let stub ← Tracing.ofChecked s.layout.stubAddr
  return { pid, stub, patience }

/-- The regions that the sandbox itself needs. -/
def ownRegions (s : Sandbox phase) : List Region :=
  [s.layout.codeRegion, s.layout.guardRegion]

/-- The mapping that an address lies in, as a region. -/
def regionAround (maps : List MapEntry) (a : Addr) : List Region :=
  match maps.find? (·.contains a) with
  | some entry => [⟨entry.start, entry.stop - entry.start⟩]
  | none => []

/-- Gives up the thread's restartable-sequence area, to which the kernel would keep writing. Answers
the region to keep where the kernel cannot tell about the area: the one that holds the thread's
control block. -/
def dropRseq (injector : Injector) (maps : List MapEntry) : Tracing (List Region) := do
  match ← Tracing.readRseq injector.pid with
  | some rseq =>
    if rseq.isRegistered then
      match ← injector.dropRseq rseq with
      | .ok _ => return []
      | .error errno => Tracing.failSetup (.rseqKept errno)
    else
      return []
  | none =>
    let registers ← Tracing.readRegisters injector.pid
    return regionAround maps registers.fsBase

def unmapAll (injector : Injector) : List Region → Tracing Unit
  | [] => pure ()
  | gap :: rest => do
    match ← injector.unmap gap.start gap.len with
    | .ok _ => unmapAll injector rest
    | .error errno => Tracing.failSetup (.gapKept gap errno)

/-- Removes everything that the process inherited, so that the block cannot touch it unnoticed. -/
def removeInherited (s : Sandbox .stopped) (pid : Pid) (patience : Nat) : Tracing Unit := do
  let maps ← Tracing.readMaps pid
  let injector ← s.injector pid patience
  let kept ← dropRseq injector maps
  let gaps ← Tracing.ofChecked (Region.gaps (s.ownRegions ++ kept) taskSize)
  unmapAll injector gaps

/-- Removes inherited memory, if that is wanted. -/
def scrub (s : Sandbox .stopped) (wanted : Bool) (patience : Nat) :
    Tracing (Sandbox .scrubbed) := do
  if wanted then
    let pid ← s.process
    s.orRelease patience (s.removeInherited pid patience)
  return s.entering .scrubbed

/-- Fills the registers and points them at the block. -/
def fillRegisters (s : Sandbox .scrubbed) (priming : Priming) (pid : Pid) : Tracing Unit := do
  let registers ← Tracing.readRegisters pid
  Tracing.writeRegisters pid (registers.prime priming s.layout.codeLocation)

def prime (s : Sandbox .scrubbed) (priming : Priming) (patience : Nat) :
    Tracing (Sandbox .primed) := do
  let pid ← s.process
  s.orRelease patience (s.fillRegisters priming pid)
  return s.entering .primed

def start (s : Sandbox .primed) (patience : Nat) : Tracing (Sandbox .launched) := do
  let pid ← s.process
  s.orRelease patience (Tracing.resume pid .untilSystemCall)
  return s.entering .launched

def launch (s : Sandbox .forked) (config : Config) (patience : Nat) :
    Tracing (Sandbox .launched) := do
  let stopped ← s.awaitStop patience
  let scrubbed ← stopped.scrub config.scrub patience
  let primed ← scrubbed.prime config.priming patience
  primed.start patience

end Sandbox

end Footprint
