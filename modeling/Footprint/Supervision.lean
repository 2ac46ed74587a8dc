import Footprint.Monitor
import Footprint.Sandbox

/-!
# Supervision

Drives a launched sandbox until its monitor reaches an end, the time is up or the caller gives up.
Before each stop is waited for, the caller and the clock are asked, in this order, so that a block
which never stops is noticed too. Every turn either handles one stop or finds that there is none; the
number of turns bounds the drive.
-/

namespace Footprint

/-- What a drive changes. -/
structure Run where
  custody : Custody
  monitor : Monitor

/-- A program of a tracer that drives a run; what it changed is kept when it halts. -/
abbrev Supervising := ExceptT Halt (StateT Run Kernel.Program)

/-- What a drive needs to know. -/
structure Supervisor where
  pid : Pid
  injector : Injector
  -- When the run started.
  started : Duration
  wallLimit : Duration
  -- How often an interrupted wait is repeated.
  patience : Nat

namespace Supervising

variable {α : Type}

def ofTracing (program : Tracing α) : Supervising α :=
  ExceptT.mk (StateT.lift program.run)

def ofQuestion (program : Kernel.Program α) : Supervising α :=
  ExceptT.lift (StateT.lift program)

/-- Ends the drive by a failure that the monitor notes. -/
def endWith (change : Monitor → Failure × Monitor) : Supervising α := do
  let run ← get
  let (failure, monitor) := change run.monitor
  set { run with monitor }
  throw (.failed failure)

end Supervising

namespace Supervisor

def elapsed (s : Supervisor) : Supervising Duration := do
  let now : Duration ← Supervising.ofQuestion (Kernel.ask .clock)
  return ⟨now.nanos - s.started.nanos⟩

/-- Ends the drive if the caller gave up or the time is up. -/
def checkBounds (s : Supervisor) : Supervising Unit := do
  let cancelled : Bool ← Supervising.ofQuestion (Kernel.ask .cancelled)
  if cancelled then
    Supervising.endWith Monitor.cancel
  let elapsed ← s.elapsed
  if s.wallLimit.nanos ≤ elapsed.nanos then
    Supervising.endWith (·.expire .wallClock elapsed)

def makeAccessible (s : Supervisor) (grant : Grant) : Tracing (Except Errno UInt64) :=
  match grant.method with
  | .map => s.injector.mapExactly grant.block grant.len
  | .unprotect => s.injector.permitReadWrite grant.block grant.len

def carryOut (s : Supervisor) (grant : Grant) : Supervising Unit := do
  match ← Supervising.ofTracing (s.makeAccessible grant) with
  | .error errno => Supervising.endWith (·.refused errno)
  | .ok _ =>
    let run ← get
    let monitor ← Supervising.ofTracing (Tracing.ofChecked run.monitor.granted)
    set { run with monitor }
    Supervising.ofTracing (Tracing.resume s.pid .untilSystemCall)

def judge (s : Supervisor) (stop : Stop) : Supervising Verdict := do
  let elapsed ← s.elapsed
  let run ← get
  let (verdict, monitor) := run.monitor.react stop elapsed
  set { run with monitor }
  Supervising.ofTracing (Tracing.ofChecked verdict)

/-- Handles one status of the process; says whether the block is complete. -/
def handle (s : Supervisor) (status : WaitStatus) : Supervising Bool := do
  modify fun run => { run with custody := (run.custody.noteEnd status).2 }
  let stop ← Supervising.ofTracing (Tracing.classify s.pid status)
  match ← s.judge stop with
  | .finish => return true
  | .abort failure => throw (.failed failure)
  | .grant grant =>
    s.carryOut grant
    return false

/-- Drives the run for a number of turns. -/
def drive (s : Supervisor) : Nat → Supervising Unit
  | 0 => throw .impatient
  | turns + 1 => do
    s.checkBounds
    match ← Supervising.ofTracing (Tracing.poll s.pid s.patience) with
    | none => s.drive turns
    | some status =>
      if ← s.handle status then
        return ()
      else
        s.drive turns

end Supervisor

namespace Sandbox

/-- The supervisor of a launched sandbox whose run started at a time. -/
def supervisor (s : Sandbox .launched) (started wallLimit : Duration) (patience : Nat) :
    Tracing Supervisor := do
  let pid ← s.process
  let injector ← s.injector pid patience
  return { pid, injector, started, wallLimit, patience }

/-- Drives a launched sandbox to the end of its run. -/
def drive (s : Sandbox .launched) (monitor : Monitor) (started wallLimit : Duration)
    (turns : Nat) : Kernel.Program (Except Halt Unit × Run) :=
  let program : Supervising Unit := do
    let supervisor ← Supervising.ofTracing (s.supervisor started wallLimit turns)
    supervisor.drive turns
  program.run.run { custody := s.custody, monitor }

end Sandbox

end Footprint
