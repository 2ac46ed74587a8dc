import Footprint.Supervision

/-!
# Discoveries

One discovery brings a sandbox up for a block, drives it to the end of its run and takes it down. The
process is taken down before the result is answered, on every outcome; a completed run whose process
cannot be taken down counts as failed.
-/

namespace Footprint

namespace Config

/-- The turns that a drive on a configuration takes at most if the clock moves on by a millisecond
whenever there is nothing to handle: one for each grant, one for each millisecond and one for the
stop that ends the run. -/
def turns (c : Config) : Nat :=
  c.maxIterations.toNat + c.wallLimitMs.toNat + 1

end Config

/-- The end of a run together with what taking its process down came to. -/
structure Conclusion where
  result : Discovered
  -- What teardown did, unless it met an obstacle.
  teardown : Option TeardownReport
deriving Repr

namespace Conclusion

/-- The result of a run whose process was taken down, or was not. -/
def ofTeardown (touched : TouchedBlocks) (outcome : Except Failure Unit)
    (teardown : Except SetupCause TeardownReport) : Conclusion :=
  { result := match outcome, teardown with
      | .error failure, _ => .error failure
      | .ok (), .ok _ => .ok touched
      | .ok (), .error cause => .error (.setup (.teardownFailed cause))
    teardown := teardown.toOption }

end Conclusion

namespace Custody

/-- Takes the process of a run down and concludes the run. -/
def conclude (c : Custody) (touched : TouchedBlocks) (outcome : Except Failure Unit)
    (patience : Nat) : Kernel.Program (Except Halt Conclusion × Custody) := do
  let (teardown, custody) ← c.teardown patience
  match teardown with
  | .ok report => return (.ok (.ofTeardown touched outcome (.ok report)), custody)
  | .error (.refused request errno) =>
    return (.ok (.ofTeardown touched outcome (.error (.refused request errno))), custody)
  | .error .endless => return (.error .impatient, custody)

end Custody

/-- Everything that one discovery came to. -/
structure Outcome where
  result : Discovered
  teardown : Option TeardownReport
  -- Whether the block was started.
  launched : Bool
  -- The number of grants that were carried out.
  iterations : UInt32
  -- The number of blocks that were granted.
  blocks : Nat
  -- The process, if there was one.
  pid : Option Pid
deriving Repr

namespace Outcome

/-- A discovery that failed before its block was started. -/
def beforeLaunch (failure : Failure) (pid : Option Pid) : Outcome where
  result := .error failure
  teardown := none
  launched := false
  iterations := 0
  blocks := 0
  pid := pid

end Outcome

namespace Sandbox

/-- The blocks that a run in the sandbox touched. -/
def touched (s : Sandbox .launched) (monitor : Monitor) : TouchedBlocks where
  codeLocation := s.layout.codeLocation
  blockSize := s.layout.blockSize
  blocks := monitor.log.toList

/-- Takes the process of a run down and sums the run up. -/
def sumUp (s : Sandbox .launched) (run : Run) (ended : Except Failure Unit) (patience : Nat) :
    Tracing Outcome := do
  let (conclusion, _) ← ExceptT.lift
    (run.custody.conclude (s.touched run.monitor) ended patience)
  let conclusion ← ExceptT.mk (pure conclusion)
  return { result := conclusion.result, teardown := conclusion.teardown, launched := true,
           iterations := run.monitor.iterations, blocks := run.monitor.log.size,
           pid := s.custody.pid }

/-- Drives a launched sandbox, for a number of turns at most, and takes it down. -/
def finish (s : Sandbox .launched) (config : Config) (turns : Nat) : Tracing Outcome := do
  let started : Duration ← Kernel.ask .clock
  let monitor := Monitor.start s.layout config.limits
  let (ended, run) ← ExceptT.lift (s.drive monitor started config.wallLimit turns)
  match ended with
  | .ok () => s.sumUp run (.ok ()) turns
  | .error (.failed failure) => s.sumUp run (.error failure) turns
  | .error halt =>
    ExceptT.lift (run.custody.release turns)
    throw halt

end Sandbox

namespace Discovery

/-- A step that may fail, its failure being a value. Other ways to halt stay. -/
def catchFailure {α : Type} (program : Tracing α) : Tracing (Except Failure α) := do
  let result : Except Halt α ← ExceptT.lift program.run
  match result with
  | .ok a => return .ok a
  | .error (.failed failure) => return .error failure
  | .error halt => throw halt

/-- One discovery. A call that was given up before it began starts no process. -/
def perform (code : Code) (config : Config) (host : Host) : Tracing Outcome := do
  let cancelled : Bool ← Kernel.ask .cancelled
  if cancelled then
    return .beforeLaunch .cancelled none
  match ← catchFailure (Sandbox.spawn code config host) with
  | .error failure => return .beforeLaunch failure none
  | .ok forked =>
    match ← catchFailure (forked.launch config config.turns) with
    | .error failure => return .beforeLaunch failure forked.custody.pid
    | .ok launched => launched.finish config config.turns

end Discovery

end Footprint
