import Footprint.Audit.Event

/-!
# Metrics

Counters over the calls of a service. Every change is one of a few atomic updates, so concurrent
calls interleave by updates; recording something about a call is a list of them. Counters wrap at
`2 ^ 64`, and the gauge of active calls stays at zero rather than below.
-/

namespace Footprint

/-- The number of calls that failed, by kind of failure. -/
structure FailureCounts where
  sandboxSetup : UInt64
  config : UInt64
  unresolvableAccess : UInt64
  executionFault : UInt64
  timeout : UInt64
  cancelled : UInt64
  invalidCode : UInt64
deriving DecidableEq, Repr, Inhabited

namespace FailureCounts

def get (c : FailureCounts) : Failure.Kind → UInt64
  | .sandboxSetup => c.sandboxSetup
  | .config => c.config
  | .unresolvableAccess => c.unresolvableAccess
  | .executionFault => c.executionFault
  | .timeout => c.timeout
  | .cancelled => c.cancelled
  | .invalidCode => c.invalidCode

def bump (c : FailureCounts) : Failure.Kind → FailureCounts
  | .sandboxSetup => { c with sandboxSetup := c.sandboxSetup + 1 }
  | .config => { c with config := c.config + 1 }
  | .unresolvableAccess => { c with unresolvableAccess := c.unresolvableAccess + 1 }
  | .executionFault => { c with executionFault := c.executionFault + 1 }
  | .timeout => { c with timeout := c.timeout + 1 }
  | .cancelled => { c with cancelled := c.cancelled + 1 }
  | .invalidCode => { c with invalidCode := c.invalidCode + 1 }

end FailureCounts

/-- The metrics of a service. -/
structure Metrics where
  callsTotal : UInt64
  callsSucceeded : UInt64
  failures : FailureCounts
  blocksGranted : UInt64
  faultIterations : UInt64
  teardownsCompleted : UInt64
  teardownsFailed : UInt64
  activeCalls : UInt64
  -- How many calls took at most as long as each bound.
  buckets : List UInt64
  durationCount : UInt64
  -- The sum of the durations in whole microseconds.
  durationSum : UInt64
deriving DecidableEq, Repr

namespace Metrics

/-- The bounds of the duration buckets, ascending. -/
def bounds : List Duration :=
  [⟨100000⟩, ⟨250000⟩, ⟨500000⟩, ⟨1000000⟩, ⟨2500000⟩, ⟨5000000⟩, ⟨10000000⟩, ⟨25000000⟩,
   ⟨100000000⟩, ⟨500000000⟩, ⟨2000000000⟩]

/-- The metrics of a service that did nothing yet. -/
def zero : Metrics where
  callsTotal := 0
  callsSucceeded := 0
  failures := default
  blocksGranted := 0
  faultIterations := 0
  teardownsCompleted := 0
  teardownsFailed := 0
  activeCalls := 0
  buckets := bounds.map fun _ => 0
  durationCount := 0
  durationSum := 0

instance : Inhabited Metrics := ⟨zero⟩

/-- One atomic change. -/
inductive Update where
  | callStarted
  | callEnded
  | countCall
  | countSuccess
  | countFailure (kind : Failure.Kind)
  | addDuration (micros : UInt64)
  | countDuration
  -- One more duration within the bound of a bucket.
  | countBucket (index : Nat)
  | addIterations (n : UInt64)
  | addBlocks (n : UInt64)
  | teardownCompleted
  | teardownFailed
deriving DecidableEq, Repr

def apply (m : Metrics) : Update → Metrics
  | .callStarted => { m with activeCalls := m.activeCalls + 1 }
  | .callEnded =>
    { m with activeCalls := if m.activeCalls = 0 then 0 else m.activeCalls - 1 }
  | .countCall => { m with callsTotal := m.callsTotal + 1 }
  | .countSuccess => { m with callsSucceeded := m.callsSucceeded + 1 }
  | .countFailure kind => { m with failures := m.failures.bump kind }
  | .addDuration micros => { m with durationSum := m.durationSum + micros }
  | .countDuration => { m with durationCount := m.durationCount + 1 }
  | .countBucket i => { m with buckets := m.buckets.modify i (· + 1) }
  | .addIterations n => { m with faultIterations := m.faultIterations + n }
  | .addBlocks n => { m with blocksGranted := m.blocksGranted + n }
  | .teardownCompleted => { m with teardownsCompleted := m.teardownsCompleted + 1 }
  | .teardownFailed => { m with teardownsFailed := m.teardownsFailed + 1 }

def applyAll (m : Metrics) (updates : List Update) : Metrics :=
  updates.foldl apply m

/-- The updates for the duration of a call. A duration counts in every bucket whose bound it does
not exceed. -/
def updatesOfDuration (d : Duration) : List Update :=
  [.addDuration (UInt64.ofNat d.micros), .countDuration]
    ++ (List.range bounds.length).filterMap fun i =>
      match bounds[i]? with
      | some bound => if d.nanos ≤ bound.nanos then some (.countBucket i) else none
      | none => none

/-- The updates for the result of a call that took `d`. -/
def updatesOfOutcome (result : Discovered) (d : Duration) : List Update :=
  .countCall :: updatesOfDuration d ++
    match result with
    | .ok _ => [.countSuccess]
    | .error failure => [.countFailure failure.kind]

/-- The updates for the grants of a call, successful or not. -/
def updatesOfWork (iterations : UInt32) (blocks : UInt64) : List Update :=
  [.addIterations iterations.toUInt64, .addBlocks blocks]

/-- The update for a teardown. It is complete if the process was reaped, or if there was none. -/
def updateOfTeardown : Option TeardownReport → Update
  | some report =>
    if report.reaped || report.pid.isNone then .teardownCompleted else .teardownFailed
  | none => .teardownFailed

/-- All counters by their names, the buckets apart. -/
def counters (m : Metrics) : List (String × UInt64) :=
  [("calls_total", m.callsTotal), ("calls_succeeded", m.callsSucceeded)]
    ++ Failure.Kind.all.map (fun kind => ("errors_" ++ kind.label, m.failures.get kind))
    ++ [("blocks_granted", m.blocksGranted), ("fault_iterations", m.faultIterations),
        ("teardowns_completed", m.teardownsCompleted), ("teardowns_failed", m.teardownsFailed),
        ("active_calls", m.activeCalls), ("call_duration_count", m.durationCount),
        ("call_duration_sum_micros", m.durationSum)]

/-- The count of the bucket whose bound lies within a billionth of `le` seconds, or zero. -/
def bucketCount (m : Metrics) (le : Float) : UInt64 :=
  let near (bound : Duration) : Bool :=
    (Float.ofNat bound.nanos / 1e9 - le).abs < 1e-9
  ((bounds.zip m.buckets).find? fun entry => near entry.1).elim 0 (·.2)

end Metrics

end Footprint
