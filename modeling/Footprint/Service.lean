import Footprint.Audit.Log
import Footprint.Discovery
import Footprint.Metrics

/-!
# The discovery service

A service validates its configuration once and then runs any number of discoveries, each of which it
counts in its metrics and records in its audit log. What a call adds to both is a list of *notes*;
the notes of concurrent calls interleave, those of one call keep their order.
-/

namespace Footprint

/-- A discovery service. -/
structure Service where
  config : Config
  host : Host
  metrics : Metrics
  log : Audit.Log
deriving Inhabited

namespace Service

/-- A service for a configuration, if that is valid on the host and its audit log can be opened. -/
def create (config : Config) (host : Host) (files : Files) :
    Checked (Except ConfigCause (Service × Files)) := do
  let findings ← config.validate host
  if findings.isValid then
    return match Audit.Log.ofPath files config.auditPath with
      | .ok (log, files) => .ok ({ config, host, metrics := .zero, log }, files)
      | .error cause => .error cause
  else
    return .error (.invalid findings.faults)

/-- The granularity of everything that the service reports. -/
def blockSize (s : Service) : Addr :=
  s.config.granule s.host

def readyLine (s : Service) : String :=
  "Discovery service ready: block size " ++ Addr.hex s.blockSize
    ++ ", placement " ++ s.config.placement.text ++ ", priming " ++ s.config.priming.text

def shutdownLine (s : Service) : String :=
  s!"Discovery service shut down after {s.metrics.callsTotal} calls"
    ++ s!" ({s.metrics.callsSucceeded} succeeded)"

/-- One thing that a call adds to the metrics or to the audit log. -/
inductive Note where
  | metric (update : Metrics.Update)
  | audit (event : Audit.Event)
deriving Repr

def note (s : Service) : Note → Service
  | .metric update => { s with metrics := s.metrics.apply update }
  | .audit event => { s with log := s.log.record event }

def noteAll (s : Service) (notes : List Note) : Service :=
  notes.foldl note s

def openingNotes (correlation : Audit.Correlation) (code : Code) : List Note :=
  [.metric .callStarted, .audit (.started correlation code.length)]

/-- What the teardown of a call adds. A call that never ran has none. -/
def teardownNotes (correlation : Audit.Correlation) (outcome : Outcome) : List Note :=
  if outcome.launched then
    [.metric (Metrics.updateOfTeardown outcome.teardown),
     .audit (.tornDown correlation outcome.teardown)]
  else []

/-- What the end of a call that took `elapsed` adds. -/
def closingNotes (correlation : Audit.Correlation) (outcome : Outcome) (elapsed : Duration) :
    List Note :=
  let correlation := { correlation with pid := outcome.pid.or correlation.pid }
  teardownNotes correlation outcome
    ++ (Metrics.updatesOfWork outcome.iterations (UInt64.ofNat outcome.blocks)).map .metric
    ++ (Metrics.updatesOfOutcome outcome.result elapsed).map .metric
    ++ [.audit (.ended correlation outcome.result), .metric .callEnded]

def call (s : Service) (correlation : Audit.Correlation) (code : Code) :
    Tracing (Discovered × List Note) := do
  let started : Duration ← Kernel.ask .clock
  let outcome ← Discovery.perform code s.config s.host
  let finished : Duration ← Kernel.ask .clock
  let elapsed : Duration := ⟨finished.nanos - started.nanos⟩
  return (outcome.result,
    openingNotes correlation code ++ closingNotes correlation outcome elapsed)

/-- One discovery by the service. -/
def discover (s : Service) (runId : String) (code : Code) : Tracing (Discovered × Service) := do
  let (result, notes) ← s.call (.single runId) code
  return (result, s.noteAll notes)

end Service

end Footprint
