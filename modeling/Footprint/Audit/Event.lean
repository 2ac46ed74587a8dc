import Footprint.TouchedBlocks

/-!
# Audit events

What is recorded about a discovery: its start, how its process was taken down and its end. Every
event carries the ids of its call, so that the events of one call can be told from others.
-/

namespace Footprint.Audit

/-- How much attention an event calls for. -/
inductive Severity where
  | high
  | medium
  | low
deriving DecidableEq, Repr, Inhabited

namespace Severity

def table : List (Severity × String) :=
  [(high, "High"), (medium, "Medium"), (low, "Low")]

def name (s : Severity) : String :=
  ((table.find? fun entry => entry.1 == s).map (·.2)).getD ""

/-- The log level that events of a severity are written at. -/
def level : Severity → String
  | high => "ERROR"
  | medium => "WARN"
  | low => "INFO"

end Severity

/-- What happened. -/
inductive EventType where
  | discoveryStart
  | discoveryEnd
  | timeoutExceeded
  | discoveryCancelled
  | teardownSuccess
  | teardownFailure
deriving DecidableEq, Repr, Inhabited

namespace EventType

def table : List (EventType × String) :=
  [(discoveryStart, "DiscoveryStart"), (discoveryEnd, "DiscoveryEnd"),
   (timeoutExceeded, "TimeoutExceeded"), (discoveryCancelled, "DiscoveryCancelled"),
   (teardownSuccess, "TeardownSuccess"), (teardownFailure, "TeardownFailure")]

def name (t : EventType) : String :=
  ((table.find? fun entry => entry.1 == t).map (·.2)).getD ""

def severity : EventType → Severity
  | teardownFailure => .high
  | timeoutExceeded => .medium
  | _ => .low

end EventType

/-- The ids of a call. -/
structure Correlation where
  -- Shared by the calls of one batch; the run id for a call on its own.
  requestId : String
  -- Unique to the call.
  runId : String
  -- The process of the call, once there is one.
  pid : Option Pid
deriving DecidableEq, Repr, Inhabited

namespace Correlation

def single (runId : String) : Correlation := ⟨runId, runId, none⟩

/-- The ids of a call that belongs to a batch. -/
def ofBatch (requestId runId : String) : Correlation := ⟨requestId, runId, none⟩

end Correlation

/-- The moment of an event. -/
structure Moment where
  beforeEpoch : Bool
  -- Distance from the epoch.
  distance : Duration
deriving DecidableEq, Repr, Inhabited

namespace Moment

/-- The moment at a distance from the epoch. Moments are counted in 64-bit seconds with a sign. -/
def ofDistance (beforeEpoch : Bool) (distance : Duration) : Checked Moment :=
  let limit := Nat.pow 2 63 * 1000000000
  if beforeEpoch && limit < distance.nanos then .error .earlyMoment
  else if !beforeEpoch && limit ≤ distance.nanos then .error .lateMoment
  else .ok ⟨beforeEpoch, distance⟩

/-- Whole milliseconds since the epoch, modulo `2 ^ 64`; zero before it. -/
def millis (m : Moment) : UInt64 :=
  if m.beforeEpoch then 0 else UInt64.ofNat (m.distance.nanos / 1000000)

end Moment

/-- One audit event. -/
structure Event where
  eventType : EventType
  severity : Severity
  details : String
  correlation : Correlation
  -- The label of the failure, if the event is about one.
  errorKind : Option String
  -- The result, if the event is about one.
  blocks : Option (List Addr)
deriving DecidableEq, Repr, Inhabited

namespace Event

/-- An event of a type, with nothing but details. -/
def plain (eventType : EventType) (correlation : Correlation) (details : String) : Event where
  eventType := eventType
  severity := eventType.severity
  details := details
  correlation := correlation
  errorKind := none
  blocks := none

def started (correlation : Correlation) (codeLen : Nat) : Event :=
  plain .discoveryStart correlation s!"discovering accesses of {codeLen} byte block"

/-- The event for a failure, apart from what it says about the call. -/
def ofFailure (failure : Failure) : EventType × String :=
  match failure with
  | .timeout .. => (.timeoutExceeded, failure.message)
  | .cancelled => (.discoveryCancelled, "cancelled by caller")
  | _ => (.discoveryEnd, failure.message)

def ended (correlation : Correlation) (result : Discovered) : Event :=
  match result with
  | .ok touched =>
    let details := "block at " ++ Addr.hex touched.codeLocation ++ " completed"
    { plain .discoveryEnd correlation details with blocks := some touched.blocks }
  | .error failure =>
    let (eventType, details) := ofFailure failure
    { plain eventType correlation details with errorKind := some failure.kind.label }

def numberText : Option Int → String
  | some n => s!"Some({n})"
  | none => "None"

/-- The process of a call was taken down, or could not be. -/
def tornDown (correlation : Correlation) (report : Option TeardownReport) : Event :=
  match report with
  | some report =>
    plain .teardownSuccess correlation
      s!"kill_sent={report.killSent} reaped={report.reaped} term_signal={numberText report.termSignal}"
  | none => plain .teardownFailure correlation "isolated context could not be reaped"

end Event

end Footprint.Audit
