import Footprint.Audit.Event
import Footprint.Json.Codec
import Footprint.Layout

/-!
# The JSON forms of records

How each record of the library is written as JSON: the names of its fields in their order, and which
of them may be left out.
-/

namespace Footprint.Forms

open Json

/-- Where the block is placed. -/
def placement : Codec Placement where
  read := Variant.read
    [("fixed", .holding fun v => do
        let location ← Codec.address.read v
        return .fixed location),
     ("randomized", .plain .randomized)]
  write
    | .fixed location => .record [("fixed", .word location)]
    | .randomized => .text "randomized"

/-- The base and the stride of distinct register values. -/
def strides : RecordForm (Addr × Addr) where
  title := "struct variant RegisterPriming::Distinct"
  blank := (0, 0)
  fields :=
    [.mandatory "base" .address (·.1) (fun a r => (a, r.2)),
     .mandatory "stride" .address (·.2) (fun a r => (r.1, a))]
  mayStopEarly := false

def priming : Codec Priming where
  read := Variant.read
    [("uniform", .holding fun v => do
        let value ← Codec.address.read v
        return .uniform value),
     ("distinct", .fields fun v => do
        let (base, stride) ← strides.codec.read v
        return .distinct base stride)]
  write
    | .uniform value => .record [("uniform", .word value)]
    | .distinct base stride => .record [("distinct", strides.codec.write (base, stride))]

def window : RecordForm Window where
  title := "struct AccessWindow"
  blank := ⟨0, 0⟩
  fields :=
    [.mandatory "start" .address (·.start) (fun a w => { w with start := a }),
     .mandatory "end" .address (·.stop) (fun a w => { w with stop := a })]
  mayStopEarly := false

/-- A configuration; whatever is left out keeps its standard value. -/
def config : RecordForm Config where
  title := "struct SandboxConfig"
  blank := .standard
  fields :=
    [.defaulted "block_size" (.optional .address) (·.blockSize)
       (fun a c => { c with blockSize := a }),
     .defaulted "max_code_len" .count (·.maxCodeLen) (fun a c => { c with maxCodeLen := a }),
     .defaulted "placement" placement (·.placement) (fun a c => { c with placement := a }),
     .defaulted "priming" priming (·.priming) (fun a c => { c with priming := a }),
     .defaulted "access_window" window.codec (·.window) (fun a c => { c with window := a }),
     .defaulted "max_granted_blocks" .count (·.maxBlocks) (fun a c => { c with maxBlocks := a }),
     .defaulted "max_fault_iterations" .count32 (·.maxIterations)
       (fun a c => { c with maxIterations := a }),
     .defaulted "wall_time_limit_ms" .address (·.wallLimitMs)
       (fun a c => { c with wallLimitMs := a }),
     .defaulted "scrub_address_space" .bool (·.scrub) (fun a c => { c with scrub := a }),
     .defaulted "audit_log_path" (.optional .path) (·.auditPath)
       (fun a c => { c with auditPath := a })]
  mayStopEarly := true

def touched : RecordForm TouchedBlocks where
  title := "struct AccessedAddrs"
  blank := default
  fields :=
    [.mandatory "code_location" .address (·.codeLocation) (fun a t => { t with codeLocation := a }),
     .mandatory "block_size" .address (·.blockSize) (fun a t => { t with blockSize := a }),
     .mandatory "accessed_blocks" (.list .address) (·.blocks) (fun a t => { t with blocks := a })]
  mayStopEarly := false

/-- The bound that a call ran into. -/
def timeLimit : Codec TimeLimit :=
  .names [(.faultIterations, "fault_iterations"), (.wallClock, "wall_clock")]

def region : RecordForm Region where
  title := "struct BlockRange"
  blank := ⟨0, 0⟩
  fields :=
    [.mandatory "start" .address (·.start) (fun a r => { r with start := a }),
     .mandatory "len" .address (·.len) (fun a r => { r with len := a })]
  mayStopEarly := false

def layout : RecordForm Layout where
  title := "struct SandboxLayout"
  blank := default
  fields :=
    [.mandatory "code_location" .address (·.codeLocation) (fun a l => { l with codeLocation := a }),
     .mandatory "code_len" .address (·.codeLen) (fun a l => { l with codeLen := a }),
     .mandatory "code_region" region.codec (·.codeRegion) (fun a l => { l with codeRegion := a }),
     .mandatory "guard_region" region.codec (·.guardRegion)
       (fun a l => { l with guardRegion := a }),
     .mandatory "block_size" .address (·.blockSize) (fun a l => { l with blockSize := a })]
  mayStopEarly := false

def host : RecordForm Host where
  title := "struct HostSupport"
  blank := default
  fields :=
    [.mandatory "arch" .string (·.arch) (fun a h => { h with arch := a }),
     .mandatory "page_size" .address (·.pageSize) (fun a h => { h with pageSize := a }),
     .mandatory "mmap_min_addr" .address (·.mapMin) (fun a h => { h with mapMin := a })]
  mayStopEarly := false

def teardown : RecordForm TeardownReport where
  title := "struct TeardownReport"
  blank := .nothing
  fields :=
    [.defaulted "pid" (.optional .signed32) (·.pid) (fun a r => { r with pid := a }),
     .mandatory "kill_sent" .bool (·.killSent) (fun a r => { r with killSent := a }),
     .mandatory "reaped" .bool (·.reaped) (fun a r => { r with reaped := a }),
     .defaulted "exit_code" (.optional .signed32) (·.exitCode) (fun a r => { r with exitCode := a }),
     .defaulted "term_signal" (.optional .signed32) (·.termSignal)
       (fun a r => { r with termSignal := a })]
  mayStopEarly := false

def correlation : RecordForm Audit.Correlation where
  title := "struct CorrelationIds"
  blank := default
  fields :=
    [.mandatory "request_id" .string (·.requestId) (fun a c => { c with requestId := a }),
     .mandatory "run_id" .string (·.runId) (fun a c => { c with runId := a }),
     .defaulted "tracee_pid" (.optional .signed32) (·.pid) (fun a c => { c with pid := a })]
  mayStopEarly := false

def severity : Codec Audit.Severity := .names Audit.Severity.table

def eventType : Codec Audit.EventType := .names Audit.EventType.table

end Footprint.Forms
