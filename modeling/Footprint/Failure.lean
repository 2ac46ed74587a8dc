import Footprint.Config
import Footprint.Files
import Footprint.Grant
import Footprint.Json.Problem
import Footprint.Setup.Report
import Footprint.Stop
import Footprint.Validation

/-!
# Failures

Why a discovery has no result. A failure is a cause; its wording is a function of the cause, and its
kind a short label that metrics and audit events go by. Where a failure is recorded from outside,
the cause is the text that was stated for it.
-/

namespace Footprint

/-- A request about another process, as failures name it. -/
inductive Request where
  | openReport
  | fork
  | readRegisters
  | writeRegisters
  | readSignal
  | traceOptions
  | resumeUntilSystemCall
  | resumeFreely
  | readRseq
  | awaitStop
  | awaitEnd
  | kill
deriving DecidableEq, Repr

namespace Request

def label : Request → String
  | openReport => "pipe(report)"
  | fork => "fork(sandbox)"
  | readRegisters => "ptrace(GETREGS)"
  | writeRegisters => "ptrace(SETREGS)"
  | readSignal => "ptrace(GETSIGINFO)"
  | traceOptions => "ptrace(SETOPTIONS)"
  | resumeUntilSystemCall => "ptrace(SYSCALL)"
  | resumeFreely => "ptrace(CONT)"
  | readRseq => "ptrace(GET_RSEQ_CONFIGURATION)"
  | awaitStop => "waitpid(tracee)"
  | awaitEnd => "waitpid(teardown)"
  | kill => "kill(tracee)"

end Request

/-- Why a sandbox could not be set up, traced or taken down. -/
inductive SetupCause where
  -- The kernel refused a request.
  | refused (request : Request) (errno : Errno)
  -- The listing of the process's mappings could not be read.
  | mapsUnreadable (pid : Pid) (errno : Errno)
  -- The process ended without a setup report.
  | reportMissing
  -- The process is already gone.
  | goneAlready
  -- The code would lie on the guarded region.
  | overlap (code guard : Addr)
  -- A setup step failed inside the process.
  | stepFailed (stage : UInt32) (errno : Errno)
  -- The process did not stop for its tracer.
  | notStopped (status : WaitStatus)
  -- The code is not where it should be.
  | misplaced (actual expected : Addr)
  -- The restartable-sequence area could not be given up.
  | rseqKept (errno : Errno)
  -- An inherited range could not be unmapped.
  | gapKept (gap : Region) (errno : Errno)
  -- An injected system call did not end in the stub's breakpoint.
  | stubSilent (number : UInt64) (status : WaitStatus)
  -- An injected system call ended at a breakpoint other than the stub's.
  | stubStray (number : UInt64) (pc expected : Addr)
  -- The block completed, but its process could not be taken down.
  | teardownFailed (cause : SetupCause)
  | stated (text : String)
deriving DecidableEq, Repr

/-- The wording that introduces a setup failure. -/
def SetupCause.heading : String := "Sandbox setup error: "

def SetupCause.text : SetupCause → String
  | .refused request errno => request.label ++ ": " ++ errno.text
  | .mapsUnreadable pid errno => s!"/proc/{pid}/maps: " ++ errno.fileText
  | .reportMissing => "read(setup report): failed to fill whole buffer"
  | .goneAlready => "tracee already torn down"
  | .overlap code guard =>
    "code region " ++ Addr.hex code ++ " overlaps the guarded region " ++ Addr.hex guard
  | .stepFailed stage errno =>
    "isolated context failed at " ++ Setup.Stage.labelOf stage ++ ": " ++ errno.text
  | .notStopped status => "isolated context did not stop for tracing: " ++ status.text
  | .misplaced actual expected =>
    "code region mapped at " ++ Addr.hex actual ++ ", expected " ++ Addr.hex expected
  | .rseqKept errno => "rseq unregister in isolated context: " ++ errno.text
  | .gapKept gap errno =>
    "munmap(" ++ Addr.hex gap.start ++ ", " ++ Addr.hex gap.len ++ ") in isolated context: "
      ++ errno.text
  | .stubSilent number status => s!"syscall {number} stub did not trap: " ++ status.text
  | .stubStray number pc expected =>
    s!"syscall {number} stub trapped at " ++ Addr.hex pc ++ ", expected " ++ Addr.hex expected
  | .teardownFailed cause => "teardown failed: " ++ heading ++ cause.text
  | .stated text => text

/-- Why an access is not granted. -/
inductive AccessCause where
  | outsideWindow
  | codeRegion
  -- As many blocks as may be granted are granted.
  | grantCap (limit : UInt64)
  -- A mapping that is not the sandbox's own denies the access.
  | foreignMapping
  | kernelRefused (errno : Errno)
  | stated (text : String)
deriving DecidableEq, Repr

namespace AccessCause

def text : AccessCause → String
  | outsideWindow => "outside plausible-access window"
  | codeRegion => "access to the code region"
  | grantCap limit => s!"grant cap of {limit} blocks reached"
  | foreignMapping => "protected mapping outside the sandbox's regions"
  | kernelRefused errno => "kernel refused grant: " ++ errno.text
  | stated text => text

end AccessCause

/-- Why the execution of a block went wrong. -/
inductive FaultCause where
  -- A stop arrived while no block was running.
  | strayStop (stop : Stop) (phase : Phase)
  -- A breakpoint other than the sentinel.
  | strayBreakpoint
  | systemCall
  | signal (signal : Signal) (code : Int)
  | exited (code : Int)
  | killed (signal : Signal)
  -- The block is accessible, but the access is denied all the same.
  | repeatedFault (block : Addr)
  -- A status that is no stop and no end.
  | unexpectedStatus (status : WaitStatus)
  | stated (text : String)
deriving DecidableEq, Repr

namespace FaultCause

def text : FaultCause → String
  | strayStop stop phase => "stop " ++ stop.text ++ " observed in state " ++ phase.text
  | strayBreakpoint => "breakpoint outside the completion sentinel"
  | systemCall => "system call attempted by sandboxed code"
  | signal name code => Stop.describeSignal name code
  | exited code => s!"isolated context exited with status {code}"
  | killed name => "isolated context killed by " ++ name.name
  | repeatedFault block => "repeated fault on granted block " ++ Addr.hex block
  | unexpectedStatus status => "unexpected tracee state " ++ status.text
  | stated text => text

end FaultCause

/-- Why code is no block. -/
inductive CodeCause where
  | empty
  | tooLong (len : Nat) (limit : UInt64)
  | stated (text : String)
deriving DecidableEq, Repr

namespace CodeCause

def text : CodeCause → String
  | empty => "empty basic block"
  | tooLong len limit => s!"basic block is {len} bytes, limit is {limit}"
  | stated text => text

end CodeCause

/-- Why a configuration cannot be used. -/
inductive ConfigCause where
  | unparsable (problem : Json.Problem)
  | unreadable (path : String) (cause : FileCause)
  -- The findings of validation.
  | invalid (faults : List ConfigFault)
  | auditDirectory (cause : FileCause)
  | auditFile (cause : FileCause)
  | stated (text : String)
deriving DecidableEq, Repr

namespace ConfigCause

def text : ConfigCause → String
  | unparsable problem => "Failed to parse config JSON: " ++ problem.message
  | unreadable path cause => "Failed to read config file " ++ path ++ ": " ++ cause.text
  | invalid faults => "Config validation failed:\n" ++ "\n".intercalate (faults.map (·.text))
  | auditDirectory cause => "Failed to create audit log directory: " ++ cause.text
  | auditFile cause => "Failed to open audit log: " ++ cause.text
  | stated text => text

end ConfigCause

/-- Why a discovery has no result. -/
inductive Failure where
  | setup (cause : SetupCause)
  | access (addr : Addr) (cause : AccessCause)
  | fault (pc : Option Addr) (cause : FaultCause)
  | timeout (limit : TimeLimit) (iterations : UInt32) (elapsed : Duration)
  | cancelled
  | code (cause : CodeCause)
  | config (cause : ConfigCause)
deriving DecidableEq, Repr

namespace Failure

/-- The kinds of failures. -/
inductive Kind where
  | sandboxSetup
  | config
  | unresolvableAccess
  | executionFault
  | timeout
  | cancelled
  | invalidCode
deriving DecidableEq, Repr

namespace Kind

/-- The kinds in the order in which metrics list them. -/
def all : List Kind :=
  [sandboxSetup, config, unresolvableAccess, executionFault, timeout, cancelled, invalidCode]

/-- The label of a kind in metrics and audit events. -/
def label : Kind → String
  | sandboxSetup => "sandbox_setup"
  | config => "config"
  | unresolvableAccess => "unresolvable_access"
  | executionFault => "execution_fault"
  | timeout => "timeout"
  | cancelled => "cancelled"
  | invalidCode => "invalid_code"

end Kind

def kind : Failure → Kind
  | setup _ => .sandboxSetup
  | access .. => .unresolvableAccess
  | fault .. => .executionFault
  | timeout .. => .timeout
  | cancelled => .cancelled
  | code _ => .invalidCode
  | config _ => .config

def message : Failure → String
  | setup cause => SetupCause.heading ++ cause.text
  | access addr cause => "Unresolvable access at " ++ Addr.hex addr ++ ": " ++ cause.text
  | fault pc cause =>
    let place := match pc with
      | some pc => " at pc " ++ Addr.hex pc
      | none => ""
    "Execution fault" ++ place ++ ": " ++ cause.text
  | timeout limit iterations elapsed =>
    s!"Timed out on {limit.text} after {iterations} fault iterations ({elapsed.text})"
  | cancelled => "Discovery cancelled"
  | code cause => "Invalid code: " ++ cause.text
  | config cause => "Configuration error: " ++ cause.text

end Failure

end Footprint
