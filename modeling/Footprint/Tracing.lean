import Footprint.Failure
import Footprint.Kernel.Call
import Footprint.Maps

/-!
# Tracing requests

The requests of a tracer, each with the failure that its refusal means. A request may also be asked
again when a signal interrupted it; how often is bounded by the tracer's patience, so that every
program of a tracer ends.
-/

namespace Footprint

/-- Why a program of a tracer has no result. -/
inductive Halt where
  | failed (failure : Failure)
  -- Address arithmetic left its range.
  | arithmetic (error : ArithError)
  -- The tracer's patience was used up.
  | impatient
deriving DecidableEq, Repr

/-- A program of a tracer that may halt without a result. -/
abbrev Tracing := ExceptT Halt Kernel.Program

namespace Tracing

variable {α : Type}

def fail (failure : Failure) : Tracing α :=
  throw (.failed failure)

def failSetup (cause : SetupCause) : Tracing α :=
  fail (.setup cause)

def ofChecked (value : Checked α) : Tracing α :=
  match value with
  | .ok a => pure a
  | .error e => throw (.arithmetic e)

/-- A request whose refusal is a failure. -/
def attempt (request : Request) (program : Kernel.Program (Except Errno α)) : Tracing α := do
  match ← program with
  | .ok a => return a
  | .error errno => failSetup (.refused request errno)

def readRegisters (pid : Pid) : Tracing Registers :=
  attempt .readRegisters (Kernel.ask (.readRegisters pid))

def writeRegisters (pid : Pid) (registers : Registers) : Tracing Unit :=
  attempt .writeRegisters (Kernel.ask (.writeRegisters pid registers))

/-- What is known about the signal that stopped a process. -/
def readSignal (pid : Pid) : Tracing Kernel.SignalInfo :=
  attempt .readSignal (Kernel.ask (.readSignal pid))

def setOptions (pid : Pid) : Tracing Unit :=
  attempt .traceOptions (Kernel.ask (.traceOptions pid))

/-- The request that a way of resuming is. -/
def resumptionRequest : Kernel.Resumption → Request
  | .untilSystemCall => .resumeUntilSystemCall
  | .freely => .resumeFreely

/-- Resumes a stopped process without the signal that stopped it. -/
def resume (pid : Pid) (how : Kernel.Resumption) : Tracing Unit :=
  attempt (resumptionRequest how) (Kernel.ask (.resume pid how))

/-- The failure numbers by which a kernel says that it cannot report restartable sequences. -/
def rseqUnknown : List Errno :=
  [.inputOutput, .invalidArgument]

/-- The restartable-sequence area of a process, unless the kernel cannot report it. -/
def readRseq (pid : Pid) : Tracing (Option Kernel.Rseq) := do
  let answer : Except Errno Kernel.Rseq ← Kernel.ask (.readRseq pid)
  match answer with
  | .ok rseq => return some rseq
  | .error errno =>
    if errno ∈ rseqUnknown then return none
    else failSetup (.refused .readRseq errno)

def readMaps (pid : Pid) : Tracing (List MapEntry) := do
  let answer : Except Errno String ← Kernel.ask (.readMaps pid)
  match answer with
  | .ok text => return Maps.entries text
  | .error errno => failSetup (.mapsUnreadable pid errno)

def readReport (pid : Pid) : Tracing Setup.Report := do
  let bytes : List UInt8 ← Kernel.ask (.readReport pid)
  if bytes.length < Setup.Report.len then
    failSetup .reportMissing
  else
    return Setup.Report.decode bytes

/-- Asks again for as long as the answer is that a signal interrupted it. -/
def uninterrupted (program : Kernel.Program (Except Errno α)) :
    Nat → Tracing (Except Errno α)
  | 0 => throw .impatient
  | patience + 1 => do
    match ← program with
    | .error errno =>
      if errno = .interrupted then uninterrupted program patience else return .error errno
    | .ok a => return .ok a

/-- A wait whose refusal is a failure. -/
def awaiting (program : Kernel.Program (Except Errno α)) (patience : Nat) : Tracing α := do
  match ← uninterrupted program patience with
  | .ok a => return a
  | .error errno => failSetup (.refused .awaitStop errno)

def wait (pid : Pid) (patience : Nat) : Tracing WaitStatus :=
  awaiting (Kernel.ask (.wait pid)) patience

/-- The new status of a process, if there is one. -/
def poll (pid : Pid) (patience : Nat) : Tracing (Option WaitStatus) := do
  let status ← awaiting (Kernel.ask (.poll pid)) patience
  return if status = .stillAlive then none else some status

/-- What a status means for the block, reading registers and signal where the status alone does not
tell. -/
def classify (pid : Pid) : WaitStatus → Tracing Stop
  | .stopped _ signal => do
    let registers ← readRegisters pid
    let info ← readSignal pid
    return .ofSignal signal info.code info.addr registers.rip
  | .systemCall _ => do
    let registers ← readRegisters pid
    return .systemCall registers.rip
  | .exited _ code => return .exited code
  | .signaled _ signal _ => return .killed signal
  | status => fail (.fault none (.unexpectedStatus status))

end Tracing

end Footprint
