import Footprint.Kernel.SystemCall
import Footprint.Layout
import Footprint.Tracing

/-!
# Injected system calls

A stopped process is made to run single system calls through the stub behind its block. The registers
it stopped with are put back afterwards, so the block does not notice.
-/

namespace Footprint

/-- A way to run system calls in a process. -/
structure Injector where
  pid : Pid
  -- Address of the stub.
  stub : Addr
  -- How often an interrupted wait is repeated.
  patience : Nat
deriving DecidableEq, Repr, Inhabited

namespace Injector

open Kernel

/-- The registers of the process after the stub ran, which must have ended in its breakpoint. -/
def awaitStub (i : Injector) (number : UInt64) : Tracing Registers := do
  let status ← Tracing.wait i.pid i.patience
  match status with
  | .stopped _ .trap =>
    let after ← Tracing.readRegisters i.pid
    let expected ← Tracing.ofChecked (Addr.add i.stub stubLen)
    if after.rip = expected then
      return after
    else
      Tracing.failSetup (.stubStray number after.rip expected)
  | status => Tracing.failSetup (.stubSilent number status)

/-- Runs a system call in the process, which must be stopped. -/
def invoke (i : Injector) (number : UInt64) (args : Registers.Arguments) :
    Tracing (Except Errno UInt64) := do
  let saved ← Tracing.readRegisters i.pid
  Tracing.writeRegisters i.pid (saved.forSystemCall i.stub number args)
  Tracing.resume i.pid .freely
  let after ← i.awaitStub number
  Tracing.writeRegisters i.pid saved
  return SystemCall.outcome after.rax

def unmap (i : Injector) (start len : Addr) : Tracing (Except Errno UInt64) :=
  i.invoke SystemCall.unmap ⟨start, len, 0, 0, 0, 0⟩

/-- Maps fresh memory for reading and writing at exactly an address. A mapping that the kernel put
elsewhere is undone and counts as refused. -/
def mapExactly (i : Injector) (start len : Addr) : Tracing (Except Errno UInt64) := do
  let mapped ← i.invoke SystemCall.map
    ⟨start, len, Perms.readWrite.bits, SystemCall.exactMapping, SystemCall.noFile, 0⟩
  match mapped with
  | .ok address =>
    if address = start then
      return .ok address
    else
      let _ ← i.unmap address len
      return .error .alreadyExists
  | .error errno => return .error errno

def permitReadWrite (i : Injector) (start len : Addr) : Tracing (Except Errno UInt64) :=
  i.invoke SystemCall.protect ⟨start, len, Perms.readWrite.bits, 0, 0, 0⟩

/-- Takes the restartable-sequence area back, so that the kernel no longer writes to it. -/
def dropRseq (i : Injector) (rseq : Kernel.Rseq) : Tracing (Except Errno UInt64) :=
  i.invoke SystemCall.rseq
    ⟨rseq.pointer, rseq.size.toUInt64, SystemCall.unregister, rseq.signature.toUInt64, 0, 0⟩

end Injector

end Footprint
