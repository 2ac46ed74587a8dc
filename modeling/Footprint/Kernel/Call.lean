import Footprint.Registers
import Footprint.Setup.Program
import Footprint.Stop
import Footprint.Duration

/-!
# Calls of a tracer

What a tracer asks of the kernel and of its surroundings while it runs a block in another process:
the time, whether the caller gave up, and the requests about the process. What answers them is left
open.
-/

namespace Footprint.Kernel

/-- How a stopped process is resumed. -/
inductive Resumption where
  -- To stop at the next system call.
  | untilSystemCall
  -- To run through system calls.
  | freely
deriving DecidableEq, Repr, Inhabited

/-- What the kernel tells about the signal that stopped a process. -/
structure SignalInfo where
  code : Int
  addr : Addr
deriving DecidableEq, Repr, Inhabited

/-- The restartable-sequence area of a thread, which the kernel writes to. -/
structure Rseq where
  -- Address of the area; zero if there is none.
  pointer : Addr
  size : UInt32
  signature : UInt32
deriving DecidableEq, Repr, Inhabited

namespace Rseq

def isRegistered (r : Rseq) : Bool :=
  r.pointer != 0

end Rseq

/-- What a tracer asks. -/
inductive Call where
  -- The time that has passed.
  | clock
  -- Whether the caller gave the call up.
  | cancelled
  -- A random number.
  | draw
  -- A new channel for a setup report, named by the descriptor that it is written to.
  | openReport
  -- A new process that runs the setup.
  | fork (plan : Setup.Plan)
  -- The bytes of the setup report.
  | readReport (pid : Pid)
  | readRegisters (pid : Pid)
  | writeRegisters (pid : Pid) (registers : Registers)
  | readSignal (pid : Pid)
  -- To kill the process when the tracer ends, and to mark stops at system calls.
  | traceOptions (pid : Pid)
  | resume (pid : Pid) (how : Resumption)
  | readRseq (pid : Pid)
  -- The listing of the process's mappings.
  | readMaps (pid : Pid)
  -- A status of the process, if there is a new one.
  | poll (pid : Pid)
  -- The next status of the process.
  | wait (pid : Pid)
  | kill (pid : Pid)
deriving DecidableEq, Repr

def Answer : Call → Type
  | .clock => Duration
  | .cancelled => Bool
  | .draw => Addr
  | .openReport => Except Errno Int32
  | .fork _ => Except Errno Pid
  | .readReport _ => List UInt8
  | .readRegisters _ => Except Errno Registers
  | .writeRegisters .. => Except Errno Unit
  | .readSignal _ => Except Errno SignalInfo
  | .traceOptions _ => Except Errno Unit
  | .resume .. => Except Errno Unit
  | .readRseq _ => Except Errno Rseq
  | .readMaps _ => Except Errno String
  | .poll _ => Except Errno WaitStatus
  | .wait _ => Except Errno WaitStatus
  | .kill _ => Except Errno Unit

/-- A program of a tracer. -/
abbrev Program := Dialogue Call Answer

def ask (c : Call) : Program (Answer c) :=
  Dialogue.call c

end Footprint.Kernel
