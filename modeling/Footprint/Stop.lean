import Footprint.Address
import Footprint.Signal

/-!
# Stops of a traced process

What waiting for a traced process reports, and what a stop means for the block that runs in it. The
meaning of a signal stop follows from the signal, its code and the faulting address alone.
-/

namespace Footprint

/-- The number of a process. -/
abbrev Pid := Int

/-- What waiting for a process reported. -/
inductive WaitStatus where
  | exited (pid : Pid) (code : Int)
  | signaled (pid : Pid) (signal : Signal) (core : Bool)
  | stopped (pid : Pid) (signal : Signal)
  | traceEvent (pid : Pid) (signal : Signal) (event : Int)
  | systemCall (pid : Pid)
  | continued (pid : Pid)
  | stillAlive
deriving DecidableEq, Repr, Inhabited

namespace WaitStatus

def text : WaitStatus → String
  | exited pid code => s!"Exited(Pid({pid}), {code})"
  | signaled pid signal core => s!"Signaled(Pid({pid}), {signal.name}, {core})"
  | stopped pid signal => s!"Stopped(Pid({pid}), {signal.name})"
  | traceEvent pid signal event => s!"PtraceEvent(Pid({pid}), {signal.name}, {event})"
  | systemCall pid => s!"PtraceSyscall(Pid({pid}))"
  | continued pid => s!"Continued(Pid({pid}))"
  | stillAlive => "StillAlive"

/-- Whether the process is gone, and reaped by the wait that reported it. -/
def isTerminal : WaitStatus → Bool
  | exited .. | signaled .. => true
  | _ => false

end WaitStatus

/-- Why the memory unit denied an access. -/
inductive Denial where
  -- Nothing is mapped at the address.
  | unmapped
  -- Something is mapped there, but the access is not permitted.
  | forbidden
deriving DecidableEq, Repr, Inhabited

namespace Denial

def text : Denial → String
  | unmapped => "Unmapped"
  | forbidden => "Protected"

end Denial

/-- What a stop means for the block. -/
inductive Stop where
  -- An access to memory was denied.
  | access (addr : Addr) (denial : Denial) (pc : Addr)
  -- A breakpoint was executed; `pc` is behind it.
  | breakpoint (pc : Addr)
  -- A system call was about to be executed.
  | systemCall (pc : Addr)
  -- Any other signal arrived.
  | signal (signal : Signal) (code : Int) (pc : Addr)
  | exited (code : Int)
  | killed (signal : Signal)
deriving DecidableEq, Repr, Inhabited

namespace Stop

/-- The signal code of a fault with nothing mapped at the address. -/
def codeUnmapped : Int := 1

/-- The signal code of a fault on a mapping that does not permit the access. -/
def codeForbidden : Int := 2

/-- The signal code of a fault that the processor raised without a usable address. -/
def codeProcessor : Int := 0x80

def ofSignal (signal : Signal) (code : Int) (addr pc : Addr) : Stop :=
  match signal with
  | .segv =>
    if code = codeUnmapped then .access addr .unmapped pc
    else if code = codeForbidden then .access addr .forbidden pc
    else .signal signal code pc
  | .trap => .breakpoint pc
  | _ => .signal signal code pc

/-- The wording of a signal that is no denied access and no breakpoint. -/
def describeSignal (signal : Signal) (code : Int) : String :=
  match signal with
  | .illegal => "invalid or privileged instruction"
  | .bus => "bus error"
  | .floatingPoint => "arithmetic exception"
  | _ =>
    if signal = .segv ∧ code = codeProcessor then "general protection fault"
    else s!"unexpected {signal.name} (si_code {code})"

def text : Stop → String
  | access addr denial pc =>
    s!"AccessViolation \x7b addr: {addr}, kind: {denial.text}, pc: {pc} \x7d"
  | breakpoint pc => s!"Breakpoint \x7b pc: {pc} \x7d"
  | systemCall pc => s!"SyscallEntry \x7b pc: {pc} \x7d"
  | signal name code pc =>
    s!"Signal \x7b signal: {name.name}, si_code: {code}, pc: {pc} \x7d"
  | exited code => s!"Exited({code})"
  | killed name => s!"Killed({name.name})"

end Stop

end Footprint
