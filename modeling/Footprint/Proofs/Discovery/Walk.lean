import Footprint.Discovery

/-!
# Walks: a process that touches one address after the other

A walk is a launched process whose block touches given addresses in order and then runs into its
sentinel. An access that is denied stops the process, and is tried again when the process is resumed
with the registers it stopped with; resumed with any others, it goes astray. Memory starts out with
the guarded region protected and nothing else mapped, and changes only by the system calls that the
process is made to run.

Everything else is left open: when time passes, how long the block runs between two stops, which
registers it has, and what system calls leave in the registers they may clobber.
-/

namespace Footprint

open Kernel

/-- One access of a block, with the registers that the block makes it with. -/
structure Touch where
  addr : Addr
  registers : Registers

/-- A process that walks, and what nobody but its surroundings decides. -/
structure Walk where
  pid : Pid
  layout : Layout
  -- The readings of the clock, one after the other.
  clock : Nat → Duration
  -- How often the block is found running before each of its stops.
  quiet : Nat → Nat
  -- What a system call leaves in the registers besides its result.
  scratch : Registers → Registers
  -- The registers at the sentinel.
  last : Registers
  -- What is told about the signal of a breakpoint.
  trap : SignalInfo

/-- The memory of a process besides its code. -/
structure Memory where
  -- What was mapped for reading and writing.
  mapped : List Region
  -- Whether the guarded region is no longer protected.
  opened : Bool

/-- What a process is doing. -/
inductive Activity where
  -- It stopped, and that was reported.
  | stopped (info : SignalInfo)
  -- It runs, and will be found running a few times more before it is found stopped.
  | running (quiet : Nat) (status : WaitStatus) (info : SignalInfo)
  -- It was killed, and its end was not yet reported.
  | killed
  | collected
  -- It was resumed somewhere else than it stopped.
  | astray

/-- The state of a process that walks. -/
structure Process where
  -- What the block has still to touch.
  ahead : List Touch
  registers : Registers
  -- The registers that the block stopped with.
  home : Registers
  memory : Memory
  activity : Activity
  -- How often the block has stopped.
  stops : Nat
  -- How often the clock was read.
  readings : Nat

namespace Walk

/-- Address of the stub, and where the program counter stands when the sentinel was executed. -/
def stub (w : Walk) : Addr :=
  w.layout.codeLocation + w.layout.codeLen + 1

def permits (w : Walk) (m : Memory) (a : Addr) : Bool :=
  m.mapped.any (·.contains a) || (m.opened && w.layout.guardRegion.contains a)

def denialCode (w : Walk) (a : Addr) : Int :=
  if w.layout.guardRegion.contains a then Stop.codeForbidden else Stop.codeUnmapped

/-- The process with its block about to stop. -/
def stopping (w : Walk) (p : Process) (ahead : List Touch) (registers : Registers) (signal : Signal)
    (info : SignalInfo) : Process :=
  { p with
    ahead, registers, home := registers
    activity := .running (w.quiet p.stops) (.stopped w.pid signal) info
    stops := p.stops + 1 }

/-- The block goes on until an access is denied or it runs into its sentinel. -/
def goOn (w : Walk) : List Touch → Process → Process
  | [], p => w.stopping p [] { w.last with rip := w.stub } .trap w.trap
  | x :: rest, p =>
    if w.permits p.memory x.addr then w.goOn rest p
    else w.stopping p (x :: rest) x.registers .segv ⟨w.denialCode x.addr, x.addr⟩

/-- Whether a range lies on memory that is there already. -/
def isTaken (w : Walk) (m : Memory) (range : Region) : Bool :=
  (w.layout.guardRegion :: m.mapped).any (·.overlaps range)

/-- The memory after the system call that the registers hold, and what the call answers. -/
def systemCall (w : Walk) (m : Memory) (r : Registers) : Except Errno UInt64 × Memory :=
  let range : Region := ⟨r.rdi, r.rsi⟩
  if r.rdx ≠ Perms.readWrite.bits then
    (.error .invalidArgument, m)
  else if r.rax = SystemCall.map ∧ r.r10 = SystemCall.exactMapping ∧ r.r8 = SystemCall.noFile then
    if w.isTaken m range then (.error .alreadyExists, m)
    else (.ok r.rdi, { m with mapped := m.mapped ++ [range] })
  else if r.rax = SystemCall.protect then
    if range = w.layout.guardRegion then (.ok 0, { m with opened := true })
    else (.error .noMemory, m)
  else
    (.error .notImplemented, m)

/-- The process after the system call in its registers ran through the stub. -/
def runStub (w : Walk) (p : Process) : Process :=
  let (answer, memory) := w.systemCall p.memory p.registers
  { p with
    memory
    registers := { w.scratch p.registers with
      rax := SystemCall.returned answer, rip := p.registers.rip + stubLen }
    activity := .running 0 (.stopped w.pid .trap) w.trap }

def resume (w : Walk) (p : Process) : Resumption → Process
  | .untilSystemCall =>
    if p.registers = p.home then w.goOn p.ahead p else { p with activity := .astray }
  | .freely =>
    if p.registers.rip = w.stub then w.runStub p else { p with activity := .astray }

/-- A request about the process, which must be stopped. -/
def ask {α : Type} (w : Walk) (pid : Pid) (p : Process) (request : SignalInfo → α × Process) :
    Except Errno α × Process :=
  match p.activity with
  | .stopped info =>
    if pid = w.pid then (.ok (request info).1, (request info).2) else (.error .noProcess, p)
  | _ => (.error .noProcess, p)

def poll (p : Process) : Except Errno WaitStatus × Process :=
  match p.activity with
  | .running (quiet + 1) status info =>
    (.ok .stillAlive, { p with activity := .running quiet status info })
  | .running 0 status info => (.ok status, { p with activity := .stopped info })
  | _ => (.ok .stillAlive, p)

def wait (w : Walk) (p : Process) : Except Errno WaitStatus × Process :=
  match p.activity with
  | .running _ status info => (.ok status, { p with activity := .stopped info })
  | .killed => (.ok (.signaled w.pid .kill false), { p with activity := .collected })
  | _ => (.error .noChild, p)

/-- Answers the calls of a tracer. The caller never gives up; what only brings a process up is not
answered any longer. -/
def answer (w : Walk) : (c : Call) → Process → Answer c × Process
  | .clock, p => (w.clock p.readings, { p with readings := p.readings + 1 })
  | .cancelled, p => (false, p)
  | .readRegisters pid, p => w.ask pid p fun _ => (p.registers, p)
  | .writeRegisters pid registers, p => w.ask pid p fun _ => ((), { p with registers })
  | .readSignal pid, p => w.ask pid p fun info => (info, p)
  | .resume pid how, p => w.ask pid p fun _ => ((), w.resume p how)
  | .poll pid, p => if pid = w.pid then poll p else (.error .noChild, p)
  | .wait pid, p => if pid = w.pid then w.wait p else (.error .noChild, p)
  | .kill pid, p =>
    if pid = w.pid then (.ok (), { p with activity := .killed }) else (.error .noProcess, p)
  | .draw, p => ((0 : Addr), p)
  | .openReport, p => (.error .notPermitted, p)
  | .fork _, p => (.error .notPermitted, p)
  | .readReport _, p => ([], p)
  | .traceOptions _, p => (.error .notPermitted, p)
  | .readRseq _, p => (.error .notPermitted, p)
  | .readMaps _, p => (.error .notPermitted, p)

def fresh (w : Walk) (touches : List Touch) : Process where
  ahead := touches
  registers := w.last
  home := w.last
  memory := ⟨[], false⟩
  activity := .astray
  stops := 0
  readings := 0

def start (w : Walk) (touches : List Touch) : Process :=
  w.goOn touches (w.fresh touches)

/-- What a tracing program does against a walk. -/
def runs {α : Type} (w : Walk) (program : Tracing α) (p : Process) : Except Halt α × Process :=
  Dialogue.run w.answer program.run p

end Walk

end Footprint
