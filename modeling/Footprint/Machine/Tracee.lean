import Footprint.Kernel.Call
import Footprint.Kernel.SystemCall
import Footprint.Machine.Execute

/-!
# Traced processes

A traced process on the machine: how it comes to life by its setup, how it runs until something stops
it, and the system calls that it makes. A process that loops in place without changing anything is
left alone until the next time it is looked at, and one that only counts there is moved to the end of
its count.
-/

namespace Footprint.Machine

open Kernel (Resumption SignalInfo Rseq)

/-- What a process is doing. -/
inductive Activity where
  | running (how : Resumption)
  -- Stopped; the status is there to be collected once.
  | stopped (info : SignalInfo) (uncollected : Option WaitStatus)
  -- Ended; the status is there to be collected.
  | ended (status : WaitStatus)
deriving Repr

/-- A process. -/
structure Tracee where
  pid : Pid
  state : State
  activity : Activity
  rseq : Rseq
  -- The bytes of its setup report.
  report : List UInt8

namespace Tracee

/-- What the setup of a process has done so far. -/
structure Birth where
  memory : AddressSpace
  report : List UInt8
  -- The signals the process stopped by.
  stops : List Signal

namespace Birth

/-- A process that has done nothing yet, nothing being mapped where it may look. -/
def start : Birth := ⟨.empty, [], []⟩

def answer : (c : Setup.Call) → Birth → Setup.Answer c × Birth
  | .closeRange _, b => (.ok (), b)
  | .close _, b => ((), b)
  | .dieWithParent, b => (.ok (), b)
  | .traceMe, b => (.ok (), b)
  | .map start len perms, b =>
    match b.memory.map start len perms with
    | .ok (mapped, memory) => (.ok mapped, { b with memory })
    | .error errno => (.error errno, b)
  | .unmap start len, b =>
    match b.memory.unmap start len with
    | .ok memory => ((), { b with memory })
    | .error _ => ((), b)
  | .copy start image, b => ((), { b with memory := b.memory.setBytes start image })
  | .protect start len perms, b =>
    let (outcome, memory) := b.memory.protect start len perms
    (outcome, { b with memory })
  | .report report, b => ((), { b with report := b.report ++ report.encode })
  | .stop, b => ((), { b with stops := b.stops ++ [.stop] })

def run (plan : Setup.Plan) : UInt32 × Birth :=
  (Setup.program plan).run answer start

end Birth

/-- The registers of a process that has not been primed. -/
def freshRegisters : Registers :=
  { (default : Registers) with cs := 0x33, ss := 0x2b, eflags := Registers.primedFlags }

/-- The restartable-sequence area that every new process has. -/
def freshRseq : Rseq where
  pointer := 0x7ffff7d9a8a0
  size := 32
  signature := 0x53053053

/-- A new process at the end of its setup: stopped for its tracer, or ended by the step that failed.
-/
def fork (pid : Pid) (plan : Setup.Plan) : Tracee :=
  let (exitCode, birth) := Birth.run plan
  { pid, state := ⟨freshRegisters, birth.memory⟩, rseq := freshRseq, report := birth.report,
    activity := match birth.stops with
      | signal :: _ => .stopped ⟨0, 0⟩ (some (.stopped pid signal))
      | [] => .ended (.exited pid exitCode.toNat) }

def stopBy (p : Tracee) (signal : Signal) (info : SignalInfo) : Tracee :=
  { p with activity := .stopped info (some (.stopped p.pid signal)) }

/-- Carries out a system call on memory and restartable sequences. -/
def carryOut (p : Tracee) (number first second third : UInt64) :
    Except Errno UInt64 × Tracee :=
  let memory := p.state.memory
  let withMemory (memory : AddressSpace) : Tracee := { p with state := { p.state with memory } }
  if number = Kernel.SystemCall.map then
    match memory.map first second (.ofBits third) with
    | .ok (mapped, memory) => (.ok mapped, withMemory memory)
    | .error errno => (.error errno, p)
  else if number = Kernel.SystemCall.protect then
    let (outcome, memory) := memory.protect first second (.ofBits third)
    (outcome.map fun _ => 0, withMemory memory)
  else if number = Kernel.SystemCall.unmap then
    match memory.unmap first second with
    | .ok memory => (.ok 0, withMemory memory)
    | .error errno => (.error errno, p)
  else if number = Kernel.SystemCall.rseq then
    if p.rseq.isRegistered ∧ first = p.rseq.pointer ∧ third = Kernel.SystemCall.unregister then
      (.ok 0, { p with rseq := { p.rseq with pointer := 0 } })
    else (.error .invalidArgument, p)
  else (.error .notImplemented, p)

/-- The process ends itself; of its exit code only the lowest byte is told. -/
def exit (p : Tracee) (code : UInt64) : Tracee :=
  { p with activity := .ended (.exited p.pid (code.toNat % 256)) }

/-- The system call that the registers ask for. The processor itself keeps the return address and the
flags in two registers. -/
def systemCall (p : Tracee) : Tracee :=
  let r := p.state.registers
  if r.rax ∈ Kernel.SystemCall.exits then
    p.exit r.rdi
  else
    let (outcome, p) := p.carryOut r.rax r.rdi r.rsi r.rdx
    let returned :=
      { r with rax := Kernel.SystemCall.returned outcome, rcx := r.rip, r11 := r.eflags,
               origRax := r.rax }
    { p with state := p.state.withRegisters returned }

/-- The process stopped at a system call that it has not made yet. -/
def stopAtSystemCall (p : Tracee) : Tracee :=
  let r := p.state.registers
  let entered :=
    { r with rax := Kernel.SystemCall.returned (.error .notImplemented), rcx := r.rip,
             r11 := r.eflags, origRax := r.rax }
  { p with state := p.state.withRegisters entered,
           activity := .stopped ⟨0, 0⟩ (some (.systemCall p.pid)) }

/-- What the steps after one that stayed in place are known to do. -/
inductive Stay where
  -- The same for ever, which is nothing.
  | idle
  -- Some of them count `rcx` down and do nothing else.
  | counting (steps : Nat)

/-- What at most `most` further steps do after a step that stayed in place. Of a count the last step
is not among them, since that one goes on. -/
def stay (before after : Registers) (most : Nat) : Stay :=
  if after = before then .idle
  else if after = { before with rcx := before.rcx - 1 } then
    .counting (min most (after.rcx.toNat - 1))
  else .counting 0

/-- The registers after some steps that do nothing but count. -/
def counted (r : Registers) (steps : Nat) : Registers :=
  { r with rcx := r.rcx - UInt64.ofNat steps }

/-- Runs a process for a number of steps, unless it stops or loops in place. Steps that only count are
taken from a number of their own and end the run when that is used up. -/
def run : Nat → Nat → Tracee → Tracee
  | 0, _, p => p
  | steps + 1, counts, p =>
    match p.activity with
    | .running how =>
      match p.state.step with
      | .running s =>
        if s.registers.rip = p.state.registers.rip then
          match stay p.state.registers s.registers counts with
          | .idle => p
          | .counting skipped =>
            let p := { p with state := s.withRegisters (counted s.registers skipped) }
            if counts ≤ skipped then p else run steps (counts - skipped) p
        else run steps counts { p with state := s }
      | .faulted trouble => p.stopBy trouble.signal ⟨trouble.code, trouble.addr⟩
      | .trapped s =>
        { p with state := s }.stopBy .trap ⟨Stop.codeProcessor, 0⟩
      | .called s =>
        match how with
        | .untilSystemCall => { p with state := s }.stopAtSystemCall
        | .freely => run steps counts { p with state := s }.systemCall
    | _ => p

def resume (p : Tracee) (how : Resumption) : Tracee :=
  { p with activity := .running how }

def isStopped (p : Tracee) : Bool :=
  match p.activity with
  | .stopped .. => true
  | _ => false

/-- Kills a process; one that has ended stays as it is. -/
def kill (p : Tracee) : Tracee :=
  match p.activity with
  | .ended _ => p
  | _ => { p with activity := .ended (.signaled p.pid .kill false) }

/-- Collects the status of a process: the status, if there is one, and the process, unless that was
its end. -/
def collect (p : Tracee) : Option WaitStatus × Option Tracee :=
  match p.activity with
  | .running _ | .stopped _ none => (none, some p)
  | .stopped info (some status) => (some status, some { p with activity := .stopped info none })
  | .ended status => (some status, none)

end Tracee

end Footprint.Machine
