import Footprint.Machine.Tracee

/-!
# A simulated kernel

Answers the calls of a tracer from a machine with at most one process and a clock. The clock moves on
by a millisecond whenever the tracer looks for a status and there is none, and by nothing else.
-/

namespace Footprint.Machine

open Kernel (SignalInfo Rseq)

/-- The machine that a tracer works on. -/
structure World where
  process : Option Tracee
  clock : Duration
  -- When the caller gives the call up.
  cancelAt : Option Duration
  -- The random number that is drawn next.
  drawn : Addr
  -- How many times in a row there was no status.
  pauses : Nat

namespace World

/-- A machine without processes, whose caller does not give up. -/
def idle : World := ⟨none, ⟨0⟩, none, 0, 0⟩

instance : Inhabited World := ⟨idle⟩

/-- The number of the process, as long as there is one. -/
def onlyPid : Pid := 1

/-- How long the tracer pauses when there is no status. -/
def pause : Duration := .ofMillis 1

/-- How many steps a process runs in a pause after a number of pauses in a row. One that did not stop
in a dozen of them will hardly ever do, so it is not run as far any longer. -/
def stepsInPause (pauses : Nat) : Nat :=
  if pauses < 12 then 1000000 else 1000

/-- How many steps that only count a process runs in a pause. -/
def countsInPause : Nat := 1000000

/-- How many steps of either kind a process runs while the tracer waits for it to stop: so many that
one which has not stopped then is taken for one that never does. -/
def stepsInWait : Nat := 1000000000000

def isCancelled (w : World) : Bool :=
  match w.cancelAt with
  | some moment => moment.nanos ≤ w.clock.nanos
  | none => false

def find? (w : World) (pid : Pid) : Option Tracee :=
  w.process.filter (·.pid = pid)

def findStopped (w : World) (pid : Pid) : Except Errno Tracee :=
  match w.find? pid with
  | some p => if p.isStopped then .ok p else .error .noProcess
  | none => .error .noProcess

def withProcess (w : World) (p : Tracee) : World :=
  { w with process := some p }

/-- The number that is no process and that waiting does not know either. -/
def unknownPid : Pid := -2147483648

/-- The answer to waiting for a process that does not exist. -/
def absentChild (pid : Pid) : Errno :=
  if pid = unknownPid then .noProcess else .noChild

/-- Lets the process run for some steps and collects its status, if it comes to have one. -/
def look (w : World) (pid : Pid) (steps counts : Nat) : Except Errno WaitStatus × World :=
  match w.find? pid with
  | some p =>
    match (p.run steps counts).collect with
    | (some status, process) => (.ok status, { w with process, pauses := 0 })
    | (none, process) =>
      (.ok .stillAlive,
        { w with process, pauses := w.pauses + 1, clock := ⟨w.clock.nanos + pause.nanos⟩ })
  | none => (.error (absentChild pid), w)

def answer : (c : Kernel.Call) → World → Kernel.Answer c × World
  | .clock, w => (w.clock, w)
  | .cancelled, w => (w.isCancelled, w)
  | .draw, w => (w.drawn, w)
  | .openReport, w => (.ok 3, w)
  | .fork plan, w => (.ok onlyPid, w.withProcess (.fork onlyPid plan))
  | .readReport pid, w => (((w.find? pid).map (·.report)).getD [], w)
  | .readRegisters pid, w => ((w.findStopped pid).map (·.state.registers), w)
  | .writeRegisters pid registers, w =>
    match w.findStopped pid with
    | .ok p => (.ok (), w.withProcess { p with state := p.state.withRegisters registers })
    | .error errno => (.error errno, w)
  | .readSignal pid, w =>
    match w.find? pid with
    | some p =>
      match p.activity with
      | .stopped info _ => (.ok info, w)
      | _ => (.error .noProcess, w)
    | none => (.error .noProcess, w)
  | .traceOptions pid, w => ((w.findStopped pid).map fun _ => (), w)
  | .resume pid how, w =>
    match w.findStopped pid with
    | .ok p => (.ok (), w.withProcess (p.resume how))
    | .error errno => (.error errno, w)
  | .readRseq pid, w => ((w.findStopped pid).map (·.rseq), w)
  | .readMaps pid, w =>
    match w.find? pid with
    | some p => (.ok p.state.memory.listing, w)
    | none => (.error .noEntry, w)
  | .poll pid, w => w.look pid (stepsInPause w.pauses) countsInPause
  | .wait pid, w => w.look pid stepsInWait stepsInWait
  | .kill pid, w =>
    match w.find? pid with
    | some p => (.ok (), w.withProcess p.kill)
    | none => (.error .noProcess, w)

def perform {α : Type} (program : Kernel.Program α) (w : World) : α × World :=
  program.run answer w

end World

end Footprint.Machine
