import Footprint.TouchedBlocks
import Footprint.Tracing

/-!
# Custody of a process

A tracer holds a process until its end has been collected, and may not signal it any longer then,
because its number may belong to another process by that time. Taking a process down kills it and
collects its end; once that is done, taking it down again does nothing.
-/

namespace Footprint

/-- Custody of a process. -/
structure Custody where
  -- The process, until its end was collected.
  pid : Option Pid
  -- The end that was collected elsewhere, until it has been reported.
  ended : Option TeardownReport
deriving DecidableEq, Repr, Inhabited

namespace Custody

def of (pid : Pid) : Custody := ⟨some pid, none⟩

/-- Custody of no process. -/
def vacant : Custody := ⟨none, none⟩

/-- Notes a status that was collected elsewhere, and says whether the process is gone by it. -/
def noteEnd (c : Custody) (status : WaitStatus) : Bool × Custody :=
  match c.pid with
  | some pid =>
    if status.isTerminal then
      (true, ⟨none, some ({ TeardownReport.nothing with pid := some pid }.withEnd status)⟩)
    else (false, c)
  | none => (false, c)

/-- Why a process could not be taken down. -/
inductive Obstacle where
  | refused (request : Request) (errno : Errno)
  -- The process kept reporting other things than its end.
  | endless
deriving DecidableEq, Repr

namespace Obstacle

/-- What an obstacle means for the tracer. -/
def halt : Obstacle → Halt
  | refused request errno => .failed (.setup (.refused request errno))
  | endless => .impatient

end Obstacle

/-- Collects the end of a killed process. Stops that were on their way when it was killed are passed
over; a process that somebody else collected leaves the report as it is. -/
def collect (pid : Pid) (report : TeardownReport) :
    Nat → Kernel.Program (Except Obstacle TeardownReport)
  | 0 => return .error .endless
  | patience + 1 => do
    let answer : Except Errno WaitStatus ← Kernel.ask (.wait pid)
    match answer with
    | .ok status =>
      if status.isTerminal then return .ok (report.withEnd status)
      else collect pid report patience
    | .error errno =>
      if errno = .interrupted then collect pid report patience
      else if errno = .noChild then return .ok report
      else return .error (.refused .awaitEnd errno)

def killAndCollect (pid : Pid) (patience : Nat) :
    Kernel.Program (Except Obstacle TeardownReport) := do
  let report := { TeardownReport.nothing with pid := some pid }
  let answer : Except Errno Unit ← Kernel.ask (.kill pid)
  match answer with
  | .ok () => collect pid { report with killSent := true } patience
  | .error errno =>
    if errno = .noProcess then collect pid report patience
    else return .error (.refused .kill errno)

/-- Takes the process down. On an obstacle custody is kept, so that it can be tried again. -/
def teardown (c : Custody) (patience : Nat) :
    Kernel.Program (Except Obstacle TeardownReport × Custody) := do
  match c.pid with
  | none => return (.ok (c.ended.getD .nothing), vacant)
  | some pid =>
    match ← killAndCollect pid patience with
    | .ok report => return (.ok report, { c with pid := none })
    | .error obstacle => return (.error obstacle, c)

/-- Gives custody up, which takes the process down if there is one. -/
def release (c : Custody) (patience : Nat) : Kernel.Program Unit := do
  if c.pid.isSome then
    let _ ← c.teardown patience

end Custody

end Footprint
