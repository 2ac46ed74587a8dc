import Footprint.Batch
import Footprint.Machine.World
import Footprint.Service

/-!
# Services on the simulated machine

Runs the calls of a service on machines of their own. The calls of a batch share a clock that starts
with the batch: each job is run by the worker that is free first, from the moment it is free.
-/

namespace Footprint.Machine

/-- How the caller of a service and the surroundings behave during one request. -/
structure Surroundings where
  -- When the caller gives up, counted from the start of the request.
  cancelAt : Option Duration
  -- The random number that placements draw.
  drawn : Addr
deriving Repr, Inhabited

namespace Surroundings

/-- The machine for a call that starts at a moment. -/
def world (s : Surroundings) (clock : Duration) : World where
  process := none
  clock := clock
  cancelAt := s.cancelAt
  drawn := s.drawn
  pauses := 0

end Surroundings

/-- One discovery on a machine of its own. -/
def discover (service : Service) (around : Surroundings) (runId : String) (code : Code) :
    Except Halt (Discovered × Service) :=
  ((service.discover runId code).run.run World.answer (around.world ⟨0⟩)).1

/-- A batch in progress on the machine. -/
structure BatchRun where
  batch : Batch Discovered
  -- When each worker is free.
  freeAt : List Duration
  -- What the calls so far add to the service.
  notes : List Service.Note
deriving Inhabited

namespace BatchRun

/-- The worker that is free first. -/
def nextWorker (freeAt : List Duration) : Nat :=
  let least := freeAt.foldl (fun least d => min least d.nanos) ((freeAt.headD ⟨0⟩).nanos)
  freeAt.findIdx (·.nanos = least)

/-- Makes moves, all of which must be possible. -/
def makeMoves (r : BatchRun) (moves : List (Batch.Move Discovered)) : BatchRun :=
  { r with batch := (r.batch.steps (.error .cancelled) moves).getD r.batch }

/-- Runs one job from its place in the feeder to its result. -/
def runJob (service : Service) (around : Surroundings) (correlation : Audit.Correlation)
    (code : Code) (r : BatchRun) : Except Halt BatchRun := do
  let worker := nextWorker r.freeAt
  let world := around.world (r.freeAt.getD worker ⟨0⟩)
  let r := r.makeMoves [.feed, .take worker]
  if world.isCancelled then
    return r.makeMoves [.callOff, .skip worker]
  else
    let (outcome, world) := (service.call correlation code).run.run World.answer world
    let (result, notes) ← outcome
    let r := r.makeMoves [.begin worker, .deliver worker result]
    return { r with freeAt := r.freeAt.set worker world.clock, notes := r.notes ++ notes }

def runJobs (service : Service) (around : Surroundings) (requestId : String) :
    List (String × Code) → BatchRun → Except Halt BatchRun
  | [], r => .ok r
  | (runId, code) :: rest, r => do
    let r ← runJob service around (.ofBatch requestId runId) code r
    runJobs service around requestId rest r

/-- Lets the workers go when every job is done. -/
def dismiss (r : BatchRun) : BatchRun :=
  r.makeMoves (.close :: (List.range r.freeAt.length).map .leave)

end BatchRun

/-- The discoveries of a batch. Their results stand in the order of the jobs. -/
def discoverBatch (service : Service) (around : Surroundings) (requestId : String)
    (jobs : List (String × Code)) (wanted : Nat) : Except Halt (List Discovered × Service) := do
  let batch : Batch Discovered := .start wanted (jobs.map (·.2))
  let done ← BatchRun.runJobs service around requestId jobs
    { batch, freeAt := batch.workers.map fun _ => ⟨0⟩, notes := [] }
  return (done.dismiss.batch.results (.error .cancelled) jobs.length, service.noteAll done.notes)

end Footprint.Machine
