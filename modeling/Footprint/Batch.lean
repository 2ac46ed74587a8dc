import Footprint.Code

/-!
# Batches

The blocks of a batch are run by a fixed number of workers. A feeder puts them in order, each with its
number, into a queue with as many places as there are workers, and closes the queue behind the last one.
A worker that is idle takes the first job of the queue, runs it unless the batch was called off by then,
and delivers the result; it leaves when the queue is closed and empty. Results are collected by the
number of their job when all workers are gone, so their order does not depend on the schedule.
-/

namespace Footprint

/-- A block with its place in a batch. -/
structure Job where
  number : Nat
  block : Code
deriving DecidableEq, Repr, Inhabited

/-- What a worker is doing. -/
inductive Worker where
  | idle
  -- A job was taken from the queue.
  | holding (job : Job)
  -- A job is being run.
  | busy (job : Job)
  -- The queue was closed and empty.
  | gone
deriving DecidableEq, Repr, Inhabited

/-- A batch in progress, results having type `ρ`. -/
structure Batch (ρ : Type) where
  -- Jobs that the feeder still has.
  waiting : List Job
  -- Whether the feeder has not closed the queue yet.
  isOpen : Bool
  queue : List Job
  workers : List Worker
  -- Results with the numbers of their jobs, in the order of their delivery.
  delivered : List (Nat × ρ)
  -- Whether the batch was called off.
  calledOff : Bool
deriving DecidableEq, Repr, Inhabited

namespace Batch

variable {ρ : Type}

/-- The number of workers for a batch: as many as wanted, but at least one and at most one a job. For
no job at all there is no worker. -/
def workerCount (wanted size : Nat) : Nat :=
  min (max 1 wanted) size

/-- The blocks of a batch with their places. -/
def jobsOf (blocks : List Code) : List Job :=
  blocks.zipIdx.map fun (block, number) => ⟨number, block⟩

/-- A batch that is about to start. -/
def start (wanted : Nat) (blocks : List Code) : Batch ρ where
  waiting := jobsOf blocks
  isOpen := true
  queue := []
  workers := List.replicate (workerCount wanted blocks.length) .idle
  delivered := []
  calledOff := false

/-- One move in a batch. -/
inductive Move (ρ : Type) where
  -- The feeder puts its next job into the queue.
  | feed
  -- The feeder closes the queue.
  | close
  -- A worker takes the first job of the queue.
  | take (worker : Nat)
  -- A worker begins to run the job that it holds.
  | begin (worker : Nat)
  -- A worker passes over the job that it holds.
  | skip (worker : Nat)
  -- A worker delivers the result of the job that it runs.
  | deliver (worker : Nat) (result : ρ)
  -- A worker finds the queue closed and empty.
  | leave (worker : Nat)
  -- The batch is called off.
  | callOff
deriving DecidableEq, Repr

def withWorker (b : Batch ρ) (worker : Nat) (state : Worker) : Batch ρ :=
  { b with workers := b.workers.set worker state }

def withDelivery (b : Batch ρ) (worker : Nat) (job : Job) (result : ρ) : Batch ρ :=
  { b.withWorker worker .idle with delivered := b.delivered ++ [(job.number, result)] }

/-- The batch after a move, if the move is possible; `cancelled` is the result of a job that is
passed over. -/
def step (cancelled : ρ) (b : Batch ρ) : Move ρ → Option (Batch ρ)
  | .feed =>
    match b.waiting with
    | job :: rest =>
      if b.queue.length < b.workers.length then
        some { b with waiting := rest, queue := b.queue ++ [job] }
      else none
    | [] => none
  | .close =>
    if b.waiting.isEmpty && b.isOpen then some { b with isOpen := false } else none
  | .take worker =>
    match b.workers[worker]?, b.queue with
    | some .idle, job :: rest => some ({ b with queue := rest }.withWorker worker (.holding job))
    | _, _ => none
  | .begin worker =>
    match b.workers[worker]? with
    | some (.holding job) => if b.calledOff then none else some (b.withWorker worker (.busy job))
    | _ => none
  | .skip worker =>
    match b.workers[worker]? with
    | some (.holding job) =>
      if b.calledOff then some (b.withDelivery worker job cancelled) else none
    | _ => none
  | .deliver worker result =>
    match b.workers[worker]? with
    | some (.busy job) => some (b.withDelivery worker job result)
    | _ => none
  | .leave worker =>
    match b.workers[worker]?, b.queue with
    | some .idle, [] => if b.isOpen then none else some (b.withWorker worker .gone)
    | _, _ => none
  | .callOff => some { b with calledOff := true }

/-- The batch after moves, if each of them is possible. -/
def steps (cancelled : ρ) (b : Batch ρ) (moves : List (Move ρ)) : Option (Batch ρ) :=
  moves.foldlM (step cancelled) b

/-- Whether the feeder is done and all workers are gone. -/
def isComplete (b : Batch ρ) : Bool :=
  !b.isOpen && b.workers.all (· == .gone)

/-- Puts a delivery in the place of its job. -/
def place (places : List (Option ρ)) (delivery : Nat × ρ) : List (Option ρ) :=
  places.set delivery.1 (some delivery.2)

/-- The results of `size` jobs in their order. A place that nothing is delivered for counts as
cancelled. -/
def results (cancelled : ρ) (b : Batch ρ) (size : Nat) : List ρ :=
  (b.delivered.foldl place (List.replicate size none)).map (·.getD cancelled)

end Batch

end Footprint
