import Mathlib.Data.Set.List
import Footprint.Proofs.Discovery.Outcome
import Footprint.Service

/-!
# Calls that returned

A call on a service runs one discovery between two looks at the clock, and what it notes is made of the
outcome of that discovery (`exists_outcome`). A `Returned` call carries the kernel that answered it, so
statements about all returned calls are statements about all kernels and callers. Its notes are read in two
ways: as the events of its audit trail and as its changes of the metrics.
-/

namespace Footprint

namespace Metrics

/-- The update by which a result is counted. -/
def updateOfResult : Discovered → Update
  | .ok _ => .countSuccess
  | .error failure => .countFailure failure.kind

/-- Every call is counted with its duration and its result, and in buckets. -/
theorem exists_updatesOfOutcome (result : Discovered) (d : Duration) : ∃ micros, ∃ indices : List Nat,
    updatesOfOutcome result d =
      [.countCall, .addDuration micros, .countDuration] ++ indices.map .countBucket
        ++ [updateOfResult result] := by
  have hbuckets : (updatesOfDuration d).drop 2 ∈ Set.range (List.map Update.countBucket) := by
    rw [Set.range_list_map]
    intro update hupdate
    rcases List.mem_filterMap.1 hupdate with ⟨i, -, hi⟩
    split at hi
    · split at hi
      · exact ⟨i, Option.some.inj hi⟩
      · cases hi
    · cases hi
  rcases hbuckets with ⟨indices, hindices⟩
  have hduration : updatesOfDuration d =
      [.addDuration (UInt64.ofNat d.micros), .countDuration] ++ indices.map .countBucket := by
    rw [hindices]
    rfl
  refine ⟨UInt64.ofNat d.micros, indices, ?_⟩
  unfold updatesOfOutcome
  rw [hduration]
  cases result
  all_goals rfl

/-- The metrics count a report as completed unless an end is missing from it. -/
theorem updateOfTeardown_eq (teardown : Option TeardownReport) :
    updateOfTeardown teardown =
      if teardown.isSome ∧ teardown.any (·.isUnreaped) = false then .teardownCompleted
      else .teardownFailed := by
  cases teardown with
  | none => rfl
  | some report =>
    rcases report with ⟨_ | pid, killSent, _ | _, exitCode, termSignal⟩
    all_goals rfl

end Metrics

namespace Service

open Kernel

variable {σ : Type} {s : Service}

/-- A call returns what its discovery came to. -/
theorem exists_outcome {correlation : Audit.Correlation} {code : Code}
    {kernel : (c : Call) → σ → Answer c × σ} {k : σ} {result : Discovered} {notes : List Note}
    (h : ((s.call correlation code).run.run kernel k).1 = .ok (result, notes)) :
    ∃ outcome elapsed,
      ((Discovery.perform code s.config s.host).run.run kernel (kernel .clock k).2).1 = .ok outcome ∧
        result = outcome.result ∧
        notes = openingNotes correlation code ++ closingNotes correlation outcome elapsed := by
  change (Dialogue.run kernel ((Discovery.perform code s.config s.host).run >>= _)
    (kernel .clock k).2).1 = _ at h
  rw [Dialogue.run_bind] at h
  rcases hperformed : (Discovery.perform code s.config s.host).run.run kernel (kernel .clock k).2 with
    ⟨halt | outcome, k'⟩
  · rw [hperformed] at h
    cases h
  · rw [hperformed] at h
    cases h
    exact ⟨outcome, _, rfl, rfl, rfl⟩

/-! ## Reading notes -/

def Note.event? : Note → Option Audit.Event
  | .audit event => some event
  | .metric _ => none

def Note.update? : Note → Option Metrics.Update
  | .metric update => some update
  | .audit _ => none

/-- The audit events among notes. -/
def eventsOf (notes : List Note) : List Audit.Event :=
  notes.filterMap Note.event?

/-- The changes of the metrics among notes. -/
def updatesOf (notes : List Note) : List Metrics.Update :=
  notes.filterMap Note.update?

@[simp]
theorem eventsOf_nil : eventsOf [] = [] := rfl

@[simp]
theorem updatesOf_nil : updatesOf [] = [] := rfl

@[simp]
theorem eventsOf_append (notes notes' : List Note) :
    eventsOf (notes ++ notes') = eventsOf notes ++ eventsOf notes' := List.filterMap_append

@[simp]
theorem updatesOf_append (notes notes' : List Note) :
    updatesOf (notes ++ notes') = updatesOf notes ++ updatesOf notes' := List.filterMap_append

@[simp]
theorem eventsOf_cons_audit (event : Audit.Event) (notes : List Note) :
    eventsOf (.audit event :: notes) = event :: eventsOf notes := rfl

@[simp]
theorem eventsOf_cons_metric (update : Metrics.Update) (notes : List Note) :
    eventsOf (.metric update :: notes) = eventsOf notes := rfl

@[simp]
theorem updatesOf_cons_audit (event : Audit.Event) (notes : List Note) :
    updatesOf (.audit event :: notes) = updatesOf notes := rfl

@[simp]
theorem updatesOf_cons_metric (update : Metrics.Update) (notes : List Note) :
    updatesOf (.metric update :: notes) = update :: updatesOf notes := rfl

@[simp]
theorem eventsOf_map_metric (updates : List Metrics.Update) : eventsOf (updates.map .metric) = [] := by
  induction updates with
  | nil => rfl
  | cons update rest ih => exact ih

@[simp]
theorem updatesOf_map_metric (updates : List Metrics.Update) :
    updatesOf (updates.map .metric) = updates := by
  induction updates with
  | nil => rfl
  | cons update rest ih => exact congrArg (update :: ·) ih

/-- Whether a result is a failure of a kind. -/
def failsBy (kind : Failure.Kind) : Discovered → Bool
  | .ok _ => false
  | .error failure => failure.kind = kind

/-! ## Returned calls -/

/-- A call on a service that returned, with the kernel and the caller that answered it. -/
structure Returned (s : Service) where
  requestId : String
  runId : String
  code : Code
  Surroundings : Type
  kernel : (c : Call) → Surroundings → Answer c × Surroundings
  start : Surroundings
  result : Discovered
  notes : List Note
  returned : ((s.call (.ofBatch requestId runId) code).run.run kernel start).1 = .ok (result, notes)
  -- What the discovery of the call came to.
  outcome : Outcome
  performed :
    ((Discovery.perform code s.config s.host).run.run kernel (kernel .clock start).2).1 = .ok outcome

namespace Returned

theorem eq_ok_of_toOption {ε α : Type} {e : Except ε α} (h : e.toOption.isSome = true) :
    e = .ok (e.toOption.get h) := by
  cases e with
  | error _ => cases h
  | ok a => rfl

/-- The call that returns when it is made in some surroundings. -/
def ofRun (requestId runId : String) (code : Code) (kernel : (c : Call) → σ → Answer c × σ) (start : σ)
    (h : (((s.call (.ofBatch requestId runId) code).run.run kernel start).1).toOption.isSome = true) :
    Returned s :=
  have hperformed : (((Discovery.perform code s.config s.host).run.run kernel
      (kernel .clock start).2).1).toOption.isSome = true := by
    rcases exists_outcome (eq_ok_of_toOption h) with ⟨outcome, _, hok, _⟩
    rw [hok]
    rfl
  { requestId, runId, code, kernel, start
    Surroundings := σ
    result := (Option.get _ h).1
    notes := (Option.get _ h).2
    returned := eq_ok_of_toOption h
    outcome := Option.get _ hperformed
    performed := eq_ok_of_toOption hperformed }

variable (c : Returned s)

/-- What was asked and answered during the discovery. -/
def discovery : Transcript :=
  (Discovery.perform c.code s.config s.host).run.transcript c.kernel (c.kernel .clock c.start).2

def correlation : Audit.Correlation :=
  .ofBatch c.requestId c.runId

/-- The ids of a call once its process is known. -/
def laterCorrelation : Audit.Correlation :=
  { c.correlation with pid := c.outcome.pid }

/-- What a call that took `elapsed` notes between its start and its end. -/
def between (elapsed : Duration) : List Note :=
  .audit (.started c.correlation c.code.length) :: (teardownNotes c.laterCorrelation c.outcome
    ++ (Metrics.updatesOfWork c.outcome.iterations (UInt64.ofNat c.outcome.blocks)).map .metric
    ++ (Metrics.updatesOfOutcome c.result elapsed).map .metric
    ++ [.audit (.ended c.laterCorrelation c.result)])

theorem result_eq : c.result = c.outcome.result := by
  rcases exists_outcome c.returned with ⟨outcome, _, hperformed, hresult, _⟩
  rw [c.performed] at hperformed
  cases hperformed
  exact hresult

/-- The first note of a call says that it starts, and its last note that it ended. -/
theorem exists_notes_eq : ∃ elapsed,
    c.notes = .metric .callStarted :: (c.between elapsed ++ [.metric .callEnded]) := by
  rcases exists_outcome c.returned with ⟨outcome, elapsed, hperformed, hresult, hnotes⟩
  rw [c.performed] at hperformed
  cases hperformed
  have hlater : { c.correlation with pid := c.outcome.pid.or c.correlation.pid } = c.laterCorrelation := by
    simp [laterCorrelation, correlation, Audit.Correlation.ofBatch]
  refine ⟨elapsed, ?_⟩
  rw [hnotes]
  unfold openingNotes closingNotes between
  rw [← correlation, hlater, ← hresult]
  simp

/-- The audit trail of a call. -/
theorem eventsOf_notes : eventsOf c.notes =
    .started c.correlation c.code.length ::
      (if c.outcome.launched then [.tornDown c.laterCorrelation c.outcome.teardown] else [])
        ++ [.ended c.laterCorrelation c.result] := by
  rcases c.exists_notes_eq with ⟨elapsed, hnotes⟩
  rw [hnotes]
  unfold between teardownNotes
  split
  all_goals simp

/-- The changes that a call makes to the metrics. -/
theorem exists_updatesOf_notes : ∃ micros, ∃ indices : List Nat, updatesOf c.notes =
    .callStarted :: (if c.outcome.launched then [Metrics.updateOfTeardown c.outcome.teardown] else [])
      ++ [.addIterations c.outcome.iterations.toUInt64, .addBlocks (UInt64.ofNat c.outcome.blocks),
        .countCall, .addDuration micros, .countDuration]
      ++ indices.map .countBucket ++ [Metrics.updateOfResult c.result, .callEnded] := by
  rcases c.exists_notes_eq with ⟨elapsed, hnotes⟩
  rcases Metrics.exists_updatesOfOutcome c.result elapsed with ⟨micros, indices, hupdates⟩
  refine ⟨micros, indices, ?_⟩
  rw [hnotes]
  unfold between teardownNotes
  rw [hupdates]
  split
  all_goals simp [Metrics.updatesOfWork, -List.map_map]

theorem attests : c.outcome.Attests c.discovery :=
  Discovery.attests_of_perform c.performed

end Returned

/-! ## A scripted kernel -/

/-- A kernel that grants every request, whose process reports given statuses one after the other. -/
def scripted (report : Setup.Report) (registers : Registers) :
    (c : Call) → List (Except Errno WaitStatus) → Answer c × List (Except Errno WaitStatus)
  | .clock, statuses => (⟨0⟩, statuses)
  | .cancelled, statuses => (false, statuses)
  | .draw, statuses => ((0 : Addr), statuses)
  | .openReport, statuses => (.ok 3, statuses)
  | .fork _, statuses => (.ok 7, statuses)
  | .readReport _, statuses => (report.encode, statuses)
  | .readRegisters _, statuses => (.ok registers, statuses)
  | .writeRegisters .., statuses => (.ok (), statuses)
  | .readSignal _, statuses => (.ok ⟨Stop.codeProcessor, 0⟩, statuses)
  | .traceOptions _, statuses => (.ok (), statuses)
  | .resume .., statuses => (.ok (), statuses)
  | .readRseq _, statuses => (.error .inputOutput, statuses)
  | .readMaps _, statuses => (.ok "", statuses)
  | .poll _, statuses => (statuses.headD (.error .noChild), statuses.tail)
  | .wait _, statuses => (statuses.headD (.error .noChild), statuses.tail)
  | .kill _, statuses => (.ok (), statuses)

/-- A service that did nothing yet, and leaves inherited memory in its sandboxes. -/
def fresh : Service :=
  ⟨{ Config.standard with scrub := false }, ⟨"x86_64", 0x1000, 0x10000⟩, .zero, .withoutFile⟩

/-- What is read of a process that was set up on the standard configuration and ran a block of one byte. -/
def completed : (c : Call) → List (Except Errno WaitStatus) → Answer c × List (Except Errno WaitStatus) :=
  scripted ⟨Setup.Stage.ready.number, 0, 0x200000000000⟩ { (default : Registers) with rip := 0x200000000002 }

/-- A block that completes; its process is killed and reaped. -/
def reaped : Returned fresh :=
  .ofRun "request" "reaped" [0x90] completed
    [.ok (.stopped 7 .stop), .ok (.stopped 7 .trap), .ok (.signaled 7 .kill false)] (by decide +kernel)

/-- Code that is no block. -/
def refused : Returned fresh :=
  .ofRun "request" "refused" [] completed [] (by decide +kernel)

end Service

end Footprint
