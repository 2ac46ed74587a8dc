import Mathlib.Data.List.Perm.Basic
import Mathlib.Data.List.Nodup
import Footprint.Proofs.Batch.Run

/-!
# No job is lost or doubled

Wherever a batch stands, each of its jobs is in exactly one place: with the feeder, in the queue, in the
hands of a worker, or in the history as begun or as passed over (`Accounted`). Every move takes one job
from one place to the next, so this is kept by every move (`Change.accounted`) and holds throughout a run
(`Leads.accounted`).
-/

namespace Footprint

namespace Worker

@[simp]
def held? : Worker → Option Job
  | holding job => some job
  | _ => none

@[simp]
def running? : Worker → Option Job
  | busy job => some job
  | _ => none

end Worker

namespace Batch

variable {ρ : Type}

/-- The jobs that workers took from the queue and have not decided on. -/
def held (b : Batch ρ) : List Job :=
  b.workers.filterMap Worker.held?

def running (b : Batch ρ) : List Job :=
  b.workers.filterMap Worker.running?

namespace Event

@[simp]
def begun? : Event ρ → Option Job
  | began _ job => some job
  | _ => none

@[simp]
def passed? : Event ρ → Option Job
  | passed _ job => some job
  | _ => none

@[simp]
def finished? : Event ρ → Option Job
  | delivered _ job _ => some job
  | _ => none

/-- What an event delivers, with the number of the job. -/
def delivery? (cancelled : ρ) : Event ρ → Option (Nat × ρ)
  | passed _ job => some (job.number, cancelled)
  | delivered _ job result => some (job.number, result)
  | _ => none

end Event

/-- The jobs that a worker began to run. -/
def begun (history : List (Event ρ)) : List Job :=
  history.filterMap Event.begun?

/-- The jobs that a worker passed over. -/
def passedOver (history : List (Event ρ)) : List Job :=
  history.filterMap Event.passed?

/-- The jobs that were run and delivered. -/
def finished (history : List (Event ρ)) : List Job :=
  history.filterMap Event.finished?

variable {cancelled : ρ} {b after last : Batch ρ} {e : Event ρ} {history : List (Event ρ)}
  {jobs : List Job}

/-- Every job is in one place, and the jobs that were begun are running or finished. -/
structure Accounted (jobs : List Job) (history : List (Event ρ)) (b : Batch ρ) : Prop where
  places : (b.waiting ++ b.queue ++ b.held ++ begun history ++ passedOver history).Perm jobs
  runs : (b.running ++ finished history).Perm (begun history)

/-! ## One worker among all -/

/-- Replacing one element replaces what it contributes. -/
theorem count_filterMap_set {α β : Type} [BEq β] [LawfulBEq β] {f : α → Option β} {l : List α} {i : Nat}
    {a : α} (h : l[i]? = some a) (a' : α) (x : β) :
    ((l.set i a').filterMap f).count x + (f a).toList.count x =
      (l.filterMap f).count x + (f a').toList.count x := by
  induction l generalizing i with
  | nil => simp at h
  | cons y rest ih =>
    cases i with
    | zero =>
      obtain rfl : y = a := by simpa using h
      simp only [List.set_cons_zero, List.filterMap_cons]
      cases f y <;> cases f a' <;> simp [List.count_cons]
      omega
    | succ i =>
      have hrest := ih (by simpa using h)
      simp only [List.set_cons_succ, List.filterMap_cons]
      cases f y <;> simp [List.count_cons] <;> omega

@[simp]
theorem withWorker_waiting (b : Batch ρ) (worker : Nat) (state : Worker) :
    (b.withWorker worker state).waiting = b.waiting := rfl

@[simp]
theorem withWorker_queue (b : Batch ρ) (worker : Nat) (state : Worker) :
    (b.withWorker worker state).queue = b.queue := rfl

@[simp]
theorem withDelivery_waiting (b : Batch ρ) (worker : Nat) (job : Job) (result : ρ) :
    (b.withDelivery worker job result).waiting = b.waiting := rfl

@[simp]
theorem withDelivery_queue (b : Batch ρ) (worker : Nat) (job : Job) (result : ρ) :
    (b.withDelivery worker job result).queue = b.queue := rfl

/-- Who delivers is idle again. -/
@[simp]
theorem withDelivery_held (b : Batch ρ) (worker : Nat) (job : Job) (result : ρ) :
    (b.withDelivery worker job result).held = (b.withWorker worker .idle).held := rfl

@[simp]
theorem withDelivery_running (b : Batch ρ) (worker : Nat) (job : Job) (result : ρ) :
    (b.withDelivery worker job result).running = (b.withWorker worker .idle).running := rfl

variable {worker : Nat} {state : Worker}

theorem count_held_withWorker (h : b.workers[worker]? = some state) (state' : Worker) (job : Job) :
    (b.withWorker worker state').held.count job + state.held?.toList.count job =
      b.held.count job + state'.held?.toList.count job :=
  count_filterMap_set h state' job

theorem count_running_withWorker (h : b.workers[worker]? = some state) (state' : Worker) (job : Job) :
    (b.withWorker worker state').running.count job + state.running?.toList.count job =
      b.running.count job + state'.running?.toList.count job :=
  count_filterMap_set h state' job

/-! ## One move -/

theorem filterMap_concat {α β : Type} (f : α → Option β) (l : List α) (a : α) :
    (l ++ [a]).filterMap f = l.filterMap f ++ (f a).toList := by
  cases h : f a <;> simp [h]

theorem begun_concat (history : List (Event ρ)) (e : Event ρ) :
    begun (history ++ [e]) = begun history ++ e.begun?.toList :=
  filterMap_concat _ _ _

theorem passedOver_concat (history : List (Event ρ)) (e : Event ρ) :
    passedOver (history ++ [e]) = passedOver history ++ e.passed?.toList :=
  filterMap_concat _ _ _

theorem finished_concat (history : List (Event ρ)) (e : Event ρ) :
    finished (history ++ [e]) = finished history ++ e.finished?.toList :=
  filterMap_concat _ _ _

theorem Accounted.count_places (h : Accounted jobs history b) (job : Job) :
    b.waiting.count job + b.queue.count job + b.held.count job + (begun history).count job +
      (passedOver history).count job = jobs.count job := by
  simpa only [List.count_append] using h.places.count_eq job

theorem Accounted.count_runs (h : Accounted jobs history b) (job : Job) :
    b.running.count job + (finished history).count job = (begun history).count job := by
  simpa only [List.count_append] using h.runs.count_eq job

theorem accounted_of_count
    (h : ∀ job, b.waiting.count job + b.queue.count job + b.held.count job + (begun history).count job +
        (passedOver history).count job = jobs.count job ∧
      b.running.count job + (finished history).count job = (begun history).count job) :
    Accounted jobs history b := by
  constructor
  · apply List.perm_iff_count.2
    intro job
    simpa only [List.count_append] using (h job).1
  · apply List.perm_iff_count.2
    intro job
    simpa only [List.count_append] using (h job).2

/-- A move takes one job from one place to the next. -/
theorem Change.accounted (hchange : Change cancelled b e after) (h : Accounted jobs history b) :
    Accounted jobs (history ++ [e]) after := by
  apply accounted_of_count
  intro other
  have hplaces := h.count_places other
  have hruns := h.count_runs other
  rw [begun_concat, passedOver_concat, finished_concat]
  simp only [List.count_append]
  cases hchange with
  | feed hwaiting _ =>
    rw [hwaiting] at hplaces
    simp only [List.count_cons] at hplaces
    simp [held, running, List.count_cons] at hplaces hruns ⊢
    omega
  | close _ _ => exact ⟨hplaces, hruns⟩
  | @take worker job rest hidle hqueue =>
    have hheld := count_held_withWorker (b := { b with queue := rest }) hidle (.holding job) other
    have hrunning := count_running_withWorker (b := { b with queue := rest }) hidle (.holding job) other
    rw [hqueue] at hplaces
    simp [held, running, List.count_cons] at hplaces hruns hheld hrunning ⊢
    omega
  | @begin worker job hholding _ =>
    have hheld := count_held_withWorker hholding (.busy job) other
    have hrunning := count_running_withWorker hholding (.busy job) other
    simp [List.count_cons] at hheld hrunning ⊢
    omega
  | @pass worker job hholding _ =>
    have hheld := count_held_withWorker hholding .idle other
    have hrunning := count_running_withWorker hholding .idle other
    simp [List.count_cons] at hheld hrunning ⊢
    omega
  | @deliver worker job result hbusy =>
    have hheld := count_held_withWorker hbusy .idle other
    have hrunning := count_running_withWorker hbusy .idle other
    simp [List.count_cons] at hheld hrunning ⊢
    omega
  | @leave worker hidle _ _ =>
    have hheld := count_held_withWorker hidle .gone other
    have hrunning := count_running_withWorker hidle .gone other
    simp at hheld hrunning ⊢
    omega
  | callOff => exact ⟨hplaces, hruns⟩

/-! ## A whole run -/

variable {wanted : Nat} {blocks : List Code} {job : Job}

theorem mem_jobsOf_iff : job ∈ jobsOf blocks ↔ blocks[job.number]? = some job.block := by
  rcases job with ⟨number, block⟩
  simp [jobsOf, List.mem_zipIdx_iff_getElem?]

theorem map_number_jobsOf (blocks : List Code) :
    (jobsOf blocks).map Job.number = List.range blocks.length := by
  rw [jobsOf, List.map_map, List.range_eq_range']
  exact List.zipIdx_map_snd 0 blocks

theorem nodup_jobsOf (blocks : List Code) : (jobsOf blocks).Nodup := by
  apply List.Nodup.of_map Job.number
  rw [map_number_jobsOf]
  exact List.nodup_range

theorem accounted_start (wanted : Nat) (blocks : List Code) :
    Accounted (jobsOf blocks) [] (start wanted blocks : Batch ρ) := by
  have hheld : (start wanted blocks : Batch ρ).held = [] := by
    simp [held, start, List.filterMap_replicate]
  have hrunning : (start wanted blocks : Batch ρ).running = [] := by
    simp [running, start, List.filterMap_replicate]
  constructor
  · rw [hheld]
    simp [start, begun, passedOver]
  · rw [hrunning]
    simp [begun, finished]

theorem Leads.accounted (h : Leads cancelled (start wanted blocks) history last) :
    Accounted (jobsOf blocks) history last := by
  induction h with
  | nil => exact accounted_start wanted blocks
  | snoc _ hchange ih => exact hchange.accounted ih

/-- No block is begun twice. -/
theorem Accounted.nodup_begun (h : Accounted (jobsOf blocks) history b) : (begun history).Nodup := by
  apply List.nodup_iff_count_le_one.2
  intro job
  have hplaces := h.count_places job
  have honce := List.nodup_iff_count_le_one.1 (nodup_jobsOf blocks) job
  omega

/-- What is begun is a block of the batch, at its own place. -/
theorem Accounted.mem_jobs (h : Accounted jobs history b) (hjob : job ∈ begun history) : job ∈ jobs := by
  apply h.places.subset
  simp [hjob]

/-- A job in the queue was not begun. -/
theorem Accounted.not_mem_begun (h : Accounted (jobsOf blocks) history b) (hjob : job ∈ b.queue) :
    job ∉ begun history := by
  intro hbegun
  have hplaces := h.count_places job
  have honce := List.nodup_iff_count_le_one.1 (nodup_jobsOf blocks) job
  have hqueue := List.count_pos_iff.2 hjob
  have hbegun := List.count_pos_iff.2 hbegun
  omega

end Batch

end Footprint
