import Mathlib.Algebra.GroupWithZero.Nat
import Footprint.Proofs.Batch.Account

/-!
# A batch always comes to its end

A feeder waits for room in the queue, workers wait for jobs, and nobody leaves before the queue is closed
and empty. No schedule makes them wait for each other: as long as a batch is not complete, somebody can
move, whatever the blocks come to and without calling the batch off (`exists_work`). Since every move
except for calling off brings the batch closer to its end (`Change.work_lt`), a run of any schedule is
complete after four moves a job, one a worker and the closing of the queue (`Leads.work_le`).
-/

namespace Footprint

/-- How many moves a worker has still to make, apart from those for jobs in the queue. -/
def Worker.work : Worker → Nat
  | .holding _ => 3
  | .busy _ => 2
  | .idle => 1
  | .gone => 0

namespace Batch

variable {ρ : Type} {cancelled : ρ} {b after last : Batch ρ} {e : Event ρ} {history : List (Event ρ)}
  {wanted : Nat} {blocks : List Code}

/-! ## Who is there -/

/-- What is true of feeder, queue and workers at all times. -/
structure Staffed (wanted size : Nat) (b : Batch ρ) : Prop where
  workers : b.workers.length = workerCount wanted size
  -- The queue never has more jobs than places.
  bounded : b.queue.length ≤ workerCount wanted size
  -- The feeder closes the queue behind the last job, and workers leave behind the last one in the queue.
  closed : b.isOpen = false → b.waiting = []
  left : .gone ∈ b.workers → b.isOpen = false ∧ b.queue = []

theorem staffed_start (wanted : Nat) (blocks : List Code) :
    Staffed wanted blocks.length (start wanted blocks : Batch ρ) := by
  constructor
  case workers => simp [start]
  case bounded => simp [start]
  case closed =>
    intro hclosed
    cases hclosed
  case left =>
    intro hgone
    cases List.eq_of_mem_replicate hgone

/-- A worker that goes on working is not gone. -/
theorem gone_mem_of_set {workers : List Worker} {worker : Nat} {state : Worker} (hstate : state ≠ .gone)
    (h : .gone ∈ workers.set worker state) : .gone ∈ workers := by
  rcases List.mem_or_eq_of_mem_set h with hgone | hgone
  · exact hgone
  · exact absurd hgone.symm hstate

theorem Change.staffed {size : Nat} (hchange : Change cancelled b e after)
    (h : Staffed wanted size b) : Staffed wanted size after := by
  rcases h with ⟨hworkers, hbounded, hclosed, hleft⟩
  cases hchange with
  | feed hwaiting hroom =>
    have hopen : b.isOpen = true := by
      by_contra hnot
      have hnone := hclosed (Bool.eq_false_iff.2 hnot)
      rw [hwaiting] at hnone
      cases hnone
    refine ⟨hworkers, ?_, ?_, ?_⟩
    · rw [← hworkers, List.length_append]
      exact hroom
    · intro hnot
      rw [hopen] at hnot
      cases hnot
    · intro hgone
      have hnot := (hleft hgone).1
      rw [hopen] at hnot
      cases hnot
  | close hwaiting _ =>
    exact ⟨hworkers, hbounded, fun _ => hwaiting, fun hgone => ⟨rfl, (hleft hgone).2⟩⟩
  | take hidle hqueue =>
    rw [hqueue] at hbounded hleft
    refine ⟨by simpa [withWorker] using hworkers, Nat.le_of_succ_le hbounded, hclosed, ?_⟩
    intro hgone
    cases (hleft (gone_mem_of_set (by simp) hgone)).2
  | begin hholding _ =>
    refine ⟨by simpa [withWorker] using hworkers, hbounded, hclosed, ?_⟩
    intro hgone
    exact hleft (gone_mem_of_set (by simp) hgone)
  | pass hholding _ =>
    refine ⟨by simpa [withDelivery, withWorker] using hworkers, hbounded, hclosed, ?_⟩
    intro hgone
    exact hleft (gone_mem_of_set (by simp) hgone)
  | deliver hbusy =>
    refine ⟨by simpa [withDelivery, withWorker] using hworkers, hbounded, hclosed, ?_⟩
    intro hgone
    exact hleft (gone_mem_of_set (by simp) hgone)
  | leave hidle hqueue hopen =>
    exact ⟨by simpa [withWorker] using hworkers, hbounded, hclosed, fun _ => ⟨hopen, hqueue⟩⟩
  | callOff => exact ⟨hworkers, hbounded, hclosed, hleft⟩

theorem Leads.staffed (h : Leads cancelled (start wanted blocks) history last) :
    Staffed wanted blocks.length last := by
  induction h with
  | nil => exact staffed_start wanted blocks
  | snoc _ hchange ih => exact hchange.staffed ih

/-! ## Somebody can move -/

/-- The events other than calling the batch off. -/
def Event.isWork : Event ρ → Bool
  | calledOff => false
  | _ => true

/-- The event is not a delivery, or delivers what the block comes to. -/
def Event.Agrees (outcome : Code → ρ) : Event ρ → Prop
  | delivered _ job result => result = outcome job.block
  | _ => True

/-- Work that is possible: a move other than calling off, with the results that blocks come to. -/
def CanWork (cancelled : ρ) (outcome : Code → ρ) (b : Batch ρ) : Prop :=
  ∃ (e : Event ρ) (after : Batch ρ),
    e.isWork = true ∧ e.Agrees outcome ∧ Change cancelled b e after

variable {outcome : Code → ρ}

theorem Change.canWork (h : Change cancelled b e after) (hwork : e.isWork = true)
    (hagrees : e.Agrees outcome) : CanWork cancelled outcome b :=
  ⟨e, after, hwork, hagrees, h⟩

/-- A worker that has a job can go on with it. -/
theorem canWork_of_worker {worker : Nat} {state : Worker} (hstate : b.workers[worker]? = some state)
    (hidle : state ≠ .idle) (hgone : state ≠ .gone) : CanWork cancelled outcome b := by
  cases state with
  | idle => exact absurd rfl hidle
  | gone => exact absurd rfl hgone
  | busy job =>
    have hdeliver : Change cancelled b (.delivered worker job (outcome job.block)) _ := .deliver hstate
    exact hdeliver.canWork rfl rfl
  | holding job =>
    cases hcalled : b.calledOff with
    | true => exact (Change.pass hstate hcalled).canWork rfl trivial
    | false => exact (Change.begin hstate hcalled).canWork rfl trivial

theorem workerCount_pos {size : Nat} (h : 0 < size) : 0 < workerCount wanted size := by
  unfold workerCount
  omega

/-- A job that has not been taken yet has somebody to take it. -/
theorem Accounted.workers_pos {job : Job} (h : Accounted (jobsOf blocks) history b)
    (hstaffed : Staffed wanted blocks.length b) (hjob : job ∈ b.waiting ++ b.queue) :
    0 < b.workers.length := by
  have hmem : job ∈ jobsOf blocks := by
    apply h.places.subset
    rw [List.append_assoc, List.append_assoc]
    exact List.mem_append_left _ hjob
  rcases List.getElem?_eq_some_iff.1 (mem_jobsOf_iff.1 hmem) with ⟨hnumber, _⟩
  rw [hstaffed.workers]
  exact workerCount_pos (Nat.zero_lt_of_lt hnumber)

/-- Before a batch is complete, some move is possible: of a worker that has a job, and else of the feeder
or of a worker that is idle. -/
theorem canWork_of_not_complete (h : Accounted (jobsOf blocks) history b)
    (hstaffed : Staffed wanted blocks.length b) (hincomplete : b.isComplete = false) :
    CanWork cancelled outcome b := by
  by_cases hjobs : ∃ state ∈ b.workers, state ≠ .idle ∧ state ≠ .gone
  · rcases hjobs with ⟨state, hmem, hidle, hgone⟩
    rcases List.getElem?_of_mem hmem with ⟨worker, hworker⟩
    exact canWork_of_worker hworker hidle hgone
  have hidle : ∀ state ∈ b.workers, state ≠ .gone → state = .idle := by
    intro state hmem hgone
    by_contra hne
    exact hjobs ⟨state, hmem, hne, hgone⟩
  cases hqueue : b.queue with
  | cons job rest =>
    have hmem : job ∈ b.waiting ++ b.queue := by simp [hqueue]
    have hpos : 0 < b.workers.length := h.workers_pos hstaffed hmem
    -- nobody left a queue that has a job in it
    have hfirst : b.workers[0] = .idle := by
      apply hidle _ (List.getElem_mem hpos)
      intro hgone
      have hempty := (hstaffed.left (hgone ▸ List.getElem_mem hpos)).2
      rw [hqueue] at hempty
      cases hempty
    have htake : Change cancelled b (.took 0 job) _ :=
      .take (List.getElem?_eq_some_iff.2 ⟨hpos, hfirst⟩) hqueue
    exact htake.canWork rfl trivial
  | nil =>
    cases hwaiting : b.waiting with
    | cons job rest =>
      have hmem : job ∈ b.waiting ++ b.queue := by simp [hwaiting]
      have hpos : 0 < b.workers.length := h.workers_pos hstaffed hmem
      have hroom : b.queue.length < b.workers.length := by
        rw [hqueue]
        exact hpos
      exact (Change.feed hwaiting hroom).canWork rfl trivial
    | nil =>
      cases hopen : b.isOpen with
      | true => exact (Change.close hwaiting hopen).canWork rfl trivial
      | false =>
        have hsome : ∃ state ∈ b.workers, state ≠ .gone := by
          simpa [isComplete, hopen] using hincomplete
        rcases hsome with ⟨state, hmem, hgone⟩
        rcases List.getElem?_of_mem hmem with ⟨worker, hworker⟩
        rw [hidle state hmem hgone] at hworker
        exact (Change.leave hworker hqueue hopen).canWork rfl trivial

/-! ## Nobody moves for ever -/

/-- How many moves are left at most: four for a job with the feeder, three for one in the queue, those of
the workers, and the closing of the queue. -/
def work (b : Batch ρ) : Nat :=
  4 * b.waiting.length + 3 * b.queue.length + (b.workers.map Worker.work).sum + b.isOpen.toNat

theorem sum_map_set {α : Type} {g : α → Nat} {l : List α} {i : Nat} {a : α} (h : l[i]? = some a) (a' : α) :
    ((l.set i a').map g).sum + g a = (l.map g).sum + g a' := by
  induction l generalizing i with
  | nil => simp at h
  | cons y rest ih =>
    cases i with
    | zero =>
      obtain rfl : y = a := by simpa using h
      simp only [List.set_cons_zero, List.map_cons, List.sum_cons]
      omega
    | succ i =>
      have hrest := ih (by simpa using h)
      simp only [List.set_cons_succ, List.map_cons, List.sum_cons]
      omega

theorem sum_work_withWorker {worker : Nat} {state : Worker} (h : b.workers[worker]? = some state)
    (state' : Worker) :
    ((b.withWorker worker state').workers.map Worker.work).sum + state.work =
      (b.workers.map Worker.work).sum + state'.work :=
  sum_map_set h state'

/-- Every move but calling off leaves fewer moves. -/
theorem Change.work_lt (hchange : Change cancelled b e after) (hwork : e.isWork = true) :
    after.work < b.work := by
  unfold work
  cases hchange with
  | feed hwaiting _ =>
    simp only [hwaiting, List.length_cons, List.length_append, List.length_nil]
    omega
  | close _ hopen =>
    simp only [hopen, Bool.toNat_true, Bool.toNat_false]
    omega
  | @take worker job rest hidle hqueue =>
    have hsum := sum_work_withWorker (b := { b with queue := rest }) hidle (.holding job)
    simp only [Worker.work, withWorker_waiting, withWorker_queue] at hsum ⊢
    simp only [hqueue, List.length_cons, withWorker] at hsum ⊢
    omega
  | @begin worker job hholding _ =>
    have hsum := sum_work_withWorker hholding (.busy job)
    simp only [Worker.work, withWorker] at hsum ⊢
    omega
  | pass hholding _ =>
    have hsum := sum_work_withWorker hholding .idle
    simp only [Worker.work, withWorker, withDelivery] at hsum ⊢
    omega
  | deliver hbusy =>
    have hsum := sum_work_withWorker hbusy .idle
    simp only [Worker.work, withWorker, withDelivery] at hsum ⊢
    omega
  | leave hidle _ _ =>
    have hsum := sum_work_withWorker hidle .gone
    simp only [Worker.work, withWorker] at hsum ⊢
    omega
  | callOff => cases hwork

/-- Calling off takes no moves away. -/
theorem Change.work_le (hchange : Change cancelled b e after) :
    after.work + e.isWork.toNat ≤ b.work := by
  cases hwork : e.isWork with
  | true => exact hchange.work_lt hwork
  | false =>
    cases hchange with
    | callOff => exact Nat.le_refl _
    | _ => cases hwork

theorem Leads.work_le (h : Leads cancelled b history last) :
    last.work + history.countP Event.isWork ≤ b.work := by
  induction h with
  | nil => exact Nat.le_refl _
  | @snoc history before after e _ hchange ih =>
    have hstep := hchange.work_le
    have hcount : (history ++ [e]).countP Event.isWork = history.countP Event.isWork + e.isWork.toNat := by
      cases hwork : e.isWork <;> simp [List.countP_append, hwork]
    omega

theorem work_start (wanted : Nat) (blocks : List Code) :
    (start wanted blocks : Batch ρ).work = 4 * blocks.length + workerCount wanted blocks.length + 1 := by
  simp [work, start, jobsOf, Worker.work]

/-- The moves of a run, apart from calling off, are at most four a job, one a worker and one more. -/
theorem Leads.countP_isWork_le (h : Leads cancelled (start wanted blocks) history last) :
    history.countP Event.isWork ≤ 4 * blocks.length + workerCount wanted blocks.length + 1 := by
  calc
    history.countP Event.isWork ≤ last.work + history.countP Event.isWork := Nat.le_add_left _ _
    _ ≤ (start wanted blocks : Batch ρ).work := h.work_le
    _ = 4 * blocks.length + workerCount wanted blocks.length + 1 := work_start wanted blocks

end Batch

end Footprint
