import Mathlib.Data.List.Induction
import Footprint.Batch

/-!
# Runs of a batch

A move names a worker, but not the job that the worker has. This module runs a batch with its moves
labelled by what they do:

* `Event` — a move together with the job that it concerns;
* `Change` — everything that one move can do, with the condition under which it is possible; these are
  the moves of `step` and no others (`step_eq_some_iff`);
* `Leads` — histories, which are the runs of `steps` (`steps_eq_some_iff`).
-/

namespace Footprint

namespace Batch

variable {ρ : Type}

/-- What happens in a move. -/
inductive Event (ρ : Type) where
  | fed (job : Job)
  | closed
  | took (worker : Nat) (job : Job)
  | began (worker : Nat) (job : Job)
  | passed (worker : Nat) (job : Job)
  | delivered (worker : Nat) (job : Job) (result : ρ)
  | left (worker : Nat)
  | calledOff
deriving DecidableEq, Repr

/-- The move that an event happens in. -/
def Event.move : Event ρ → Move ρ
  | fed _ => .feed
  | closed => .close
  | took worker _ => .take worker
  | began worker _ => .begin worker
  | passed worker _ => .skip worker
  | delivered worker _ result => .deliver worker result
  | left worker => .leave worker
  | calledOff => .callOff

/-- The ways in which a move changes a batch. -/
inductive Change (cancelled : ρ) (b : Batch ρ) : Event ρ → Batch ρ → Prop where
  | feed {job : Job} {rest : List Job} :
      b.waiting = job :: rest → b.queue.length < b.workers.length →
      Change cancelled b (.fed job) { b with waiting := rest, queue := b.queue ++ [job] }
  | close :
      b.waiting = [] → b.isOpen = true → Change cancelled b .closed { b with isOpen := false }
  | take {worker : Nat} {job : Job} {rest : List Job} :
      b.workers[worker]? = some .idle → b.queue = job :: rest →
      Change cancelled b (.took worker job) ({ b with queue := rest }.withWorker worker (.holding job))
  | begin {worker : Nat} {job : Job} :
      b.workers[worker]? = some (.holding job) → b.calledOff = false →
      Change cancelled b (.began worker job) (b.withWorker worker (.busy job))
  | pass {worker : Nat} {job : Job} :
      b.workers[worker]? = some (.holding job) → b.calledOff = true →
      Change cancelled b (.passed worker job) (b.withDelivery worker job cancelled)
  | deliver {worker : Nat} {job : Job} {result : ρ} :
      b.workers[worker]? = some (.busy job) →
      Change cancelled b (.delivered worker job result) (b.withDelivery worker job result)
  | leave {worker : Nat} :
      b.workers[worker]? = some .idle → b.queue = [] → b.isOpen = false →
      Change cancelled b (.left worker) (b.withWorker worker .gone)
  | callOff :
      Change cancelled b .calledOff { b with calledOff := true }

variable {cancelled : ρ} {b after last : Batch ρ} {e : Event ρ} {history : List (Event ρ)}

theorem change_of_step {move : Move ρ} (h : step cancelled b move = some after) :
    ∃ e : Event ρ, e.move = move ∧ Change cancelled b e after := by
  cases move with
  | feed =>
    simp only [step] at h
    split at h
    next job rest hwaiting =>
      split at h
      next hroom =>
        cases h
        exact ⟨.fed job, rfl, .feed hwaiting hroom⟩
      next => cases h
    next => cases h
  | close =>
    simp only [step, Bool.and_eq_true, List.isEmpty_iff] at h
    split at h
    next hopen =>
      cases h
      exact ⟨.closed, rfl, .close hopen.1 hopen.2⟩
    next => cases h
  | take worker =>
    simp only [step] at h
    split at h
    next job rest hidle hqueue =>
      cases h
      exact ⟨.took worker job, rfl, .take hidle hqueue⟩
    next => cases h
  | begin worker =>
    simp only [step] at h
    split at h
    next job hholding =>
      split at h
      next => cases h
      next hcalled =>
        cases h
        exact ⟨.began worker job, rfl, .begin hholding (Bool.eq_false_iff.2 hcalled)⟩
    next => cases h
  | skip worker =>
    simp only [step] at h
    split at h
    next job hholding =>
      split at h
      next hcalled =>
        cases h
        exact ⟨.passed worker job, rfl, .pass hholding hcalled⟩
      next => cases h
    next => cases h
  | deliver worker result =>
    simp only [step] at h
    split at h
    next job hbusy =>
      cases h
      exact ⟨.delivered worker job result, rfl, .deliver hbusy⟩
    next => cases h
  | leave worker =>
    simp only [step] at h
    split at h
    next hidle hqueue =>
      split at h
      next => cases h
      next hopen =>
        cases h
        exact ⟨.left worker, rfl, .leave hidle hqueue (Bool.eq_false_iff.2 hopen)⟩
    next => cases h
  | callOff =>
    cases h
    exact ⟨.calledOff, rfl, .callOff⟩

theorem Change.step_eq (h : Change cancelled b e after) : step cancelled b e.move = some after := by
  cases h with
  | feed hwaiting hroom => simp [Event.move, step, hwaiting, hroom]
  | close hwaiting hopen => simp [Event.move, step, hwaiting, hopen]
  | take hidle hqueue => simp [Event.move, step, hidle, hqueue]
  | begin hholding hcalled => simp [Event.move, step, hholding, hcalled]
  | pass hholding hcalled => simp [Event.move, step, hholding, hcalled]
  | deliver hbusy => simp [Event.move, step, hbusy]
  | leave hidle hqueue hopen => simp [Event.move, step, hidle, hqueue, hopen]
  | callOff => rfl

/-- The moves of a batch are the changes, and no others. -/
theorem step_eq_some_iff {move : Move ρ} :
    step cancelled b move = some after ↔ ∃ e : Event ρ, e.move = move ∧ Change cancelled b e after := by
  constructor
  · intro h
    exact change_of_step h
  · intro h
    rcases h with ⟨e, rfl, hchange⟩
    exact hchange.step_eq

/-! ## Histories -/

/-- The events lead, each by a change, from one batch to another. -/
inductive Leads (cancelled : ρ) (b : Batch ρ) : List (Event ρ) → Batch ρ → Prop where
  | nil : Leads cancelled b [] b
  | snoc {history : List (Event ρ)} {before after : Batch ρ} {e : Event ρ} :
      Leads cancelled b history before → Change cancelled before e after →
      Leads cancelled b (history ++ [e]) after

theorem steps_concat (moves : List (Move ρ)) (move : Move ρ) :
    steps cancelled b (moves ++ [move]) = (steps cancelled b moves).bind (step cancelled · move) := by
  simp only [steps, List.foldlM_append, List.foldlM_cons, List.foldlM_nil]
  cases moves.foldlM (step cancelled) b with
  | none => rfl
  | some before => exact bind_pure (step cancelled before move)

theorem Leads.steps_eq (h : Leads cancelled b history last) :
    steps cancelled b (history.map Event.move) = some last := by
  induction h with
  | nil => rfl
  | snoc _ hchange ih =>
    rw [List.map_append, List.map_singleton, steps_concat, ih]
    exact hchange.step_eq

/-- Runs are histories, and every history is a run. -/
theorem steps_eq_some_iff {moves : List (Move ρ)} :
    steps cancelled b moves = some last ↔
      ∃ history : List (Event ρ), history.map Event.move = moves ∧ Leads cancelled b history last := by
  constructor
  · intro h
    induction moves using List.reverseRecOn generalizing last with
    | nil =>
      cases h
      exact ⟨[], rfl, .nil⟩
    | append_singleton moves move ih =>
      rw [steps_concat, Option.bind_eq_some_iff] at h
      rcases h with ⟨before, hbefore, hlast⟩
      rcases ih hbefore with ⟨history, hmoves, hleads⟩
      rcases change_of_step hlast with ⟨e, hmove, hchange⟩
      exact ⟨history ++ [e], by simp [hmoves, hmove], hleads.snoc hchange⟩
  · intro h
    rcases h with ⟨history, rfl, hleads⟩
    exact hleads.steps_eq

/-- A history can be cut at any of its events. -/
theorem Leads.split (h : Leads cancelled b history last) {earlier later : List (Event ρ)}
    (hhistory : history = earlier ++ e :: later) :
    ∃ before after, Leads cancelled b earlier before ∧ Change cancelled before e after ∧
      Leads cancelled after later last := by
  induction h generalizing later with
  | nil => simp at hhistory
  | snoc hleads hchange ih =>
    rcases List.eq_nil_or_concat later with rfl | ⟨later, final, rfl⟩
    · rcases List.append_inj' hhistory rfl with ⟨rfl, hfinal⟩
      obtain rfl := List.singleton_inj.1 hfinal
      exact ⟨_, _, hleads, hchange, .nil⟩
    · rw [List.concat_eq_append, ← List.cons_append, ← List.append_assoc] at hhistory
      rcases List.append_inj' hhistory rfl with ⟨rfl, hfinal⟩
      obtain rfl := List.singleton_inj.1 hfinal
      rcases ih rfl with ⟨before, after, hearlier, hevent, hlater⟩
      rw [List.concat_eq_append]
      exact ⟨before, after, hearlier, hevent, hlater.snoc hchange⟩

end Batch

end Footprint
