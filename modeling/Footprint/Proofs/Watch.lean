import Footprint.Injection
import Footprint.Proofs.Tracing

/-!
# Watching a tracer

What a tracer does to a process shows in its exchanges with the kernel alone. A `Stage` follows them
without knowing the program that makes them: which system call is loaded into the process, whether it
ran, and what it returned once the process was put back. The `Event`s noted on the way are what a drive
is held against.
-/

namespace Footprint

namespace Kernel

/-- How far a system call that a tracer makes in a process has come. -/
inductive Stage where
  | idle
  | loaded (call : Registers)
  | running (call : Registers)
  | trapped (call : Registers)
  | returned (call after : Registers)

/-- What can be noted about a traced process. -/
inductive Event where
  -- A new status was collected.
  | collected (status : WaitStatus)
  -- A system call returned, and the process was put back.
  | called (call after : Registers)
  -- The process was asked to run until its next system call.
  | resumed
  -- The caller was found to have given up.
  | gaveUp

/-- The block that an event makes accessible: that of a mapping which came to lie where it was wanted,
or of a protection that was lifted. -/
def Event.granted : Event → Option Addr
  | .called call after =>
    match SystemCall.outcome after.rax with
    | .ok value =>
      if call.rax = SystemCall.protect ∨ (call.rax = SystemCall.map ∧ value = call.rdi) then
        some call.rdi
      else none
    | .error _ => none
  | _ => none

/-- Only the range that was asked for is made accessible. -/
theorem Event.rdi_eq_of_granted {call after : Registers} {b : Addr}
    (h : (Event.called call after).granted = some b) : call.rdi = b := by
  simp only [granted] at h
  repeat' split at h
  all_goals
    cases h
    try rfl

/-- Whether an event is a call that made nothing accessible. -/
def Event.isVain : Event → Bool
  | .called call after => (Event.called call after).granted.isNone
  | _ => false

/-- Whether an event neither makes a block accessible nor resumes the process. -/
def Event.isIdle : Event → Bool
  | .resumed => false
  | e => e.granted.isNone

@[simp]
theorem Event.isIdle_collected (status : WaitStatus) : (collected status).isIdle = true := rfl

theorem Event.isIdle_of_isVain {e : Event} (h : e.isVain = true) : e.isIdle = true := by
  cases e with
  | called call after => exact h
  | _ => cases h

theorem Event.granted_of_isIdle {e : Event} (h : e.isIdle = true) : e.granted = none := by
  cases e with
  | called call after => simpa [isIdle] using h
  | _ => rfl

namespace Stage

/-- Writing registers loads a call, or puts the process back behind one. -/
def onWrite (registers : Registers) : Stage → Stage × Option Event
  | returned call after => (idle, some (.called call after))
  | _ => (loaded registers, none)

def onResume : Stage → Stage
  | loaded call => running call
  | stage => stage

def onWait : Except Errno WaitStatus → Stage → Stage
  | .ok (.stopped _ .trap), running call => trapped call
  | _, stage => stage

/-- A call has run if the process stands right behind the stub it was loaded for. -/
def onRead (registers : Registers) : Stage → Stage
  | trapped call =>
    if registers.rip = call.rip + stubLen then returned call registers else idle
  | stage => stage

def onExchange (stage : Stage) : Exchange → Stage × Option Event
  | ⟨.writeRegisters _ registers, .ok _⟩ => stage.onWrite registers
  | ⟨.resume _ .freely, .ok _⟩ => (stage.onResume, none)
  | ⟨.resume _ .untilSystemCall, _⟩ => (stage, some .resumed)
  | ⟨.wait _, reply⟩ => (stage.onWait reply, none)
  | ⟨.readRegisters _, .ok registers⟩ => (stage.onRead registers, none)
  | ⟨.poll _, .ok status⟩ => (stage, if status = .stillAlive then none else some (.collected status))
  | ⟨.cancelled, true⟩ => (stage, some .gaveUp)
  | _ => (stage, none)

/-- The stage that a transcript leads to. -/
def after (stage : Stage) : Transcript → Stage
  | [] => stage
  | x :: t => (stage.onExchange x).1.after t

/-- The events that a transcript shows. -/
def shows (stage : Stage) : Transcript → List Event
  | [] => []
  | x :: t => (stage.onExchange x).2.toList ++ (stage.onExchange x).1.shows t

variable (stage : Stage) (x : Exchange) (t u : Transcript)

@[simp]
theorem after_nil : stage.after [] = stage := rfl

@[simp]
theorem after_cons : stage.after (x :: t) = (stage.onExchange x).1.after t := rfl

@[simp]
theorem shows_nil : stage.shows [] = [] := rfl

@[simp]
theorem shows_cons :
    stage.shows (x :: t) = (stage.onExchange x).2.toList ++ (stage.onExchange x).1.shows t := rfl

theorem after_append : stage.after (t ++ u) = (stage.after t).after u := by
  induction t generalizing stage with
  | nil => rfl
  | cons x t ih => exact ih (stage.onExchange x).1

theorem shows_append : stage.shows (t ++ u) = stage.shows t ++ (stage.after t).shows u := by
  induction t generalizing stage with
  | nil => rfl
  | cons x t ih => simp [ih]

end Stage

/-- Where a transcript leads from its beginning on. -/
def stageOf (t : Transcript) : Stage :=
  Stage.idle.after t

/-- What a transcript shows from its beginning on. -/
def eventsOf (t : Transcript) : List Event :=
  Stage.idle.shows t

variable (t u : Transcript)

@[simp]
theorem stageOf_nil : stageOf [] = .idle := rfl

@[simp]
theorem eventsOf_nil : eventsOf [] = [] := rfl

@[simp]
theorem stageOf_append : stageOf (t ++ u) = (stageOf t).after u :=
  Stage.after_append _ _ _

@[simp]
theorem eventsOf_append : eventsOf (t ++ u) = eventsOf t ++ (stageOf t).shows u :=
  Stage.shows_append _ _ _

end Kernel

theorem Stop.ofSignal_eq_breakpoint_iff {signal : Signal} {code : Int} {addr pc b : Addr} :
    Stop.ofSignal signal code addr pc = .breakpoint b ↔ signal = .trap ∧ pc = b := by
  unfold ofSignal
  split
  next =>
    -- a segmentation fault is a denied access or a signal
    repeat' split
    all_goals simp
  next =>
    simp
  next _ htrap =>
    simpa using fun h => absurd h htrap

namespace Tracing

open Kernel

variable {t : Transcript} {pid : Pid} {bad : Transcript → Halt → Prop}

/-- Finding out what a status means shows nothing. Only a trap is taken for a breakpoint, which lies
where the registers that were read say. -/
theorem ensures_classify {good : Transcript → Stop → Prop} (status : WaitStatus)
    (hidle : stageOf t = .idle)
    (hok : ∀ t' stop, stageOf t' = .idle → eventsOf t' = eventsOf t →
      (∀ pc, stop = .breakpoint pc → ∃ p registers info, status = .stopped p .trap ∧
        registers.rip = pc ∧
        t' = t ++ [⟨.readRegisters pid, .ok registers⟩, ⟨.readSignal pid, .ok info⟩]) →
      good t' stop)
    (hbad : ∀ t' halt, halt.isTracing → eventsOf t' = eventsOf t → bad t' halt) :
    Ensures good bad (classify pid status) t := by
  cases status with
  | stopped p signal =>
    refine ensures_bind.2 (ensures_readRegisters (fun registers => ?_) fun errno => hbad _ _ rfl ?_)
    · refine ensures_bind.2 (ensures_readSignal (fun info => ?_) fun errno => hbad _ _ rfl ?_)
      · refine hok _ _ ?_ ?_ ?_
        · simp [Stage.onExchange, Stage.onRead, hidle]
        · simp [Stage.onExchange]
        · intro pc hpc
          rcases Stop.ofSignal_eq_breakpoint_iff.1 hpc with ⟨rfl, rfl⟩
          exact ⟨p, registers, info, rfl, rfl, by simp⟩
      · simp [Stage.onExchange]
    · simp [Stage.onExchange]
  | systemCall p =>
    refine ensures_bind.2 (ensures_readRegisters (fun registers => ?_) fun errno => hbad _ _ rfl ?_)
    · refine hok _ _ ?_ ?_ ?_
      · simp [Stage.onExchange, Stage.onRead, hidle]
      · simp [Stage.onExchange]
      · simp
    · simp [Stage.onExchange]
  | exited p code =>
    exact hok t _ hidle rfl (by simp)
  | signaled p signal core =>
    exact hok t _ hidle rfl (by simp)
  | _ =>
    exact hbad t _ rfl rfl

end Tracing

end Footprint
