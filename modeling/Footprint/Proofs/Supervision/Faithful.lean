import Footprint.Proofs.Monitor.Record
import Footprint.Proofs.Supervision.Rules

/-!
# Drives are faithful

A drive is held against what shows in its exchanges with the kernel, for every kernel. Its events are a
sequence of whole rounds (a stop is collected, a block is made accessible, the process is resumed)
followed by an ending that says why it ended. `Faithful` states this; the blocks that the monitor
recorded are the blocks of the rounds, and nothing that an ending shows makes a block accessible or
resumes the process.
-/

namespace Footprint

namespace Drive

open Kernel

/-- What a whole turn shows: a stop, the call that made its block accessible, the resumption. -/
structure Round where
  status : WaitStatus
  call : Registers
  after : Registers

namespace Round

def block (r : Round) : Addr := r.call.rdi

/-- What a round shows. -/
def events (r : Round) : List Event :=
  [.collected r.status, .called r.call r.after, .resumed]

/-- The call of a round succeeded for a whole block of a layout. -/
structure Accessible (layout : Layout) (r : Round) : Prop where
  granted : (Event.called r.call r.after).granted = some r.block
  whole : r.call.rsi = layout.blockSize

end Round

/-- How the events of a drive end, by its result. -/
inductive Closing : Except Halt Unit → List Event → Prop where
  -- A breakpoint was reached.
  | completed {pid : Pid} : Closing (.ok ()) [.collected (.stopped pid .trap)]
  | cancelled : Closing (.error (.failed .cancelled)) [.gaveUp]
  | expired {iterations : UInt32} {elapsed : Duration} :
      Closing (.error (.failed (.timeout .wallClock iterations elapsed))) []
  -- The monitor ended the run at a stop.
  | aborted {status : WaitStatus} {failure : Failure} :
      (Halt.failed failure).isTracing = false →
      Closing (.error (.failed failure)) [.collected status]
  -- The kernel did not make a block accessible.
  | refused {status : WaitStatus} {addr start len : Addr} {errno : Errno} {calls : List Event} :
      Injector.Attempt start len (.error errno) calls →
      Closing (.error (.failed (.access addr (.kernelRefused errno)))) (.collected status :: calls)
  -- The tracer itself could not go on.
  | halted {halt : Halt} {ending : List Event} :
      halt.isTracing → (∀ e ∈ ending, e.isIdle = true) → Closing (.error halt) ending

/-- The last stop that was collected is the breakpoint of the sentinel. -/
def ReachedSentinel (layout : Layout) (t : Transcript) : Prop :=
  ∃ (before : Transcript) (pid stopped : Pid) (registers : Registers) (info : SignalInfo)
    (now : Duration),
    t = before ++ [⟨.poll pid, .ok (.stopped stopped .trap)⟩, ⟨.readRegisters pid, .ok registers⟩,
      ⟨.readSignal pid, .ok info⟩, ⟨.clock, now⟩] ∧
    layout.completionPc = .ok registers.rip

/-- The result of a drive and the monitor it leaves behind agree with what its transcript shows. -/
structure Faithful (layout : Layout) (t : Transcript) (result : Except Halt Unit) (m : Monitor) :
    Prop where
  -- Only the sentinel completes a run.
  completed : result = .ok () → m.phase = .trapped ∧ ReachedSentinel layout t
  -- Every failure that is not the tracer's own is one that the monitor noted.
  aborted : ∀ halt, result = .error halt → (m.phase = .aborted ↔ halt.isTracing = false)
  -- The record lists what was made accessible.
  recorded : m.log.toList = (eventsOf t).filterMap Event.granted
  -- The process is resumed once behind each block that was made accessible, and not at the end.
  rounds : ∃ rounds ending, eventsOf t = List.flatMap Round.events rounds ++ ending ∧
    Closing result ending ∧ m.log.toList = rounds.map Round.block ∧
    ∀ r ∈ rounds, r.Accessible layout

/-! ## Endings and rounds -/

/-- Nothing that an ending shows makes a block accessible or resumes the process. -/
theorem Closing.isIdle {result : Except Halt Unit} {ending : List Event} (h : Closing result ending) :
    ∀ e ∈ ending, e.isIdle = true := by
  cases h with
  | halted _ hidle =>
    exact hidle
  | refused hattempt =>
    intro e he
    rcases List.mem_cons.1 he with rfl | hcall
    · rfl
    · exact Event.isIdle_of_isVain (hattempt.isVain e hcall)
  | _ =>
    simp [Event.isIdle, Event.granted]

theorem Closing.granted_eq_nil {result : Except Halt Unit} {ending : List Event}
    (h : Closing result ending) : ending.filterMap Event.granted = [] := by
  rw [List.filterMap_eq_nil_iff]
  intro e he
  exact Event.granted_of_isIdle (h.isIdle e he)

theorem granted_flatMap {layout : Layout} {rounds : List Round}
    (h : ∀ r ∈ rounds, r.Accessible layout) :
    (rounds.flatMap Round.events).filterMap Event.granted = rounds.map Round.block := by
  induction rounds with
  | nil =>
    rfl
  | cons r rest ih =>
    have hrest := ih fun r' hr' => h r' (List.mem_cons_of_mem _ hr')
    have hr := (h r List.mem_cons_self).granted
    have hstop : (Event.collected r.status).granted = none := rfl
    have hresumed : Event.resumed.granted = none := rfl
    simp only [List.flatMap_cons, List.filterMap_append, hrest, List.map_cons]
    simp [Round.events, hr, hstop, hresumed]

/-- Rounds and an ending that fits the result account for the whole transcript: the record follows
from them, since endings add nothing to it. -/
theorem Faithful.of_closing {layout : Layout} {rounds : List Round} {t : Transcript}
    {result : Except Halt Unit} {m : Monitor} (ending : List Event)
    (hevents : eventsOf t = rounds.flatMap Round.events ++ ending) (hclosing : Closing result ending)
    (hlog : m.log.toList = rounds.map Round.block) (hrounds : ∀ r ∈ rounds, r.Accessible layout)
    (hcompleted : result = .ok () → m.phase = .trapped ∧ ReachedSentinel layout t)
    (haborted : ∀ halt, result = .error halt → (m.phase = .aborted ↔ halt.isTracing = false)) :
    Faithful layout t result m where
  completed := hcompleted
  aborted := haborted
  recorded := by
    rw [hevents, List.filterMap_append, granted_flatMap hrounds, hclosing.granted_eq_nil,
      List.append_nil]
    exact hlog
  rounds := ⟨rounds, ending, hevents, hclosing, hlog, hrounds⟩

end Drive

end Footprint
